import Onyxup.Lib.MimeMultipart
import Onyxup.Response.Chain

/-!
Contract: a 206 answer with several ranges, read as a multipart payload.

Owns: the parts of the answer in the terms of the decoder, and what a client recovers from
the payload as it is sent and with the close delimiter that is missing from it.

Does not own: the decoder, and which ranges the parser accepts.
-/

set_option autoImplicit false

namespace Onyxup.Response

open Onyxup.Lib.CString
open Onyxup.Lib.Fallible
open Onyxup.Lib.MimeMultipart
open Onyxup.Http

/-- The text that no part may contain. -/
def boundaryText : Bytes :=
  ascii "3d6b6a416f9b5"

/-- The boundary parameter of a Content-Type. -/
def declaredBoundary (mimeType : Bytes) : Option Bytes :=
  (find mimeType (ascii "boundary=")).map fun index => mimeType.drop (index + 9)

theorem declaredBoundary_multipart : declaredBoundary multipartByteRanges = some boundaryText := by
  decide

/-! ## The parts -/

/-- The lines and the slice of a part, behind its boundary line. -/
def partText (mimeType : Bytes) (size : Nat) (range : ByteRange) (body : Bytes) : Bytes :=
  (ascii "Content-Type" ++ ascii ": " ++ cString mimeType) ++
    [ascii "Content-Range" ++ ascii ": " ++ contentRange range size].flatMap (ascii "\r\n" ++ ·) ++
    (ascii "\r\n\r\n" ++ body)

section Parts

variable {mimeType body : Bytes} {size : Nat} {range : ByteRange}

theorem rangePart_eq (mimeType : Bytes) (size : Nat) (range : ByteRange) (body : Bytes) :
    rangePart mimeType size range body =
      ascii "--" ++ boundaryText ++ (ascii "\r\n" ++ partText mimeType size range body) := by
  have first : ascii "--3d6b6a416f9b5\r\nContent-Type: " =
      ascii "--" ++ boundaryText ++ ascii "\r\n" ++ ascii "Content-Type" ++ ascii ": " := by
    decide
  have second : ascii "\r\nContent-Range: " =
      ascii "\r\n" ++ ascii "Content-Range" ++ ascii ": " := by
    decide
  simp only [rangePart, partText, first, second, List.flatMap_singleton, List.append_assoc]

private theorem mem_contentRange {byte : UInt8} (member : byte ∈ contentRange range size) :
    byte ∈ ascii "bytes -/" ∨ isDigit byte = true := by
  simp only [contentRange, List.mem_append] at member
  have literals : ∀ byte, byte ∈ ascii "bytes " ∨ byte ∈ ascii "-" ∨ byte ∈ ascii "/" →
      byte ∈ ascii "bytes -/" := by
    have bytes : ascii "bytes -/" = ascii "bytes " ++ ascii "-" ++ ascii "/" := by decide
    intro byte any
    simp only [bytes, List.mem_append]
    tauto
  rcases member with ((((literal | digit) | literal) | digit) | literal) | digit
  · exact .inl (literals byte (.inl literal))
  · exact .inr (isDigit_of_mem_decimal digit)
  · exact .inl (literals byte (.inr (.inl literal)))
  · exact .inr (isDigit_of_mem_decimal digit)
  · exact .inl (literals byte (.inr (.inr literal)))
  · exact .inr (isDigit_of_mem_decimal digit)

private theorem not_mem_rangeLine {byte : UInt8}
    (notLiteral : byte ∉ ascii "Content-Range" ++ ascii ": ")
    (notRange : byte ∉ ascii "bytes -/") (notDigit : isDigit byte = false) :
    byte ∉ ascii "Content-Range" ++ ascii ": " ++ contentRange range size := by
  intro member
  rcases List.mem_append.mp member with literal | ranged
  · exact notLiteral literal
  · rcases mem_contentRange ranged with literal | digit
    · exact notRange literal
    · rw [notDigit] at digit
      cases digit

theorem isLine_range (range : ByteRange) (size : Nat) :
    IsLine (ascii "Content-Range" ++ ascii ": " ++ contentRange range size) :=
  ⟨by simp [show ascii ": " ≠ [] by decide],
    not_mem_rangeLine (by decide) (by decide) (by decide),
    not_mem_rangeLine (by decide) (by decide) (by decide)⟩

/-- A MIME type on one line. -/
def OneLine (mimeType : Bytes) : Prop :=
  13 ∉ cString mimeType ∧ 10 ∉ cString mimeType

theorem isLine_type (oneLine : OneLine mimeType) :
    IsLine (ascii "Content-Type" ++ ascii ": " ++ cString mimeType) := by
  refine ⟨by simp [show ascii ": " ≠ [] by decide], ?_, ?_⟩
  · rw [List.mem_append, not_or]
    exact ⟨by decide, oneLine.1⟩
  · rw [List.mem_append, not_or]
    exact ⟨by decide, oneLine.2⟩

private theorem find_append_boundary {front : Bytes} (missing : 51 ∉ front)
    (free : find body boundaryText = none) : find (front ++ body) boundaryText = none := by
  have skipped : find (front ++ body) boundaryText = (find body boundaryText).map _ :=
    find_append_of_not_mem missing body
  rw [skipped, free]
  rfl

/-- The boundary is in no part, if it is neither in the MIME type nor in the slice. -/
theorem partText_free (mimeFree : find (cString mimeType) boundaryText = none)
    (bodyFree : find body boundaryText = none) :
    find (partText mimeType size range body) (delimiter boundaryText) = none := by
  have shape : partText mimeType size range body =
      (ascii "Content-Type" ++ ascii ": " ++ cString mimeType) ++ 13 ::
        ((10 :: (ascii "Content-Range" ++ ascii ": " ++ contentRange range size)) ++ 13 ::
          ([10] ++ 13 :: ([10] ++ body))) := by
    simp only [partText, List.flatMap_singleton, List.append_assoc]
    rfl
  have nonempty : boundaryText ≠ [] := by decide
  have foreign : 13 ∉ boundaryText := by decide
  have noRange : find (10 :: (ascii "Content-Range" ++ ascii ": " ++ contentRange range size))
      boundaryText = none := by
    apply find_eq_none_of_not_mem (show 100 ∈ boundaryText by decide)
    rw [List.mem_cons, not_or]
    exact ⟨by decide, not_mem_rangeLine (by decide) (by decide) (by decide)⟩
  have free : find (partText mimeType size range body) boundaryText = none := by
    rw [shape,
      find_append_separator nonempty foreign (find_append_boundary (by decide) mimeFree),
      find_append_separator nonempty foreign noRange,
      find_append_separator nonempty foreign (by decide),
      find_append_boundary (by decide) bodyFree]
    rfl
  rw [find_eq_none_iff_absent nonempty] at free
  rw [find_eq_none_iff_absent (show delimiter boundaryText ≠ [] by decide)]
  intro isPart
  exact free ((List.suffix_append _ _).isInfix.trans isPart)

/-- What a client takes from a part. -/
def triple (entity : Entity) : Option Bytes × Option Bytes × Bytes :=
  (entity.field (ascii "Content-Type"), entity.field (ascii "Content-Range"), entity.content)

theorem triple_parseEntity (oneLine : OneLine mimeType) :
    triple (parseEntity (partText mimeType size range body)) =
      (some (cString mimeType), some (contentRange range size), body) := by
  rw [partText, parseEntity_lines (isLine_type oneLine)
    (fun line member => List.mem_singleton.mp member ▸ isLine_range range size)]
  rw [List.map_cons, List.map_singleton, parseField_colon (by decide),
    parseField_colon (by decide)]
  rfl

end Parts

/-! ## The payload -/

/-- A client that is told `boundary` gets from `payload` what the ranges of the response
select: content type, position and bytes of each. -/
def Recovers (boundary payload : Bytes) (response : ResponseBase) (ranges : List ByteRange) :
    Prop :=
  (decode boundary payload).map (·.map triple) =
    some (ranges.map fun range =>
      (some (cString response.mimeType), some (contentRange range response.body.length),
        slice response.body range))

section Payload

variable {response : ResponseBase} {ranges : List ByteRange}

/-- The parts of an answer. -/
private def partsOf (response : ResponseBase) (ranges : List ByteRange) : List Bytes :=
  ranges.map fun range =>
    partText response.mimeType response.body.length range (slice response.body range)

private theorem partsOf_free (ranges : List ByteRange)
    (mimeFree : find (cString response.mimeType) boundaryText = none)
    (bodyFree : find response.body boundaryText = none) :
    ∀ part ∈ partsOf response ranges, find part (delimiter boundaryText) = none := by
  intro part member
  obtain ⟨range, _, rfl⟩ := List.mem_map.mp member
  apply partText_free mimeFree
  have nonempty : boundaryText ≠ [] := by decide
  rw [find_eq_none_iff_absent nonempty] at bodyFree ⊢
  intro inSlice
  exact bodyFree (inSlice.trans
    ((List.take_prefix _ _).isInfix.trans (List.drop_suffix _ _).isInfix))

private theorem payload_eq (front : List ByteRange) (range : ByteRange) :
    (ascii "\r\n").intercalate ((front ++ [range]).map fun range =>
        rangePart response.mimeType response.body.length range (slice response.body range)) =
      ascii "--" ++ boundaryText ++ partsText boundaryText
        (ascii "\r\n" ++ partText response.mimeType response.body.length range
          (slice response.body range)) (partsOf response front) := by
  rw [← intercalate_parts, partsOf, List.map_append, List.map_append, List.map_map]
  simp only [rangePart_eq]
  rfl

private theorem not_recovers_payload (nonempty : ranges ≠ [])
    (mimeFree : find (cString response.mimeType) boundaryText = none)
    (bodyFree : find response.body boundaryText = none) :
    ¬ Recovers boundaryText ((ascii "\r\n").intercalate (ranges.map fun range =>
      rangePart response.mimeType response.body.length range (slice response.body range)))
      response ranges := by
  obtain ⟨front, range, rfl⟩ := (List.eq_nil_or_concat' ranges).resolve_left nonempty
  have lastFree := partsOf_free [range] mimeFree bodyFree _ (List.mem_singleton_self _)
  rw [Recovers, decode, payload_eq,
    bodyParts_unclosed (by decide) (partsOf_free front mimeFree bodyFree) lastFree]
  rintro ⟨⟩

private theorem recovers_closed (nonempty : ranges ≠ []) (oneLine : OneLine response.mimeType)
    (mimeFree : find (cString response.mimeType) boundaryText = none)
    (bodyFree : find response.body boundaryText = none) :
    Recovers boundaryText ((ascii "\r\n").intercalate (ranges.map fun range =>
      rangePart response.mimeType response.body.length range (slice response.body range)) ++
        closeDelimiter boundaryText) response ranges := by
  obtain ⟨front, range, rfl⟩ := (List.eq_nil_or_concat' ranges).resolve_left nonempty
  have free := partsOf_free (front ++ [range]) mimeFree bodyFree
  have all : partsOf response front ++ [partText response.mimeType response.body.length range
      (slice response.body range)] = partsOf response (front ++ [range]) := by
    rw [partsOf, partsOf, List.map_append, List.map_singleton]
  rw [Recovers, decode, payload_eq, List.append_assoc, partsText_close, all,
    bodyParts_closed (by decide) free, Option.map_some, Option.map_some, partsOf, List.map_map,
    List.map_map]
  congr 1
  apply List.map_congr_left
  intro other _
  exact triple_parseEntity oneLine

private theorem prepareRangeResponse_several (many : 2 ≤ ranges.length)
    (inside : ∀ range ∈ ranges, range.Inside response.body) :
    ∃ after, prepareRangeResponse response ranges = .ok after ∧
      after.mimeType = multipartByteRanges ∧
      after.body = (ascii "\r\n").intercalate (ranges.map fun range =>
        rangePart response.mimeType response.body.length range (slice response.body range)) := by
  unfold prepareRangeResponse
  split
  next => exact absurd many (by simp)
  next =>
    rw [copy_parts inside]
    exact ⟨_, rfl, rfl, rfl⟩

private theorem mentions_of_parsed {library : RangeLibrary} {src : Bytes} {length : Nat}
    (parsed : parseRangesRequest library src length = .ok ranges) :
    (find src (ascii "bytes")).isSome = true := by
  obtain ⟨text, _, found, _⟩ := parseRangesRequest_ok parsed
  have unit : ascii "bytes" <+: ascii "bytes=" := ⟨ascii "=", by decide⟩
  rw [Option.isSome_iff_ne_none, Ne, find_eq_none_iff_absent (by decide), not_not]
  cases position : find src (ascii "bytes=") with
  | none =>
      rw [rangesText, position] at found
      cases found
  | some index =>
      have present : ¬ find src (ascii "bytes=") = none := by
        rw [position]
        exact Option.some_ne_none _
      rw [find_eq_none_iff_absent (by decide), not_not] at present
      exact unit.isInfix.trans present

end Payload

/-- **No multi-range payload can be decoded as it is sent:** the close delimiter is never
written. It is all that is missing: behind it the client gets the content type, the position
and the bytes of every range in order, for every MIME type on one line. -/
theorem multi_range_never_closed (library : RangeLibrary) (next : Next) (request : Request)
    (response : ResponseBase) (src : Bytes) (ranges : List ByteRange)
    (asked : request.headers.lookup (ascii "range") = some src)
    (parsed : parseRangesRequest library src (lastIndex response.body) = .ok ranges)
    (many : 2 ≤ ranges.length) (two : 2 ≤ response.body.length)
    (mimeFree : find response.mimeType boundaryText = none)
    (bodyFree : find response.body boundaryText = none) :
    ∃ after boundary, executeRange library next request response = .ok after ∧
      declaredBoundary after.mimeType = some boundary ∧
      ¬ Recovers boundary after.body response ranges ∧
      (OneLine response.mimeType →
        Recovers boundary (after.body ++ closeDelimiter boundary) response ranges) := by
  have hasBytes : response.body ≠ [] := List.ne_nil_of_length_pos (by omega)
  have nonempty := (parseRangesRequest_bounded parsed).1
  have nameFree : find (cString response.mimeType) boundaryText = none := by
    rw [find_eq_none_iff_absent (by decide)] at mimeFree ⊢
    intro inName
    exact mimeFree (inName.trans (List.takeWhile_prefix _).isInfix)
  have checked : checkRequestRange request = .ok true := by
    simp only [checkRequestRange, checkHeader, asked, mentions_of_parsed parsed, if_true]
  obtain ⟨after, prepared, mimeType, body⟩ :=
    prepareRangeResponse_several many (inside_of_parsed parsed hasBytes)
  refine ⟨after, boundaryText, ?_, ?_, ?_, ?_⟩
  · simp only [executeRange, checked, asked, Option.getD_some, parsed, prepared]
  · rw [mimeType]
    exact declaredBoundary_multipart
  · rw [body]
    exact not_recovers_payload nonempty nameFree bodyFree
  · intro oneLine
    rw [body]
    exact recovers_closed nonempty oneLine nameFree bodyFree

/-- Two ranges of ten bytes. -/
theorem two_ranges_not_closed :
    ∃ after boundary, executeRange stableLibrary executeDefault
        (rangeRequest (ascii "bytes=0-1,4-6"))
        (.make 200 (ascii "OK") mimeTextHtml (ascii "0123456789")) = .ok after ∧
      declaredBoundary after.mimeType = some boundary ∧
      ¬ Recovers boundary after.body
        (.make 200 (ascii "OK") mimeTextHtml (ascii "0123456789")) [⟨0, 1⟩, ⟨4, 6⟩] ∧
      (OneLine mimeTextHtml → Recovers boundary (after.body ++ closeDelimiter boundary)
        (.make 200 (ascii "OK") mimeTextHtml (ascii "0123456789")) [⟨0, 1⟩, ⟨4, 6⟩]) :=
  multi_range_never_closed stableLibrary executeDefault _ _ (ascii "bytes=0-1,4-6") _
    (Finmap.lookup_insert _) (by decide) (by decide) (by decide) (by decide) (by decide)

/-- The same two ranges: the decoder waits for the close delimiter. -/
theorem payload_without_end :
    (executeRange stableLibrary executeDefault (rangeRequest (ascii "bytes=0-1,4-6"))
        (.make 200 (ascii "OK") mimeTextHtml (ascii "0123456789"))).map
          (fun after => (declaredBoundary after.mimeType, decode boundaryText after.body)) =
        .ok (some boundaryText, none) ∧
      ¬ ∃ after boundary, executeRange stableLibrary executeDefault
          (rangeRequest (ascii "bytes=0-1,4-6"))
          (.make 200 (ascii "OK") mimeTextHtml (ascii "0123456789")) = .ok after ∧
        declaredBoundary after.mimeType = some boundary ∧
        Recovers boundary after.body
          (.make 200 (ascii "OK") mimeTextHtml (ascii "0123456789")) [⟨0, 1⟩, ⟨4, 6⟩] := by
  have undecoded : (executeRange stableLibrary executeDefault
      (rangeRequest (ascii "bytes=0-1,4-6"))
      (.make 200 (ascii "OK") mimeTextHtml (ascii "0123456789"))).map
        (fun after => (declaredBoundary after.mimeType, decode boundaryText after.body)) =
      .ok (some boundaryText, none) := by
    decide +kernel
  refine ⟨undecoded, ?_⟩
  rintro ⟨after, boundary, executed, declared, recovers⟩
  rw [executed] at undecoded
  obtain ⟨sameBoundary, noParts⟩ := Prod.mk.inj (Except.ok.inj undecoded)
  rw [declared] at sameBoundary
  cases sameBoundary
  rw [Recovers, noParts] at recovers
  cases recovers

end Onyxup.Response
