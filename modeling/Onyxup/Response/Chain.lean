import Onyxup.Response.Base
import Onyxup.Response.Ranges

/-!
Contract: the chain Head, Range, Compress, Default that a worker runs over a
handler's response.

Owns: the four members of the chain with the predicates they consult, and the
exact condition under which a Range answer copies only bytes of the body.

Does not own: the handlers, and zlib's `deflate`, which is a parameter.

A predicate that runs off its end without `return`, a copy that leaves the body
and an exception that nothing catches are faults. Memory is taken to suffice.
-/

set_option autoImplicit false

namespace Onyxup.Response

open Onyxup.Lib.CString
open Onyxup.Lib.Fallible
open Onyxup.Lib.Memory
open Onyxup.Http

inductive ChainFault where
  | noReturn
  | outOfRange
  | outOfBounds
  | runtimeError
deriving DecidableEq, Repr

/-- The `execute` of the next member, on the same task. -/
abbrev Next := ResponseBase → Except ChainFault ResponseBase

/-! ## Range -/

/-- The two predicates of the chain on a request header: absent, or containing
`wanted`. A header that is there and does not contain it leads off the end of
the function. -/
def checkHeader (request : Request) (name wanted : Bytes) : Except ChainFault Bool :=
  match request.headers.lookup name with
  | none => .ok false
  | some text => if (find text wanted).isSome then .ok true else .error .noReturn

/-- `checkRequestRange`. -/
def checkRequestRange (request : Request) : Except ChainFault Bool :=
  checkHeader request (ascii "range") (ascii "bytes")

/-- `prepareRangeNotSatisfiableResponse`. -/
def prepareRangeNotSatisfiableResponse (response : ResponseBase) : ResponseBase :=
  { response.addHeader (ascii "Content-Range") (ascii "*/" ++ decimal response.body.length) with
    code := 416
    codeMsg := ascii "Range Not Satisfiable"
    body := [] }

/-- `std::copy` from `begin() + first` to `begin() + second + 1`. -/
def copyRange (body : Bytes) (range : ByteRange) : Except ChainFault Bytes :=
  if range.first ≤ range.second + 1 ∧ range.second + 1 ≤ body.length then
    .ok ((body.drop range.first).take (range.second + 1 - range.first))
  else .error .outOfBounds

/-- `bytes first-second/size`. -/
def contentRange (range : ByteRange) (size : Nat) : Bytes :=
  ascii "bytes " ++ decimal range.first ++ ascii "-" ++ decimal range.second ++ ascii "/" ++
    decimal size

def multipartByteRanges : Bytes :=
  ascii "multipart/byteranges; boundary=3d6b6a416f9b5"

/-- One part of a multipart answer, without the line end behind it. -/
def rangePart (mimeType : Bytes) (size : Nat) (range : ByteRange) (body : Bytes) : Bytes :=
  ascii "--3d6b6a416f9b5\r\nContent-Type: " ++ cString mimeType ++ ascii "\r\nContent-Range: " ++
    contentRange range size ++ ascii "\r\n\r\n" ++ body

/-- `prepareRangeResponse`. -/
def prepareRangeResponse (response : ResponseBase) (ranges : List ByteRange) :
    Except ChainFault ResponseBase :=
  match ranges with
  | [range] => do
      let body ← copyRange response.body range
      let stated := response.addHeader (ascii "Content-Range")
        (contentRange range response.body.length)
      .ok { stated.addHeader (ascii "Content-Length") (decimal body.length) with
        code := 206
        codeMsg := ascii "Partial Content"
        body := body }
  | _ => do
      let parts ← ranges.mapM fun range => do
        let body ← copyRange response.body range
        .ok (rangePart response.mimeType response.body.length range body)
      let body := (ascii "\r\n").intercalate parts
      .ok { response.addHeader (ascii "Content-Length") (decimal body.length) with
        code := 206
        codeMsg := ascii "Partial Content"
        mimeType := multipartByteRanges
        body := body }

/-- `response.getBody().size() - 1`, in `size_t`. -/
def lastIndex (body : Bytes) : Nat :=
  toSizeT ((body.length : Int) - 1)

/-- `ResponsePrepareRangeChain::execute`. Only `OnyxupException` is caught. -/
def executeRange (library : RangeLibrary) (next : Next) (request : Request)
    (response : ResponseBase) : Except ChainFault ResponseBase :=
  match checkRequestRange request with
  | .error fault => .error fault
  | .ok false => next response
  | .ok true =>
      let src := (request.headers.lookup (ascii "range")).getD []
      match parseRangesRequest library src (lastIndex response.body) with
      | .ok ranges => prepareRangeResponse response ranges
      | .error .onyxupException => .ok (prepareRangeNotSatisfiableResponse response)
      | .error .outOfRange => .error .outOfRange

/-! ## Head, Compress, Default -/

def addContentLength (response : ResponseBase) : ResponseBase :=
  response.addHeader (ascii "Content-Length") (decimal response.body.length)

/-- `ResponsePrepareHeadChain::execute`. -/
def executeHead (next : Next) (request : Request) (response : ResponseBase) :
    Except ChainFault ResponseBase :=
  if request.method = ascii "HEAD" then .ok { addContentLength response with body := [] }
  else next response

/-- `checkSupportGzipEncoding`. -/
def checkSupportGzipEncoding (request : Request) : Except ChainFault Bool :=
  checkHeader request (ascii "accept-encoding") (ascii "gzip")

/-- `max_bytes` of `gzip::Compressor`. -/
def gzipMaxBytes : Nat := 2000000000

/-- `gzip::compress`: more than `max_bytes` are refused with `std::runtime_error`. -/
def gzipCompress (deflate : Bytes → Bytes) (data : Bytes) : Except ChainFault Bytes :=
  if gzipMaxBytes < data.length then .error .runtimeError else .ok (deflate data)

/-- `prepareCompressResponse`. -/
def prepareCompressResponse (deflate : Bytes → Bytes) (response : ResponseBase) :
    Except ChainFault ResponseBase := do
  let compressed ← gzipCompress deflate response.body
  .ok (addContentLength { response.addHeader (ascii "Content-Encoding") (ascii "gzip") with
    body := compressed })

/-- `ResponsePrepareCompressChain::execute`. -/
def executeCompress (deflate : Bytes → Bytes) (compressStaticResources : Bool) (next : Next)
    (request : Request) (type : EnumTaskType) (response : ResponseBase) :
    Except ChainFault ResponseBase := do
  let supported ← checkSupportGzipEncoding request
  if supported && response.compress then prepareCompressResponse deflate response
  else if type = .staticResourcesTask ∧ compressStaticResources = true then
    prepareCompressResponse deflate response
  else next response

/-- `ResponsePrepareDefaultChain::execute`, the last member. -/
def executeDefault (response : ResponseBase) : Except ChainFault ResponseBase :=
  .ok (addContentLength response)

/-- The chain as `tasksHandler` links it. -/
def executeChain (library : RangeLibrary) (deflate : Bytes → Bytes)
    (compressStaticResources : Bool) (request : Request) (type : EnumTaskType)
    (response : ResponseBase) : Except ChainFault ResponseBase :=
  executeHead
    (executeRange library
      (executeCompress deflate compressStaticResources executeDefault request type) request)
    request response

/-! ## What a Range answer copies -/

/-- The bytes `first` to `second` of a body, both included. -/
def slice (body : Bytes) (range : ByteRange) : Bytes :=
  (body.drop range.first).take (range.second - range.first + 1)

/-- A range with both ends inside the body. -/
def ByteRange.Inside (range : ByteRange) (body : Bytes) : Prop :=
  range.first ≤ range.second ∧ range.second < body.length

/-- The answers to a Range header that are as they should be: 416, or 206 with
slices of the original body and headers that state which ones. -/
inductive RangeAnswer (library : RangeLibrary) (src : Bytes) (response : ResponseBase) :
    ResponseBase → Prop where
  | notSatisfiable {after : ResponseBase} (code : after.code = 416) :
      RangeAnswer library src response after
  | single {after : ResponseBase} {range : ByteRange}
      (parsed : parseRangesRequest library src (lastIndex response.body) = .ok [range])
      (inside : range.Inside response.body) (code : after.code = 206)
      (body : after.body = slice response.body range)
      (stated : after.headers.lookup (ascii "Content-Range") =
        some (contentRange range response.body.length))
      (length : after.headers.lookup (ascii "Content-Length") =
        some (decimal (range.second - range.first + 1))) :
      RangeAnswer library src response after
  | several {after : ResponseBase} {ranges : List ByteRange}
      (parsed : parseRangesRequest library src (lastIndex response.body) = .ok ranges)
      (many : 2 ≤ ranges.length) (inside : ∀ range ∈ ranges, range.Inside response.body)
      (code : after.code = 206)
      (body : after.body = (ascii "\r\n").intercalate (ranges.map fun range =>
        rangePart response.mimeType response.body.length range (slice response.body range))) :
      RangeAnswer library src response after

/-- A 206 answer has a body to take its slices from. -/
theorem RangeAnswer.body_ne_nil {library : RangeLibrary} {src : Bytes}
    {response after : ResponseBase} (answer : RangeAnswer library src response after)
    (partialContent : after.code ≠ 416) : response.body ≠ [] := by
  have nonempty : ∀ {range : ByteRange} {body : Bytes}, range.Inside body → body ≠ [] := by
    rintro range body ⟨_, below⟩ rfl
    cases below
  cases answer with
  | notSatisfiable code => exact absurd code partialContent
  | single _ inside => exact nonempty inside
  | several _ many inside =>
      obtain ⟨range, member⟩ := List.exists_mem_of_length_pos (Nat.lt_of_lt_of_le Nat.two_pos many)
      exact nonempty (inside range member)

section Copies

variable {response after : ResponseBase} {range : ByteRange} {ranges : List ByteRange}

theorem copyRange_of_inside {body : Bytes} (inside : range.Inside body) :
    copyRange body range = .ok (slice body range) := by
  obtain ⟨ordered, below⟩ := inside
  rw [copyRange, if_pos ⟨by omega, by omega⟩, slice]
  congr 3
  omega

theorem length_slice {body : Bytes} (inside : range.Inside body) :
    (slice body range).length = range.second - range.first + 1 := by
  obtain ⟨ordered, below⟩ := inside
  rw [slice, List.length_take, List.length_drop]
  omega

/-- A body that is not empty: its last index is inside. -/
theorem lastIndex_lt {body : Bytes} (nonempty : body ≠ []) : lastIndex body < body.length := by
  have positive := List.length_pos_iff.mpr nonempty
  simp only [lastIndex, toSizeT]
  omega

/-- In an empty body every index is below the last one. -/
theorem lastIndex_nil : lastIndex [] = 18446744073709551615 := by
  decide

/-- Whatever `prepareRangeResponse` returns is a 206. -/
theorem prepareRangeResponse_code
    (prepared : prepareRangeResponse response ranges = .ok after) : after.code = 206 := by
  unfold prepareRangeResponse at prepared
  split at prepared
  next =>
    obtain ⟨body, _, prepared⟩ := bind_ok prepared
    cases prepared
    rfl
  next =>
    obtain ⟨parts, _, prepared⟩ := bind_ok prepared
    cases prepared
    rfl

theorem copy_parts {mimeType body : Bytes}
    (inside : ∀ range ∈ ranges, range.Inside body) :
    (ranges.mapM fun range => do
      let copied ← copyRange body range
      Except.ok (rangePart mimeType body.length range copied)) =
      .ok (ranges.map fun range => rangePart mimeType body.length range (slice body range)) := by
  induction ranges with
  | nil => rfl
  | cons head tail inductionHypothesis =>
      have headInside := copyRange_of_inside (inside head List.mem_cons_self)
      have tailParts := inductionHypothesis fun range member =>
        inside range (List.mem_cons_of_mem _ member)
      rw [List.mapM_cons, headInside, tailParts]
      rfl

/-- What is parsed for the last index of a body that has bytes is inside it. -/
theorem inside_of_parsed {library : RangeLibrary} {src body : Bytes}
    (parsed : parseRangesRequest library src (lastIndex body) = .ok ranges)
    (nonempty : body ≠ []) : ∀ range ∈ ranges, range.Inside body := by
  intro range member
  obtain ⟨ordered, below⟩ := (parseRangesRequest_bounded parsed).2 range member
  exact ⟨ordered, Nat.lt_of_le_of_lt below (lastIndex_lt nonempty)⟩

/-- Ranges inside the body are answered with their slices. -/
theorem prepareRangeResponse_of_inside {library : RangeLibrary} {src : Bytes}
    (parsed : parseRangesRequest library src (lastIndex response.body) = .ok ranges)
    (inside : ∀ range ∈ ranges, range.Inside response.body) :
    ∃ after, prepareRangeResponse response ranges = .ok after ∧
      RangeAnswer library src response after := by
  have nonempty := (parseRangesRequest_bounded parsed).1
  unfold prepareRangeResponse
  split
  next range =>
    have only := inside range (List.mem_singleton_self _)
    rw [copyRange_of_inside only]
    refine ⟨_, rfl, .single parsed only rfl rfl ?_ ?_⟩
    · simp only [ResponseBase.addHeader]
      rw [Finmap.lookup_insert_of_ne _ (by decide), Finmap.lookup_insert]
    · simp only [ResponseBase.addHeader]
      rw [Finmap.lookup_insert, length_slice only]
  next notSingle =>
    rw [copy_parts inside]
    refine ⟨_, rfl, .several parsed ?_ inside rfl rfl⟩
    match ranges, nonempty, notSingle with
    | [], nonempty, _ => exact absurd rfl nonempty
    | [range], _, notSingle => exact absurd rfl (notSingle range)
    | _ :: _ :: _, _, _ => simp

end Copies

/-- **Range responses copy only bytes of the body.** For every response and every
Range header that mentions `bytes`: the answer is 416, or 206 with slices of the
body and their true positions, exactly when `substr` does not start behind the
end of the header and, for an empty body, the parser refuses the header at the
wrapped length. -/
theorem range_answer_iff (library : RangeLibrary) (next : Next) (request : Request)
    (response : ResponseBase) (src : Bytes)
    (asked : request.headers.lookup (ascii "range") = some src)
    (mentions : (find src (ascii "bytes")).isSome = true) :
    (∃ after, executeRange library next request response = .ok after ∧
        RangeAnswer library src response after) ↔
      (lastIndex response.body = 0 ∨ ¬ PositionLost src) ∧
        (response.body = [] →
          parseRangesRequest library src 18446744073709551615 = .error .onyxupException) := by
  have checked : checkRequestRange request = .ok true := by
    simp only [checkRequestRange, checkHeader, asked, mentions, if_true]
  have notLost : parseRangesRequest library src (lastIndex response.body) ≠
      .error .outOfRange → lastIndex response.body = 0 ∨ ¬ PositionLost src := by
    intro other
    by_contra both
    simp only [not_or, not_not] at both
    exact other ((parseRangesRequest_outOfRange library src _).mpr both)
  simp only [executeRange, checked, asked, Option.getD_some]
  cases parsed : parseRangesRequest library src (lastIndex response.body) with
  | ok ranges =>
      constructor
      · rintro ⟨after, prepared, answer⟩
        have partialContent : after.code ≠ 416 := by
          rw [prepareRangeResponse_code prepared]
          decide
        exact ⟨notLost (by rw [parsed]; simp),
          fun empty => absurd empty (answer.body_ne_nil partialContent)⟩
      · rintro ⟨_, refuses⟩
        have nonempty : response.body ≠ [] := by
          intro empty
          rw [empty, lastIndex_nil, refuses empty] at parsed
          cases parsed
        exact prepareRangeResponse_of_inside parsed (inside_of_parsed parsed nonempty)
  | error fault =>
      cases fault with
      | onyxupException =>
          refine iff_of_true ⟨_, rfl, .notSatisfiable rfl⟩ ⟨notLost (by rw [parsed]; simp), ?_⟩
          intro empty
          rw [← lastIndex_nil, ← empty]
          exact parsed
      | outOfRange =>
          obtain ⟨positive, lost⟩ := (parseRangesRequest_outOfRange library src _).mp parsed
          apply iff_of_false
          · rintro ⟨_, impossible, _⟩
            cases impossible
          · rintro ⟨zero | notLost, _⟩
            · exact positive zero
            · exact notLost lost

/-- A request for the ranges `src`. -/
def rangeRequest (src : Bytes) : Request :=
  { requestFactory 1 1024 with
    method := ascii "GET"
    headers := (∅ : Dict).insert (ascii "range") src }

/-- Two ranges of a ten-byte body are copied from it. -/
theorem two_ranges_inside :
    ∃ after, executeRange stableLibrary executeDefault (rangeRequest (ascii "bytes=0-1,4-6"))
        (.make 200 (ascii "OK") mimeTextHtml (ascii "0123456789")) = .ok after ∧
      RangeAnswer stableLibrary (ascii "bytes=0-1,4-6")
        (.make 200 (ascii "OK") mimeTextHtml (ascii "0123456789")) after :=
  (range_answer_iff stableLibrary executeDefault _ _ (ascii "bytes=0-1,4-6")
    (Finmap.lookup_insert _) (by decide)).mpr
    ⟨.inr (not_positionLost_of_short (by decide)), fun empty => absurd empty (by decide)⟩

/-- Ten bytes of an empty body are copied from outside it. -/
theorem empty_body_copied_out_of_bounds :
    (find (ascii "bytes=0-9") (ascii "bytes")).isSome = true ∧
      executeRange stableLibrary executeDefault (rangeRequest (ascii "bytes=0-9"))
        (.make 200 (ascii "OK") mimeTextHtml []) = .error .outOfBounds ∧
      ¬ ∃ after, executeRange stableLibrary executeDefault (rangeRequest (ascii "bytes=0-9"))
          (.make 200 (ascii "OK") mimeTextHtml []) = .ok after ∧
        RangeAnswer stableLibrary (ascii "bytes=0-9")
          (.make 200 (ascii "OK") mimeTextHtml []) after := by
  have outside : executeRange stableLibrary executeDefault (rangeRequest (ascii "bytes=0-9"))
      (.make 200 (ascii "OK") mimeTextHtml []) = .error .outOfBounds := by
    decide +kernel
  refine ⟨by decide, outside, ?_⟩
  rintro ⟨after, answered, _⟩
  rw [outside] at answered
  cases answered

end Onyxup.Response
