import Onyxup.Lib.CString
import Onyxup.Lib.Incremental

/-!
Contract: the request half of the vendored `picohttpparser`.

Owns: `phr_parse_request` with `last_len = 0` and every function it calls, in
the build without SSE 4.2, and the laws of its three verdicts.

Does not own: the response and chunked-body halves of the vendored file, which
the server never calls.

A `const char *` cursor with its end is a list of bytes: reading is `cons`,
`buf == buf_end` is `nil`. The pointers the parser hands out into its buffer
are the bytes they delimit. `-2` is `incomplete`, `-1` is `fail`.
-/

set_option autoImplicit false

namespace Onyxup.Http.Parser

open Onyxup.Lib.CString
open Onyxup.Lib.Memory
open Onyxup.Lib.Incremental
open Onyxup.Lib.Incremental.Reader

/-- `struct phr_header`. A continuation line has `name = NULL` and
`name_len = 0`; no other header has an empty name. -/
structure PhrHeader where
  name : Bytes
  value : Bytes
deriving DecidableEq, Repr

/-- The out parameters of a successful `phr_parse_request`. -/
structure RequestHead where
  method : Bytes
  path : Bytes
  minorVersion : Nat
  headers : List PhrHeader
deriving DecidableEq, Repr

/-- `token_char_map`, row by row. -/
def tokenCharMap : List Nat :=
  [0, 0, 0, 0, 0, 0, 0, 0, 0, 0, 0, 0, 0, 0, 0, 0, 0, 0, 0, 0, 0, 0, 0, 0, 0, 0, 0, 0, 0, 0, 0, 0] ++
  [0, 1, 0, 1, 1, 1, 1, 1, 0, 0, 1, 1, 0, 1, 1, 0, 1, 1, 1, 1, 1, 1, 1, 1, 1, 1, 0, 0, 0, 0, 0, 0] ++
  [0, 1, 1, 1, 1, 1, 1, 1, 1, 1, 1, 1, 1, 1, 1, 1, 1, 1, 1, 1, 1, 1, 1, 1, 1, 1, 1, 0, 0, 0, 1, 1] ++
  [1, 1, 1, 1, 1, 1, 1, 1, 1, 1, 1, 1, 1, 1, 1, 1, 1, 1, 1, 1, 1, 1, 1, 1, 1, 1, 1, 0, 1, 0, 1, 0]

/-- `token_char_map[(unsigned char) c]`; the upper half of the table is zero. -/
def isTokenChar (byte : UInt8) : Bool :=
  tokenCharMap.getD byte.toNat 0 == 1

/-- The control characters that end a request-line token with an error. -/
def isTokenControl (byte : UInt8) : Bool :=
  byte < 32 || byte == 127

/-- The control characters at which `get_token_to_eol` leaves its loop. -/
def isLineControl (byte : UInt8) : Bool :=
  (byte < 32 && byte != 9) || byte == 127

def isBlank (byte : UInt8) : Bool :=
  byte == 32 || byte == 9

/-- `ADVANCE_TOKEN`. -/
def advanceToken : Reader UInt8 Bytes :=
  takeUntil (· == 32) isTokenControl

/-- A line end, CR LF or a bare LF, and what to do when there is none. -/
def lineEnd (otherwise : Reader UInt8 Unit) : Reader UInt8 Unit :=
  byHead fun byte =>
    if byte = 13 then do
      let _ ← item
      expect 10
    else if byte = 10 then do
      let _ ← item
      pure ()
    else otherwise

/-- `get_token_to_eol`. The eight-at-a-time loop of the source and the loop
behind it stop at the same byte. -/
def getTokenToEol : Reader UInt8 Bytes := do
  let token ← takeUntil isLineControl (fun _ => false)
  lineEnd reject
  pure token

/-- `parse_http_version`: nine bytes must be there, eight are read. -/
def parseHttpVersion : Reader UInt8 Nat :=
  atLeast 9 do
    expectAll [72, 84, 84, 80, 47, 49, 46]
    let minor ← item
    if isDigit minor then pure (minor.toNat - 48) else reject

/-- The value without its trailing blanks. -/
def trimTrailing (value : Bytes) : Bytes :=
  (value.reverse.dropWhile isBlank).reverse

/-- The name part of one header line: up to the colon, which is read too, and
the blanks behind it. -/
def parseHeaderName : Reader UInt8 Bytes := do
  let name ← takeUntil (· == 58) (fun byte => !isTokenChar byte)
  if name = [] then reject
  else do
    let _ ← item
    let _ ← takeUntil (fun byte => !isBlank byte) (fun _ => false)
    pure name

/-- The value part of one header line. -/
def parseHeaderValue (name : Bytes) : Reader UInt8 PhrHeader := do
  let value ← getTokenToEol
  pure ⟨name, trimTrailing value⟩

/-- One iteration of the loop in `parse_headers`, behind the tests for the end
of the block. A line that starts with a blank continues the header before it. -/
def parseHeader (isFirst : Bool) : Reader UInt8 PhrHeader :=
  byHead fun byte =>
    if !isFirst && isBlank byte then parseHeaderValue []
    else do
      let name ← parseHeaderName
      parseHeaderValue name

/-- The end of the header block, or one more line of it. -/
def endOfBlockOr (line : Reader UInt8 (List PhrHeader)) : Reader UInt8 (List PhrHeader) :=
  byHead fun byte =>
    if byte = 13 then do
      let _ ← item
      expect 10
      pure []
    else if byte = 10 then do
      let _ ← item
      pure []
    else line

/-- `parse_headers` with `slots` entries of the header array still free. -/
def parseHeaders : (slots : Nat) → (isFirst : Bool) → Reader UInt8 (List PhrHeader)
  | 0, _ => endOfBlockOr reject
  | free + 1, isFirst =>
      endOfBlockOr do
        let header ← parseHeader isFirst
        let headers ← parseHeaders free false
        pure (header :: headers)

/-- The optional empty line before the request line. -/
def skipEmptyLine : Reader UInt8 Unit :=
  lineEnd (pure ())

/-- The end of the request line. The source does not test for the end of the
buffer here: `parse_http_version` has seen the byte. -/
def endRequestLine : Reader UInt8 Unit :=
  lineEnd reject

/-- Version and end of line: what follows the second space. -/
def parseLineTail : Reader UInt8 Nat := do
  let minorVersion ← parseHttpVersion
  endRequestLine
  pure minorVersion

/-- The part of `parse_request` before the headers: method, target and minor
version. -/
def parseRequestLine : Reader UInt8 (Bytes × Bytes × Nat) := do
  skipEmptyLine
  let method ← advanceToken
  let _ ← item
  let path ← advanceToken
  let _ ← item
  if method = [] ∨ path = [] then reject
  else do
    let minorVersion ← parseLineTail
    pure (method, path, minorVersion)

/-- `parse_request`. -/
def parseRequest (maxHeaders : Nat) : Reader UInt8 RequestHead := do
  let (method, path, minorVersion) ← parseRequestLine
  let headers ← parseHeaders maxHeaders true
  pure ⟨method, path, minorVersion, headers⟩

/-- `phr_parse_request(buf, len, ..., last_len = 0)`: the returned `int` and,
when it is positive, the out parameters. -/
def phrParseRequest (maxHeaders : Nat) (buf : Bytes) : Int × Option RequestHead :=
  match parseRequest maxHeaders buf with
  | .done head rest => (toInt32 (buf.length - rest.length), some head)
  | .fail => (-1, none)
  | .incomplete => (-2, none)

/-! ## Verdicts of the parts

One law per reader: final verdicts, the unread bytes a success may depend on,
the bytes it is sure to read. -/

theorem measured_advanceToken : Measured 1 0 advanceToken :=
  measured_takeUntil _ _

/-- A line end that is there is read. Without one, `otherwise` decides. -/
theorem measured_lineEnd {otherwise : Reader UInt8 Unit} {bound count : Nat}
    (law : Measured bound count otherwise) (small : count ≤ 1)
    (covered : 1 ≤ bound + count) : Measured bound count (lineEnd otherwise) := by
  apply measured_byHead _ covered
  intro byte
  by_cases isCr : byte = 13
  · rw [if_pos isCr]
    exact (measured_item.bind (fun _ => measured_expect 10) (by decide)).weaken
      (Nat.zero_le _) (by omega)
  · rw [if_neg isCr]
    by_cases isLf : byte = 10
    · rw [if_pos isLf]
      exact (measured_item.bind (fun _ => measured_pure ()) (by decide)).weaken
        (Nat.zero_le _) (by omega)
    · rw [if_neg isLf]
      exact law

theorem measured_getTokenToEol : Measured 0 1 getTokenToEol :=
  (measured_takeUntil _ _).bind
    (fun token => (measured_lineEnd (measured_reject 1) (by decide) (by decide)).bind
      (fun _ => measured_pure token) (by decide)) (by decide)

/-- The version looks at one byte beyond the eight it reads. -/
theorem measured_parseHttpVersion : Measured 1 8 parseHttpVersion := by
  have digit : ∀ minor : UInt8, Measured 0 0
      (if isDigit minor then pure (minor.toNat - 48) else reject : Reader UInt8 Nat) := by
    intro minor
    by_cases isDecimal : isDigit minor = true
    · rw [if_pos isDecimal]
      exact measured_pure _
    · rw [if_neg isDecimal]
      exact measured_reject 0
  have literal := (measured_expectAll ([72, 84, 84, 80, 47, 49, 46] : Bytes)).bind
    (fun _ => measured_item.bind digit (by decide)) (by decide)
  exact measured_atLeast 9 (literal.weaken (Nat.zero_le 1) (by decide)) (by decide)

theorem measured_parseLineTail : Measured 0 9 parseLineTail :=
  measured_parseHttpVersion.bind
    (fun minor => (measured_lineEnd (measured_reject 1) (by decide) (by decide)).bind
      (fun _ => measured_pure minor) (by decide)) (by decide)

theorem measured_parseHeaderName : Measured 1 1 parseHeaderName := by
  have colon : ∀ name : Bytes, Measured 1 1
      (if name = [] then reject else do
        let _ ← item
        let _ ← takeUntil (fun byte => !isBlank byte) (fun _ => false)
        pure name : Reader UInt8 Bytes) := by
    intro name
    by_cases empty : name = []
    · rw [if_pos empty]
      exact (measured_reject 1).weaken (Nat.zero_le 1) (Nat.le_refl 1)
    · rw [if_neg empty]
      have blanks := (measured_takeUntil (fun byte => !isBlank byte) fun _ => false).bind
        (fun _ => (measured_pure name).weaken (Nat.zero_le 1) (Nat.le_refl 0)) (by decide)
      exact measured_item.bind (fun _ => blanks) (by decide)
  exact ((measured_takeUntil _ _).bind colon (by decide)).weaken (Nat.le_refl 1) (by decide)

theorem measured_parseHeaderValue (name : Bytes) : Measured 0 1 (parseHeaderValue name) :=
  measured_getTokenToEol.bind (fun _ => measured_pure _) (by decide)

theorem measured_parseHeader (isFirst : Bool) : Measured 0 1 (parseHeader isFirst) := by
  apply measured_byHead _ (by decide)
  intro byte
  by_cases continued : (!isFirst && isBlank byte) = true
  · rw [if_pos continued]
    exact measured_parseHeaderValue []
  · rw [if_neg continued]
    exact (measured_parseHeaderName.bind measured_parseHeaderValue (by decide)).weaken
      (Nat.le_refl _) (by decide)

theorem measured_endOfBlockOr {line : Reader UInt8 (List PhrHeader)}
    (law : Measured 0 1 line) : Measured 0 1 (endOfBlockOr line) := by
  apply measured_byHead _ (by decide)
  intro byte
  by_cases isCr : byte = 13
  · rw [if_pos isCr]
    exact (measured_item.bind (fun _ => (measured_expect 10).bind
      (fun _ => measured_pure []) (by decide)) (by decide)).weaken (Nat.le_refl _) (by decide)
  · rw [if_neg isCr]
    by_cases isLf : byte = 10
    · rw [if_pos isLf]
      exact measured_item.bind (fun _ => measured_pure []) (by decide)
    · rw [if_neg isLf]
      exact law

/-- The header loop, by induction on the free slots: each iteration is the
reader of one line followed by the loop with one slot less. -/
theorem measured_parseHeaders (slots : Nat) :
    ∀ isFirst, Measured 0 1 (parseHeaders slots isFirst) := by
  induction slots with
  | zero =>
      intro isFirst
      exact measured_endOfBlockOr (measured_reject 1)
  | succ slots inductionHypothesis =>
      intro isFirst
      refine measured_endOfBlockOr (Measured.weaken ((measured_parseHeader isFirst).bind
        (fun header => (inductionHypothesis false).bind (fun headers => measured_pure _)
          (by decide)) (by decide)) (Nat.le_refl _) (by decide))

theorem measured_parseRequestLine : Measured 0 1 parseRequestLine := by
  have skip : Measured 1 0 skipEmptyLine :=
    measured_lineEnd ((measured_pure ()).weaken (Nat.zero_le 1) (Nat.le_refl 0))
      (by decide) (by decide)
  have tail : ∀ method path : Bytes, Measured 0 1
      (if method = [] ∨ path = [] then reject else do
        let minorVersion ← parseLineTail
        pure (method, path, minorVersion) : Reader UInt8 (Bytes × Bytes × Nat)) := by
    intro method path
    by_cases empty : method = [] ∨ path = []
    · rw [if_pos empty]
      exact measured_reject 1
    · rw [if_neg empty]
      exact (measured_parseLineTail.bind (fun _ => measured_pure _) (by decide)).weaken
        (Nat.le_refl 0) (by decide)
  have target : ∀ method : Bytes, Measured 0 2 (do
      let path ← advanceToken
      let _ ← item
      if method = [] ∨ path = [] then reject else do
        let minorVersion ← parseLineTail
        pure (method, path, minorVersion) : Reader UInt8 (Bytes × Bytes × Nat)) := by
    intro method
    exact measured_advanceToken.bind (fun path => measured_item.bind
      (fun _ => tail method path) (by decide)) (by decide)
  exact (skip.bind (fun _ => measured_advanceToken.bind (fun method => measured_item.bind
    (fun _ => target method) (by decide)) (by decide)) (by decide)).weaken
      (Nat.le_refl 0) (by decide)

private theorem measured_headerPart (maxHeaders : Nat) (line : Bytes × Bytes × Nat) :
    Measured 0 1 (parseHeaders maxHeaders true >>= fun headers =>
      pure (RequestHead.mk line.1 line.2.1 line.2.2 headers)) :=
  (measured_parseHeaders maxHeaders true).bind (fun _ => measured_pure _) (by decide)

/-- Success and failure of the whole parser are final, and a success needs no
byte that it does not read. -/
theorem measured_parseRequest (maxHeaders : Nat) : Measured 0 1 (parseRequest maxHeaders) :=
  (measured_parseRequestLine.bind (measured_headerPart maxHeaders) (by decide)).weaken
    (Nat.le_refl 0) (by decide)

/-- A successful parse is a request line followed by headers. -/
theorem parseRequest_line {maxHeaders : Nat} {buf rest : Bytes} {head : RequestHead}
    (succeeds : parseRequest maxHeaders buf = .done head rest) :
    ∃ middle, parseRequestLine buf = .done (head.method, head.path, head.minorVersion) middle ∧
      rest.length + 1 ≤ middle.length := by
  obtain ⟨line, middle, lineDone, headersDone⟩ := bind_done succeeds
  have read := (measured_headerPart maxHeaders line).consumes headersDone
  obtain ⟨headers, remaining, _, finished⟩ := bind_done headersDone
  cases finished
  exact ⟨middle, lineDone, read⟩

/-- Two blocks that differ only from a byte on that is still needed have the
same request line. -/
theorem same_line_of_extensions {maxHeaders : Nat} {front back rest : Bytes} {last : UInt8}
    {left right : RequestHead}
    (one : parseRequest maxHeaders (front ++ [last]) = .done left [])
    (other : parseRequest maxHeaders (front ++ back) = .done right rest) :
    left.method = right.method ∧ left.path = right.path := by
  obtain ⟨middle, lineDone, read⟩ := parseRequest_line one
  have early := measured_parseRequestLine.lookahead lineDone (by omega)
  have late := measured_parseRequestLine.done_append back early
  obtain ⟨otherMiddle, otherDone, _⟩ := parseRequest_line other
  rw [late] at otherDone
  injection otherDone with sameLine _
  injection sameLine with sameMethod sameRest
  injection sameRest with samePath _
  exact ⟨sameMethod, samePath⟩

/-! ## Verdicts of `phr_parse_request` -/

/-- `phr_parse_request` accepts `block` as a whole: it returns its length. -/
def AcceptsBlock (maxHeaders : Nat) (block : Bytes) (head : RequestHead) : Prop :=
  phrParseRequest maxHeaders block = ((block.length : Int), some head)

theorem phrParseRequest_of_done {maxHeaders : Nat} {buf rest : Bytes} {head : RequestHead}
    (succeeds : parseRequest maxHeaders buf = .done head rest) :
    phrParseRequest maxHeaders buf =
      (toInt32 (buf.length - rest.length), some head) := by
  rw [phrParseRequest, succeeds]

/-- The out parameters are those of a success. -/
theorem phrParseRequest_some {maxHeaders : Nat} {buf : Bytes} {result : Int}
    {head : RequestHead} (parsed : phrParseRequest maxHeaders buf = (result, some head)) :
    ∃ rest, parseRequest maxHeaders buf = .done head rest ∧
      result = toInt32 (buf.length - rest.length) := by
  unfold phrParseRequest at parsed
  split at parsed
  next found rest succeeds =>
    cases parsed
    exact ⟨rest, succeeds, rfl⟩
  next => cases parsed
  next => cases parsed

/-- Acceptance of a whole block reads every byte of it, and the length fits the
`int` that is returned. -/
theorem AcceptsBlock.done {maxHeaders : Nat} {block : Bytes} {head : RequestHead}
    (accepted : AcceptsBlock maxHeaders block head) :
    parseRequest maxHeaders block = .done head [] ∧
      0 < block.length ∧ block.length < 2147483648 := by
  unfold AcceptsBlock phrParseRequest at accepted
  cases verdict : parseRequest maxHeaders block with
  | done found rest =>
      rw [verdict] at accepted
      obtain ⟨lengths, sameHead⟩ := Prod.mk.inj accepted
      have upper := (toInt32_bounds (block.length - rest.length)).2
      have read := (measured_parseRequest maxHeaders).consumes verdict
      have small : block.length < 2147483648 := by omega
      rw [toInt32_of_small (by omega) (by omega)] at lengths
      have restNil : rest = [] := List.eq_nil_of_length_eq_zero (by omega)
      cases sameHead
      rw [restNil]
      exact ⟨rfl, by omega, small⟩
  | fail => rw [verdict] at accepted; cases accepted
  | incomplete => rw [verdict] at accepted; cases accepted

/-- Bytes behind an accepted block do not change the answer. -/
theorem AcceptsBlock.append {maxHeaders : Nat} {block : Bytes} {head : RequestHead}
    (accepted : AcceptsBlock maxHeaders block head) (more : Bytes) :
    phrParseRequest maxHeaders (block ++ more) = ((block.length : Int), some head) := by
  obtain ⟨verdict, _, small⟩ := accepted.done
  have extended := (measured_parseRequest maxHeaders).done_append more verdict
  have read : ((block ++ more).length : Int) - ([] ++ more : Bytes).length = block.length := by
    simp only [List.length_append, List.nil_append]
    omega
  rw [phrParseRequest_of_done extended, read, toInt32_of_small (by omega) (by omega)]

/-- Before the end of an accepted block the parser asks for more. -/
theorem AcceptsBlock.incomplete_of_prefix {maxHeaders : Nat} {front back : Bytes}
    {head : RequestHead} (accepted : AcceptsBlock maxHeaders (front ++ back) head)
    (proper : back ≠ []) : parseRequest maxHeaders front = .incomplete :=
  (measured_parseRequest maxHeaders).incomplete_of_append accepted.done.1 proper

end Onyxup.Http.Parser
