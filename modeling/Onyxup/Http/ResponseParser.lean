import Onyxup.Http.Grammar

/-!
Contract: the response half of the vendored `picohttpparser`.

Owns: `phr_parse_response` with `last_len = 0`, the laws of its verdicts, and the
response blocks it accepts as a grammar.

Does not own: who writes responses. The server never reads one; a client that is
built on the same library does.

The headers of a response are read by the same loop as those of a request.
-/

set_option autoImplicit false

namespace Onyxup.Http.Parser

open Onyxup.Lib.CString
open Onyxup.Lib.Memory
open Onyxup.Lib.Incremental
open Onyxup.Lib.Incremental.Reader

/-- The out parameters of a successful `phr_parse_response`. -/
structure ResponseHead where
  minorVersion : Nat
  status : Nat
  msg : Bytes
  headers : List PhrHeader
deriving DecidableEq, Repr

/-- `PARSE_INT`. -/
def parseInt (mul : Nat) : Reader UInt8 Nat := do
  let digit ← item
  if isDigit digit then pure (mul * (digit.toNat - 48)) else reject

/-- `PARSE_INT_3`, behind the test that one byte more is there. -/
def parseStatus : Reader UInt8 Nat :=
  atLeast 4 do
    let hundreds ← parseInt 100
    let tens ← parseInt 10
    let units ← parseInt 1
    pure (hundreds + tens + units)

/-- The part of `parse_response` before the headers. The two spaces are read
without a test for the end of the buffer: the readers in front of them have seen
the byte. -/
def parseStatusLine : Reader UInt8 (Nat × Nat × Bytes) := do
  let minorVersion ← parseHttpVersion
  expect 32
  let status ← parseStatus
  expect 32
  let msg ← getTokenToEol
  pure (minorVersion, status, msg)

/-- `parse_response`. -/
def parseResponse (maxHeaders : Nat) : Reader UInt8 ResponseHead := do
  let (minorVersion, status, msg) ← parseStatusLine
  let headers ← parseHeaders maxHeaders true
  pure ⟨minorVersion, status, msg, headers⟩

/-- `phr_parse_response(buf, len, ..., last_len = 0)`: the returned `int` and,
when it is positive, the out parameters. -/
def phrParseResponse (maxHeaders : Nat) (buf : Bytes) : Int × Option ResponseHead :=
  match parseResponse maxHeaders buf with
  | .done head rest => (toInt32 (buf.length - rest.length), some head)
  | .fail => (-1, none)
  | .incomplete => (-2, none)

/-! ## Verdicts -/

theorem measured_parseInt (mul : Nat) : Measured 0 1 (parseInt mul) := by
  have scaled : ∀ digit : UInt8, Measured 0 0
      (if isDigit digit then pure (mul * (digit.toNat - 48)) else reject : Reader UInt8 Nat) := by
    intro digit
    by_cases isDecimal : isDigit digit = true
    · rw [if_pos isDecimal]
      exact measured_pure _
    · rw [if_neg isDecimal]
      exact measured_reject 0
  exact measured_item.bind scaled (by decide)

/-- The status looks at one byte beyond the three it reads. -/
theorem measured_parseStatus : Measured 1 3 parseStatus := by
  have digits : Measured 0 3 (do
      let hundreds ← parseInt 100
      let tens ← parseInt 10
      let units ← parseInt 1
      pure (hundreds + tens + units) : Reader UInt8 Nat) :=
    (measured_parseInt 100).bind (fun _ => (measured_parseInt 10).bind
      (fun _ => (measured_parseInt 1).bind (fun _ => measured_pure _) (by decide)) (by decide))
      (by decide)
  exact measured_atLeast 4 (digits.weaken (Nat.zero_le 1) (Nat.le_refl 3)) (by decide)

theorem measured_parseStatusLine : Measured 0 1 parseStatusLine :=
  (measured_parseHttpVersion.bind (fun _ => (measured_expect 32).bind
    (fun _ => measured_parseStatus.bind (fun _ => (measured_expect 32).bind
      (fun _ => measured_getTokenToEol.bind (fun _ => measured_pure _) (by decide)) (by decide))
      (by decide)) (by decide)) (by decide)).weaken (Nat.le_refl 0) (by decide)

/-- Success and failure are final, and a success needs no byte that it does not
read. -/
theorem measured_parseResponse (maxHeaders : Nat) : Measured 0 1 (parseResponse maxHeaders) :=
  (measured_parseStatusLine.bind (fun _ => (measured_parseHeaders maxHeaders true).bind
    (fun _ => measured_pure _) (by decide)) (by decide)).weaken (Nat.le_refl 0) (by decide)

/-! ## The grammar -/

/-- The status line, with a code of three digits. -/
inductive StatusLine : Nat × Nat × Bytes → Bytes → Prop where
  | intro {minor : UInt8} {digits msg eol : Bytes} (isMinor : isDigit minor = true)
      (isCode : Decimal digits) (three : digits.length = 3) (isText : LineText msg)
      (ends : LineBreak eol) :
      StatusLine (minor.toNat - 48, digitsValue digits, msg)
        (ascii "HTTP/1." ++ [minor] ++ [32] ++ digits ++ [32] ++ msg ++ eol)

/-- A response up to its body. -/
inductive ResponseBlock : ResponseHead → Bytes → Prop where
  | intro {minorVersion status : Nat} {msg : Bytes} {headers : List PhrHeader}
      {line block : Bytes} (isLine : StatusLine (minorVersion, status, msg) line)
      (isBlock : HeaderBlock true headers block) :
      ResponseBlock ⟨minorVersion, status, msg, headers⟩ (line ++ block)

theorem reads_parseInt (mul : Nat) :
    Reads (parseInt mul) fun value read _ =>
      ∃ digit, isDigit digit = true ∧ value = mul * (digit.toNat - 48) ∧ read = [digit] := by
  refine (reads_item.bind fun digit => reads_ite (isDigit digit = true)
    (reads_pure (mul * (digit.toNat - 48))) reads_reject).congr ?_
  intro value read rest
  constructor
  · rintro ⟨digit, _, _, rfl, rfl, ⟨isDecimal, rfl, rfl⟩ | ⟨_, impossible⟩⟩
    · exact ⟨digit, isDecimal, rfl, rfl⟩
    · exact impossible.elim
  · rintro ⟨digit, isDecimal, rfl, rfl⟩
    exact ⟨digit, [digit], [], rfl, rfl, .inl ⟨isDecimal, rfl, rfl⟩⟩

theorem reads_parseStatus :
    Reads parseStatus fun status read rest =>
      rest ≠ [] ∧ Decimal read ∧ read.length = 3 ∧ status = digitsValue read := by
  refine (reads_atLeast 4 ((reads_parseInt 100).bind fun hundreds => (reads_parseInt 10).bind
    fun tens => (reads_parseInt 1).bind_pure fun units => hundreds + tens + units)).congr ?_
  intro status read rest
  constructor
  · rintro ⟨enough, _, _, _, rfl, ⟨first, isFirst, rfl, rfl⟩, _, _, _, rfl,
      ⟨second, isSecond, rfl, rfl⟩, _, rfl, third, isThird, rfl, rfl⟩
    refine ⟨?_, ⟨List.cons_ne_nil _ _, ?_⟩, rfl, ?_⟩
    · rintro rfl
      exact absurd enough (by simp)
    · intro byte member
      simp only [List.mem_append, List.mem_singleton] at member
      rcases member with rfl | rfl | rfl
      · exact isFirst
      · exact isSecond
      · exact isThird
    · simp only [digitsValue, List.singleton_append, List.foldl_cons, List.foldl_nil]
      omega
  · rintro ⟨more, ⟨_, isCode⟩, three, rfl⟩
    obtain ⟨first, second, third, rfl⟩ := List.length_eq_three.mp three
    have positive := List.length_pos_iff.mpr more
    refine ⟨by rw [List.length_append, three]; omega, _, [first], [second, third], rfl,
      ⟨first, isCode first (by simp), rfl, rfl⟩, _, [second], [third], rfl,
      ⟨second, isCode second (by simp), rfl, rfl⟩, _, ?_, third, isCode third (by simp), rfl, rfl⟩
    simp only [digitsValue, List.foldl_cons, List.foldl_nil]
    omega

theorem reads_parseStatusLine :
    Reads parseStatusLine fun line read _ => StatusLine line read := by
  refine (reads_parseHttpVersion.bind fun minorVersion => (reads_expect 32).bind fun _ =>
    reads_parseStatus.bind fun status => (reads_expect 32).bind fun _ =>
      reads_getTokenToEol.bind_pure fun msg => (minorVersion, status, msg)).congr ?_
  intro line read rest
  constructor
  · rintro ⟨_, _, _, rfl, ⟨_, minor, isMinor, rfl, rfl⟩, _, _, _, rfl, rfl, _, digits, _, rfl,
      ⟨_, isCode, three, rfl⟩, _, _, _, rfl, rfl, msg, rfl, isText, eol, ends, rfl⟩
    have isLine := StatusLine.intro isMinor isCode three isText ends
    simpa only [List.append_assoc] using isLine
  · rintro ⟨isMinor, isCode, three, isText, ends⟩
    rename_i minor digits msg eol
    refine ⟨_, ascii "HTTP/1." ++ [minor], [32] ++ (digits ++ ([32] ++ (msg ++ eol))),
      by simp only [List.append_assoc], ⟨by simp, minor, isMinor, rfl, rfl⟩, (), [32], _, rfl, rfl,
      _, digits, _, rfl, ⟨by simp, isCode, three, rfl⟩, (), [32], _, rfl, rfl, msg, rfl, isText,
      eol, ends, rfl⟩

theorem reads_parseResponse (maxHeaders : Nat) :
    Reads (parseResponse maxHeaders) fun head read _ =>
      ResponseBlock head read ∧ head.headers.length ≤ maxHeaders := by
  have headers := fun line : Nat × Nat × Bytes =>
    (reads_parseHeaders maxHeaders true).bind_pure fun headers =>
      ResponseHead.mk line.1 line.2.1 line.2.2 headers
  refine (reads_parseStatusLine.bind headers).congr ?_
  intro head read rest
  constructor
  · rintro ⟨⟨minorVersion, status, msg⟩, line, block, rfl, isLine, headers, rfl, isBlock, few⟩
    exact ⟨.intro isLine isBlock, few⟩
  · rintro ⟨⟨isLine, isBlock⟩, few⟩
    exact ⟨_, _, _, rfl, isLine, _, rfl, isBlock, few⟩

/-- A block that the parser accepts, with anything behind it. -/
theorem phrParseResponse_of_block {maxHeaders : Nat} {head : ResponseHead} {block : Bytes}
    (isBlock : ResponseBlock head block) (few : head.headers.length ≤ maxHeaders)
    (rest : Bytes) :
    phrParseResponse maxHeaders (block ++ rest) = (toInt32 block.length, some head) := by
  have succeeds : parseResponse maxHeaders (block ++ rest) = .done head rest :=
    (reads_parseResponse maxHeaders _ _ _).mpr ⟨block, rfl, isBlock, few⟩
  rw [phrParseResponse, succeeds]
  simp only [length_read]

end Onyxup.Http.Parser
