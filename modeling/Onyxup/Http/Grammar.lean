import Onyxup.Http.Parser
import Onyxup.Lib.Grammar

/-!
Contract: the language of the request parser.

Owns: the request blocks that `phr_parse_request` accepts, as a grammar with the
out parameters each block stands for, and the theorem that the parser accepts
these and no others.

Does not own: what the server makes of a block.

A line may end in CR LF or in a bare LF. A header line that starts with a blank
continues the header before it and has no name.
-/

set_option autoImplicit false

namespace Onyxup.Http.Parser

open Onyxup.Lib.CString
open Onyxup.Lib.Memory
open Onyxup.Lib.Incremental
open Onyxup.Lib.Incremental.Reader

/-- CR LF, or a bare LF. -/
def LineBreak (text : Bytes) : Prop :=
  text = [13, 10] ∨ text = [10]

/-- A token of the request line. -/
def RequestToken (token : Bytes) : Prop :=
  token ≠ [] ∧ ∀ byte ∈ token, byte ≠ 32 ∧ isTokenControl byte = false

/-- The text of a header line: everything but control characters; a tab is none. -/
def LineText (text : Bytes) : Prop :=
  ∀ byte ∈ text, isLineControl byte = false

/-- One line of the header block. -/
inductive HeaderLine : (isFirst : Bool) → PhrHeader → Bytes → Prop where
  | named {isFirst : Bool} {name blanks text eol : Bytes} (nonempty : name ≠ [])
      (isToken : ∀ byte ∈ name, isTokenChar byte = true)
      (isBlanks : ∀ byte ∈ blanks, isBlank byte = true)
      (starts : ∀ byte ∈ text.head?, isBlank byte = false) (isText : LineText text)
      (ends : LineBreak eol) :
      HeaderLine isFirst ⟨name, trimTrailing text⟩ (name ++ [58] ++ blanks ++ text ++ eol)
  | folded {blank : UInt8} {text eol : Bytes} (starts : isBlank blank = true)
      (isText : LineText text) (ends : LineBreak eol) :
      HeaderLine false ⟨[], trimTrailing (blank :: text)⟩ (blank :: text ++ eol)

/-- The header lines and the empty line behind them. -/
inductive HeaderBlock : (isFirst : Bool) → List PhrHeader → Bytes → Prop where
  | empty {isFirst : Bool} {eol : Bytes} (ends : LineBreak eol) : HeaderBlock isFirst [] eol
  | line {isFirst : Bool} {header : PhrHeader} {headers : List PhrHeader} {text block : Bytes}
      (first : HeaderLine isFirst header text) (others : HeaderBlock false headers block) :
      HeaderBlock isFirst (header :: headers) (text ++ block)

/-- The request line, in front of which one line may be empty. -/
inductive RequestLine : Bytes × Bytes × Nat → Bytes → Prop where
  | intro {blank method path eol : Bytes} {digit : UInt8} (skipped : blank = [] ∨ LineBreak blank)
      (isMethod : RequestToken method) (isPath : RequestToken path)
      (isMinor : isDigit digit = true) (ends : LineBreak eol) :
      RequestLine (method, path, digit.toNat - 48)
        (blank ++ method ++ [32] ++ path ++ [32] ++ ascii "HTTP/1." ++ [digit] ++ eol)

/-- A request up to its body. -/
inductive RequestBlock : RequestHead → Bytes → Prop where
  | intro {method path : Bytes} {minorVersion : Nat} {headers : List PhrHeader}
      {line block : Bytes} (isLine : RequestLine (method, path, minorVersion) line)
      (isBlock : HeaderBlock true headers block) :
      RequestBlock ⟨method, path, minorVersion, headers⟩ (line ++ block)

/-! ## Lines -/

theorem LineBreak.starts {eol : Bytes} (ends : LineBreak eol) (rest : Bytes) :
    ∃ head tail, eol ++ rest = head :: tail ∧ isLineControl head = true ∧
      isBlank head = false := by
  rcases ends with rfl | rfl
  · exact ⟨13, 10 :: rest, rfl, by decide, by decide⟩
  · exact ⟨10, rest, rfl, by decide, by decide⟩

/-- A line end, or what stands in its place. -/
theorem reads_lineEnd {otherwise : Reader UInt8 Unit} {language : Language UInt8 Unit}
    (reads : Reads otherwise language) :
    Reads (lineEnd otherwise) fun value read rest =>
      LineBreak read ∨ ∃ head tail, read ++ rest = head :: tail ∧ head ≠ 13 ∧ head ≠ 10 ∧
        language value read rest := by
  have crlf : Reads (do let _ ← item; expect 10 : Reader UInt8 Unit) fun _ read _ =>
      ∃ first : UInt8, read = [first, 10] := by
    refine (reads_item.bind fun _ => reads_expect 10).congr ?_
    intro value read rest
    constructor
    · rintro ⟨first, _, _, rfl, rfl, rfl⟩
      exact ⟨first, rfl⟩
    · rintro ⟨first, rfl⟩
      exact ⟨first, [first], [10], rfl, rfl, rfl⟩
  have lf : Reads (do let _ ← item; pure () : Reader UInt8 Unit) fun _ read _ =>
      ∃ first : UInt8, read = [first] := by
    refine (reads_item.bind_pure fun _ => ()).congr ?_
    intro value read rest
    exact exists_congr fun first => and_iff_right rfl
  refine (reads_byHead fun byte =>
    reads_ite (byte = 13) crlf (reads_ite (byte = 10) lf reads)).congr ?_
  intro value read rest
  constructor
  · rintro ⟨head, tail, split, ⟨rfl, first, rfl⟩ | ⟨notCr, ⟨rfl, first, rfl⟩ | ⟨notLf, word⟩⟩⟩
    · cases split
      exact .inl (.inl rfl)
    · cases split
      exact .inl (.inr rfl)
    · exact .inr ⟨head, tail, split, notCr, notLf, word⟩
  · rintro ((rfl | rfl) | ⟨head, tail, split, notCr, notLf, word⟩)
    · exact ⟨13, 10 :: rest, rfl, .inl ⟨rfl, 13, rfl⟩⟩
    · exact ⟨10, rest, rfl, .inr ⟨by decide, .inl ⟨rfl, 10, rfl⟩⟩⟩
    · exact ⟨head, tail, split, .inr ⟨notCr, .inr ⟨notLf, word⟩⟩⟩

/-- A line end that must be there. -/
theorem reads_lineBreak : Reads (lineEnd reject) fun _ read _ => LineBreak read := by
  refine (reads_lineEnd reads_reject).congr ?_
  intro value read rest
  simp

theorem reads_getTokenToEol :
    Reads getTokenToEol fun token read _ =>
      LineText token ∧ ∃ eol, LineBreak eol ∧ read = token ++ eol := by
  refine ((reads_takeUntil isLineControl fun _ => false).bind fun token =>
    reads_lineBreak.bind_pure fun _ => token).congr ?_
  intro token read rest
  constructor
  · rintro ⟨_, _, eol, rfl, ⟨rfl, clean, _⟩, _, rfl, ends⟩
    exact ⟨fun byte member => (clean byte member).1, eol, ends, rfl⟩
  · rintro ⟨isText, eol, ends, rfl⟩
    obtain ⟨head, tail, split, stops, _⟩ := ends.starts rest
    exact ⟨token, token, eol, rfl,
      ⟨rfl, fun byte member => ⟨isText byte member, rfl⟩, head, tail, split, stops⟩, (), rfl, ends⟩

/-! ## Headers -/

theorem reads_parseHeaderName :
    Reads parseHeaderName fun name read rest =>
      name ≠ [] ∧ (∀ byte ∈ name, isTokenChar byte = true) ∧
        (∃ blanks, (∀ byte ∈ blanks, isBlank byte = true) ∧ read = name ++ [58] ++ blanks) ∧
        ∃ head tail, rest = head :: tail ∧ isBlank head = false := by
  have blanksBehind : ∀ name : Bytes, Reads (do
      let _ ← item
      let _ ← takeUntil (fun byte => !isBlank byte) (fun _ => false)
      pure name : Reader UInt8 Bytes)
      fun value read rest =>
        value = name ∧ ∃ (first : UInt8) (blanks : Bytes), read = first :: blanks ∧
          (∀ byte ∈ blanks, isBlank byte = true) ∧
          ∃ head tail, rest = head :: tail ∧ isBlank head = false := by
    intro name
    refine (reads_item.bind fun _ =>
      (reads_takeUntil (fun byte => !isBlank byte) fun _ => false).bind_pure
        fun _ => name).congr ?_
    intro value read rest
    constructor
    · rintro ⟨first, _, blanks, rfl, rfl, _, rfl, rfl, clean, head, tail, split, stops⟩
      refine ⟨rfl, first, blanks, rfl, ?_, head, tail, split, by simpa using stops⟩
      intro byte member
      simpa using (clean byte member).1
    · rintro ⟨rfl, first, blanks, rfl, isBlanks, head, tail, split, stops⟩
      refine ⟨first, [first], blanks, rfl, rfl, blanks, rfl, rfl, ?_, head, tail, split,
        by simpa using stops⟩
      intro byte member
      exact ⟨by simpa using isBlanks byte member, rfl⟩
  have colon := fun name : Bytes => reads_ite (name = []) reads_reject (blanksBehind name)
  refine ((reads_takeUntil (· == 58) fun byte => !isTokenChar byte).bind colon).congr ?_
  intro name read rest
  constructor
  · rintro ⟨_, _, _, rfl, ⟨rfl, clean, _, _, split, stops⟩, ⟨_, impossible⟩ | ⟨nonempty, rfl,
      first, blanks, rfl, isBlanks, follows⟩⟩
    · exact impossible.elim
    obtain ⟨rfl, _⟩ := List.cons.inj split
    have isColon : first = 58 := by simpa using stops
    refine ⟨nonempty, ?_, ⟨blanks, isBlanks, by simp [isColon]⟩, follows⟩
    intro byte member
    simpa using (clean byte member).2
  · rintro ⟨nonempty, isToken, ⟨blanks, isBlanks, rfl⟩, follows⟩
    refine ⟨name, name, 58 :: blanks, by simp, ⟨rfl, ?_, 58, _, rfl, rfl⟩,
      .inr ⟨nonempty, rfl, 58, blanks, rfl, isBlanks, follows⟩⟩
    intro byte member
    have tokenChar := isToken byte member
    have notColon : byte ≠ 58 := by
      rintro rfl
      revert tokenChar
      decide
    exact ⟨by simpa using notColon, by simp [tokenChar]⟩

theorem reads_parseHeaderValue (name : Bytes) :
    Reads (parseHeaderValue name) fun header read _ =>
      ∃ text eol, header = ⟨name, trimTrailing text⟩ ∧ LineText text ∧ LineBreak eol ∧
        read = text ++ eol := by
  refine (reads_getTokenToEol.bind_pure fun value => PhrHeader.mk name (trimTrailing value)).congr
    ?_
  intro header read rest
  constructor
  · rintro ⟨text, rfl, isText, eol, ends, rfl⟩
    exact ⟨text, eol, rfl, isText, ends, rfl⟩
  · rintro ⟨text, eol, rfl, isText, ends, rfl⟩
    exact ⟨text, rfl, isText, eol, ends, rfl⟩

private theorem tokenChar_cases {byte : UInt8} (tokenChar : isTokenChar byte = true) :
    isBlank byte = false ∧ byte ≠ 13 ∧ byte ≠ 10 := by
  refine ⟨?_, ?_, ?_⟩
  · rw [Bool.eq_false_iff]
    intro blank
    rw [isBlank, Bool.or_eq_true, beq_iff_eq, beq_iff_eq] at blank
    rcases blank with rfl | rfl <;> revert tokenChar <;> decide
  · rintro rfl
    revert tokenChar
    decide
  · rintro rfl
    revert tokenChar
    decide

/-- The first byte of a header line ends no block. -/
theorem HeaderLine.starts {isFirst : Bool} {header : PhrHeader} {text : Bytes}
    (line : HeaderLine isFirst header text) (rest : Bytes) :
    ∃ head tail, text ++ rest = head :: tail ∧ head ≠ 13 ∧ head ≠ 10 := by
  cases line with
  | @named _ name blanks text eol nonempty isToken =>
      obtain ⟨first, name, rfl⟩ := List.exists_cons_of_ne_nil nonempty
      have start := tokenChar_cases (isToken first List.mem_cons_self)
      exact ⟨first, _, rfl, start.2⟩
  | @folded blank text eol starts =>
      refine ⟨blank, _, rfl, ?_, ?_⟩
      · rintro rfl
        revert starts
        decide
      · rintro rfl
        revert starts
        decide

theorem reads_parseHeader (isFirst : Bool) :
    Reads (parseHeader isFirst) fun header read _ => HeaderLine isFirst header read := by
  refine (reads_byHead fun byte => reads_ite ((!isFirst && isBlank byte) = true)
    (reads_parseHeaderValue []) (reads_parseHeaderName.bind reads_parseHeaderValue)).congr ?_
  intro header read rest
  constructor
  · rintro ⟨head, tail, split, ⟨continues, text, eol, rfl, isText, ends, rfl⟩ |
      ⟨_, name, _, _, rfl, ⟨nonempty, isToken, ⟨blanks, isBlanks, rfl⟩, _, _, follows, stops⟩,
        text, eol, rfl, isText, ends, rfl⟩⟩
    · rw [Bool.and_eq_true, Bool.not_eq_true'] at continues
      obtain ⟨rfl, blank⟩ := continues
      cases text with
      | nil =>
          obtain ⟨_, _, again, _, notBlank⟩ := ends.starts rest
          rw [List.nil_append, again] at split
          obtain ⟨rfl, _⟩ := List.cons.inj split
          rw [blank] at notBlank
          cases notBlank
      | cons first text =>
          obtain ⟨rfl, _⟩ := List.cons.inj split
          exact .folded blank (fun byte member => isText byte (List.mem_cons_of_mem _ member)) ends
    · have line : HeaderLine isFirst ⟨name, trimTrailing text⟩ _ :=
        .named nonempty isToken isBlanks ?_ isText ends
      · simpa only [List.append_assoc] using line
      · intro byte member
        cases text with
        | nil => cases member
        | cons first text =>
            obtain ⟨rfl, _⟩ := List.cons.inj follows
            cases member
            exact stops
  · intro line
    cases line with
    | @named _ name blanks text eol nonempty isToken isBlanks starts isText ends =>
        obtain ⟨first, others, rfl⟩ := List.exists_cons_of_ne_nil nonempty
        have notBlank := (tokenChar_cases (isToken first List.mem_cons_self)).1
        refine ⟨first, _, rfl, .inr ⟨by simp [notBlank], first :: others,
          (first :: others) ++ [58] ++ blanks, text ++ eol, by simp only [List.append_assoc],
          ⟨nonempty, isToken, ⟨blanks, isBlanks, rfl⟩, ?_⟩, text, eol, rfl, isText, ends, rfl⟩⟩
        cases text with
        | nil =>
            obtain ⟨head, tail, split, _, stops⟩ := ends.starts rest
            exact ⟨head, tail, split, stops⟩
        | cons head text => exact ⟨head, text ++ eol ++ rest, rfl, starts head rfl⟩
    | @folded blank text eol starts isText ends =>
        refine ⟨blank, _, rfl, .inl ⟨by simp [starts], blank :: text, eol, rfl, ?_, ends, rfl⟩⟩
        intro byte member
        rcases List.mem_cons.mp member with rfl | member
        · rw [isBlank, Bool.or_eq_true, beq_iff_eq, beq_iff_eq] at starts
          rcases starts with rfl | rfl <;> rfl
        · exact isText byte member

/-- The end of the block, or what the loop does with one more line. -/
theorem reads_endOfBlockOr {line : Reader UInt8 (List PhrHeader)}
    {language : Language UInt8 (List PhrHeader)} (reads : Reads line language) :
    Reads (endOfBlockOr line) fun headers read rest =>
      (headers = [] ∧ LineBreak read) ∨ ∃ head tail, read ++ rest = head :: tail ∧ head ≠ 13 ∧
        head ≠ 10 ∧ language headers read rest := by
  have crlf : Reads (do let _ ← item; expect 10; pure [] : Reader UInt8 (List PhrHeader))
      fun headers read _ => headers = [] ∧ ∃ first : UInt8, read = [first, 10] := by
    refine (reads_item.bind fun _ => (reads_expect 10).bind_pure fun _ => []).congr ?_
    intro headers read rest
    constructor
    · rintro ⟨first, _, _, rfl, rfl, _, rfl, rfl⟩
      exact ⟨rfl, first, rfl⟩
    · rintro ⟨rfl, first, rfl⟩
      exact ⟨first, [first], [10], rfl, rfl, (), rfl, rfl⟩
  have lf : Reads (do let _ ← item; pure [] : Reader UInt8 (List PhrHeader))
      fun headers read _ => headers = [] ∧ ∃ first : UInt8, read = [first] := by
    refine (reads_item.bind_pure fun _ => []).congr ?_
    intro headers read rest
    exact exists_and_left
  refine (reads_byHead fun byte =>
    reads_ite (byte = 13) crlf (reads_ite (byte = 10) lf reads)).congr ?_
  intro headers read rest
  constructor
  · rintro ⟨head, tail, split, ⟨rfl, rfl, first, rfl⟩ | ⟨notCr, ⟨rfl, rfl, first, rfl⟩ |
      ⟨notLf, word⟩⟩⟩
    · cases split
      exact .inl ⟨rfl, .inl rfl⟩
    · cases split
      exact .inl ⟨rfl, .inr rfl⟩
    · exact .inr ⟨head, tail, split, notCr, notLf, word⟩
  · rintro (⟨rfl, rfl | rfl⟩ | ⟨head, tail, split, notCr, notLf, word⟩)
    · exact ⟨13, 10 :: rest, rfl, .inl ⟨rfl, rfl, 13, rfl⟩⟩
    · exact ⟨10, rest, rfl, .inr ⟨by decide, .inl ⟨rfl, rfl, 10, rfl⟩⟩⟩
    · exact ⟨head, tail, split, .inr ⟨notCr, .inr ⟨notLf, word⟩⟩⟩

/-- The loop over the header lines, by induction on the free slots. -/
theorem reads_parseHeaders (slots : Nat) :
    ∀ isFirst, Reads (parseHeaders slots isFirst) fun headers read _ =>
      HeaderBlock isFirst headers read ∧ headers.length ≤ slots := by
  induction slots with
  | zero =>
      intro isFirst
      refine (reads_endOfBlockOr reads_reject).congr ?_
      intro headers read rest
      constructor
      · rintro (⟨rfl, ends⟩ | ⟨_, _, _, _, _, impossible⟩)
        · exact ⟨.empty ends, Nat.le_refl 0⟩
        · exact impossible.elim
      · rintro ⟨block, few⟩
        cases block with
        | empty ends => exact .inl ⟨rfl, ends⟩
        | line first others => exact absurd few (Nat.not_succ_le_zero _)
  | succ slots inductionHypothesis =>
      intro isFirst
      refine (reads_endOfBlockOr ((reads_parseHeader isFirst).bind fun header =>
        (inductionHypothesis false).bind_pure fun headers => header :: headers)).congr ?_
      intro headers read rest
      constructor
      · rintro (⟨rfl, ends⟩ | ⟨_, _, _, _, _, header, text, block, rfl, line, others, rfl,
          isBlock, few⟩)
        · exact ⟨.empty ends, Nat.zero_le _⟩
        · exact ⟨.line line isBlock, Nat.succ_le_succ few⟩
      · rintro ⟨block, few⟩
        cases block with
        | empty ends => exact .inl ⟨rfl, ends⟩
        | @line _ header others text block first isBlock =>
            obtain ⟨head, tail, split, notCr, notLf⟩ := first.starts (block ++ rest)
            rw [← List.append_assoc] at split
            exact .inr ⟨head, tail, split, notCr, notLf, header, text, block, rfl, first, others,
              rfl, isBlock, Nat.le_of_succ_le_succ few⟩

/-! ## The request line -/

/-- The version and one byte behind it. -/
theorem reads_parseHttpVersion :
    Reads parseHttpVersion fun minorVersion read rest =>
      rest ≠ [] ∧ ∃ digit, isDigit digit = true ∧ minorVersion = digit.toNat - 48 ∧
        read = ascii "HTTP/1." ++ [digit] := by
  have digits := fun digit : UInt8 => reads_ite (isDigit digit = true)
    (reads_pure (σ := UInt8) (digit.toNat - 48)) reads_reject
  refine (reads_atLeast 9 ((reads_expectAll [72, 84, 84, 80, 47, 49, 46]).bind fun _ =>
    reads_item.bind digits)).congr ?_
  intro minorVersion read rest
  constructor
  · rintro ⟨enough, _, _, _, rfl, rfl, digit, _, _, rfl, rfl, ⟨isMinor, rfl, rfl⟩ |
      ⟨_, impossible⟩⟩
    · refine ⟨?_, digit, isMinor, rfl, rfl⟩
      rintro rfl
      exact absurd enough (by simp)
    · exact impossible.elim
  · rintro ⟨more, digit, isMinor, rfl, rfl⟩
    have positive := List.length_pos_iff.mpr more
    refine ⟨?_, (), [72, 84, 84, 80, 47, 49, 46], [digit], rfl, rfl, digit, [digit], [], rfl, rfl,
      .inl ⟨isMinor, rfl, rfl⟩⟩
    have version : (ascii "HTTP/1.").length = 7 := rfl
    simp only [List.length_append, List.length_singleton, version]
    omega

theorem reads_parseLineTail :
    Reads parseLineTail fun minorVersion read _ =>
      ∃ digit eol, isDigit digit = true ∧ minorVersion = digit.toNat - 48 ∧ LineBreak eol ∧
        read = ascii "HTTP/1." ++ [digit] ++ eol := by
  refine (reads_parseHttpVersion.bind fun minorVersion =>
    reads_lineBreak.bind_pure fun _ => minorVersion).congr ?_
  intro minorVersion read rest
  constructor
  · rintro ⟨_, _, eol, rfl, ⟨_, digit, isMinor, rfl, rfl⟩, _, rfl, ends⟩
    exact ⟨digit, eol, isMinor, rfl, ends, rfl⟩
  · rintro ⟨digit, eol, isMinor, rfl, ends, rfl⟩
    obtain ⟨_, _, split, _⟩ := ends.starts rest
    exact ⟨_, _, eol, rfl,
      ⟨by rw [split]; exact List.cons_ne_nil _ _, digit, isMinor, rfl, rfl⟩, (), rfl, ends⟩

/-- A token of the request line, the space behind it and what follows. -/
theorem reads_token {α : Type} {next : Bytes → Reader UInt8 α}
    {language : Bytes → Language UInt8 α} (reads : ∀ token, Reads (next token) (language token)) :
    Reads (advanceToken >>= fun token => item >>= fun _ => next token) fun value read rest =>
      ∃ token back, (∀ byte ∈ token, byte ≠ 32 ∧ isTokenControl byte = false) ∧
        read = token ++ [32] ++ back ∧ language token value back rest := by
  refine ((reads_takeUntil (· == 32) isTokenControl).bind fun token =>
    reads_item.bind fun _ => reads token).congr ?_
  intro value read rest
  constructor
  · rintro ⟨token, _, _, rfl, ⟨rfl, clean, head, tail, split, stops⟩, first, _, back, rfl, rfl,
      word⟩
    obtain ⟨rfl, _⟩ := List.cons.inj split
    have space : first = 32 := by simpa using stops
    refine ⟨_, back, ?_, by simp [space], word⟩
    intro byte member
    exact ⟨by simpa using (clean byte member).1, (clean byte member).2⟩
  · rintro ⟨token, back, clean, rfl, word⟩
    refine ⟨token, token, 32 :: back, by simp, ⟨rfl, ?_, 32, back ++ rest, rfl, rfl⟩, 32, [32],
      back, rfl, rfl, word⟩
    intro byte member
    exact ⟨by simpa using (clean byte member).1, (clean byte member).2⟩

private theorem RequestToken.starts {token : Bytes} (isToken : RequestToken token) (rest : Bytes) :
    ∃ head tail, token ++ rest = head :: tail ∧ head ≠ 13 ∧ head ≠ 10 := by
  obtain ⟨head, others, rfl⟩ := List.exists_cons_of_ne_nil isToken.1
  have printable := (isToken.2 head List.mem_cons_self).2
  refine ⟨head, others ++ rest, rfl, ?_, ?_⟩
  · rintro rfl
    revert printable
    decide
  · rintro rfl
    revert printable
    decide

theorem reads_parseRequestLine :
    Reads parseRequestLine fun line read _ => RequestLine line read := by
  have tail := fun method path : Bytes => reads_ite (method = [] ∨ path = []) reads_reject
    (reads_parseLineTail.bind_pure fun minorVersion => (method, path, minorVersion))
  refine ((reads_lineEnd (reads_pure ())).bind fun _ => reads_token fun method =>
    reads_token fun path => tail method path).congr ?_
  intro line read rest
  constructor
  · rintro ⟨_, blank, _, rfl, skipped, method, _, isMethod, rfl, path, _, isPath, rfl,
      ⟨_, impossible⟩ | ⟨nonempty, minorVersion, rfl, digit, eol, isMinor, rfl, ends, rfl⟩⟩
    · exact impossible.elim
    rw [not_or] at nonempty
    have isBlank : blank = [] ∨ LineBreak blank := by
      rcases skipped with skipped | ⟨_, _, _, _, _, _, none⟩
      · exact .inr skipped
      · exact .inl none
    have isLine :=
      RequestLine.intro isBlank ⟨nonempty.1, isMethod⟩ ⟨nonempty.2, isPath⟩ isMinor ends
    simpa only [List.append_assoc] using isLine
  · rintro ⟨skipped, isMethod, isPath, isMinor, ends⟩
    rename_i blank method path eol digit
    refine ⟨(), blank, method ++ [32] ++ (path ++ [32] ++ (ascii "HTTP/1." ++ [digit] ++ eol)),
      by simp only [List.append_assoc], ?_, method, _, isMethod.2, rfl, path, _, isPath.2, rfl,
      .inr ⟨not_or.mpr ⟨isMethod.1, isPath.1⟩, _, rfl, digit, eol, isMinor, rfl, ends, rfl⟩⟩
    rcases skipped with rfl | skipped
    · obtain ⟨head, others, split, notCr, notLf⟩ := isMethod.starts
        ([32] ++ (path ++ [32] ++ (ascii "HTTP/1." ++ [digit] ++ eol)) ++ rest)
      refine .inr ⟨head, others, ?_, notCr, notLf, rfl, rfl⟩
      rw [← split]
      simp only [List.append_assoc, List.nil_append]
    · exact .inl skipped

/-! ## The request -/

theorem reads_parseRequest (maxHeaders : Nat) :
    Reads (parseRequest maxHeaders) fun head read _ =>
      RequestBlock head read ∧ head.headers.length ≤ maxHeaders := by
  have headers := fun line : Bytes × Bytes × Nat =>
    (reads_parseHeaders maxHeaders true).bind_pure fun headers =>
      RequestHead.mk line.1 line.2.1 line.2.2 headers
  refine (reads_parseRequestLine.bind headers).congr ?_
  intro head read rest
  constructor
  · rintro ⟨⟨method, path, minorVersion⟩, line, block, rfl, isLine, headers, rfl, isBlock, few⟩
    exact ⟨.intro isLine isBlock, few⟩
  · rintro ⟨⟨isLine, isBlock⟩, few⟩
    exact ⟨_, _, _, rfl, isLine, _, rfl, isBlock, few⟩

/-- What lies between the start of the buffer and the cursor. -/
theorem length_read (block rest : Bytes) :
    ((block ++ rest).length : Int) - rest.length = block.length := by
  rw [List.length_append]
  omega

/-- The parser accepts exactly its grammar, and returns the length of the block
it has read. -/
theorem phrParseRequest_accepts_grammar (maxHeaders : Nat) (buf : Bytes) (result : Int)
    (head : RequestHead) :
    phrParseRequest maxHeaders buf = (result, some head) ↔
      ∃ block rest, buf = block ++ rest ∧ RequestBlock head block ∧
        head.headers.length ≤ maxHeaders ∧ result = toInt32 block.length := by
  constructor
  · intro parsed
    obtain ⟨rest, succeeds, returned⟩ := phrParseRequest_some parsed
    obtain ⟨block, rfl, isBlock, few⟩ := (reads_parseRequest maxHeaders _ _ _).mp succeeds
    rw [length_read] at returned
    exact ⟨block, rest, rfl, isBlock, few, returned⟩
  · rintro ⟨block, rest, rfl, isBlock, few, returned⟩
    have succeeds : parseRequest maxHeaders (block ++ rest) = .done head rest :=
      (reads_parseRequest maxHeaders _ _ _).mpr ⟨block, rfl, isBlock, few⟩
    rw [phrParseRequest_of_done succeeds, length_read, returned]

end Onyxup.Http.Parser
