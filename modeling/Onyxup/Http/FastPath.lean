import Onyxup.Http.Grammar
import Onyxup.Http.ResponseParser

/-!
Contract: `last_len`, with which a caller tells the parsers how much of the buffer they
have seen before.

Owns: `is_complete`, the parsers with the test in front, and the theorem that a caller who
uses it gets the verdicts of one who does not, as far as they are acceptances.

Does not own: errors. The test does not look at what stands in a line, and it fails on a
CR that the parsers may not have reached yet: the caller hears of a bad request later or
earlier.
-/

set_option autoImplicit false

namespace Onyxup.Http.Parser

open Onyxup.Lib.CString
open Onyxup.Lib.Memory
open Onyxup.Lib.Incremental
open Onyxup.Lib.Incremental.Reader

/-! ## The source -/

/-- `++ret_cnt` with the test behind it. -/
def lineSeen (retCnt : Nat) (rest : Bytes) (goOn : Outcome UInt8 Unit) : Outcome UInt8 Unit :=
  if retCnt + 1 = 2 then .done () rest else goOn

/-- `is_complete` from its first byte on, behind `ret_cnt` line ends. -/
def isComplete : (retCnt : Nat) → Bytes → Outcome UInt8 Unit
  | _, [] => .incomplete
  | retCnt, byte :: rest =>
      if byte = 13 then
        match rest with
        | [] => .incomplete
        | next :: rest =>
            if next = 10 then lineSeen retCnt rest (isComplete (retCnt + 1) rest) else .fail
      else if byte = 10 then lineSeen retCnt rest (isComplete (retCnt + 1) rest)
      else isComplete 0 rest

/-- The test in front of a parser. It goes three bytes back. -/
def checkComplete {α : Type} (parse : Bytes → Int × Option α) (lastLen : Nat) (buf : Bytes) :
    Int × Option α :=
  if lastLen ≠ 0 then
    match isComplete 0 (buf.drop (if lastLen < 3 then 0 else lastLen - 3)) with
    | .fail => (-1, none)
    | .incomplete => (-2, none)
    | .done _ _ => parse buf
  else parse buf

/-- `phr_parse_request` with `last_len`. -/
def phrParseRequestFrom (maxHeaders lastLen : Nat) (buf : Bytes) : Int × Option RequestHead :=
  checkComplete (phrParseRequest maxHeaders) lastLen buf

/-- `phr_parse_response` with `last_len`. -/
def phrParseResponseFrom (maxHeaders lastLen : Nat) (buf : Bytes) : Int × Option ResponseHead :=
  checkComplete (phrParseResponse maxHeaders) lastLen buf

/-! ## Callers -/

section Callers

variable {α : Type}

/-- A caller with a buffer to which every piece that arrives is appended. It says how much
was there before, and asks again as long as the answer is -2. -/
def askAgain (call : (lastLen : Nat) → Bytes → Int × Option α) :
    (received : Bytes) → List Bytes → Int × Option α
  | _, [] => (-2, none)
  | received, piece :: pieces =>
      let answer := call received.length (received ++ piece)
      if answer.1 = -2 then askAgain call (received ++ piece) pieces else answer

/-- What a parser for `blocks` has to say: it accepts what starts with a block, says so as
soon as the block is there, and asks for more before. -/
structure AnswersFor (blocks : α → Bytes → Prop) (call : Nat → Bytes → Int × Option α) : Prop where
  accepted : ∀ {lastLen : Nat} {buf : Bytes} {result : Int} {value : α},
    call lastLen buf = (result, some value) →
      ∃ block rest, buf = block ++ rest ∧ blocks value block ∧ result = toInt32 block.length
  accepts : ∀ {received piece block rest : Bytes} {value : α},
    received ++ piece = block ++ rest → blocks value block → received.length < block.length →
      call received.length (received ++ piece) = (toInt32 block.length, some value)
  patient : ∀ {received piece more : Bytes} {value : α},
    blocks value (received ++ piece ++ more) → more ≠ [] →
      call received.length (received ++ piece) = (-2, none)

/-- No block is the beginning of another. -/
def PrefixFree (blocks : α → Bytes → Prop) : Prop :=
  ∀ (value other : α) (block more : Bytes), blocks value block → blocks other (block ++ more) →
    more = []

/-- No block has arrived. -/
def Awaits (blocks : α → Bytes → Prop) (received : Bytes) : Prop :=
  ∀ value block rest, blocks value block → received ≠ block ++ rest

variable {blocks : α → Bytes → Prop} {call : Nat → Bytes → Int × Option α}

private theorem cut_at_block {front behind block rest : Bytes}
    (same : front ++ behind = block ++ rest) :
    (∃ left, front = block ++ left) ∨ ∃ more, more ≠ [] ∧ front ++ more = block := by
  rcases List.append_eq_append_iff.mp same with ⟨more, whole, _⟩ | ⟨left, whole, _⟩
  · by_cases nothing : more = []
    · rw [nothing, List.append_nil] at whole
      exact .inl ⟨[], by rw [List.append_nil, whole]⟩
    · exact .inr ⟨more, nothing, whole.symm⟩
  · exact .inl ⟨left, whole⟩

private theorem code_ne {block : Bytes} (small : block.length < 2147483648) :
    toInt32 block.length ≠ -2 := by
  rw [toInt32_of_small (by omega) (by omega)]
  omega

theorem AnswersFor.accepts_awaited (answers : AnswersFor blocks call)
    {received piece block rest : Bytes} {value : α} (awaits : Awaits blocks received)
    (isBlock : blocks value block) (same : received ++ piece = block ++ rest) :
    call received.length (received ++ piece) = (toInt32 block.length, some value) := by
  refine answers.accepts same isBlock ?_
  rcases cut_at_block same with ⟨left, whole⟩ | ⟨more, nonempty, whole⟩
  · exact absurd whole (awaits value block left isBlock)
  · have some_ := List.length_pos_iff.mpr nonempty
    rw [← whole, List.length_append]
    omega

/-- The caller accepts what starts with a block. By induction on the pieces. -/
theorem askAgain_accepts_iff (answers : AnswersFor blocks call)
    (prefixFree : PrefixFree blocks) {received : Bytes} {pieces : List Bytes}
    (awaits : Awaits blocks received)
    (small : (received ++ pieces.flatten).length < 2147483648) {result : Int} {value : α} :
    askAgain call received pieces = (result, some value) ↔
      ∃ block rest, received ++ pieces.flatten = block ++ rest ∧ blocks value block ∧
        result = toInt32 block.length := by
  induction pieces generalizing received with
  | nil =>
      constructor
      · intro accepted
        cases accepted
      · rintro ⟨block, rest, same, isBlock, _⟩
        rw [List.flatten_nil, List.append_nil] at same
        exact absurd same (awaits value block rest isBlock)
  | cons piece pieces inductionHypothesis =>
      rw [List.flatten_cons, ← List.append_assoc] at small ⊢
      unfold askAgain
      dsimp only
      constructor
      · intro accepted
        split at accepted
        next again =>
          refine (inductionHypothesis ?_ small).mp accepted
          intro other block rest isBlock same
          rw [same, List.length_append, List.length_append] at small
          rw [answers.accepts_awaited awaits isBlock same] at again
          dsimp only at again
          have different : toInt32 block.length ≠ -2 := code_ne (by omega)
          exact different again
        next =>
          obtain ⟨block, rest, same, isBlock, code⟩ := answers.accepted accepted
          exact ⟨block, rest ++ pieces.flatten, by rw [same, List.append_assoc], isBlock, code⟩
      · rintro ⟨block, rest, same, isBlock, returned⟩
        rcases cut_at_block same with ⟨left, here⟩ | ⟨more, nonempty, whole⟩
        · rw [same, List.length_append] at small
          have different : toInt32 block.length ≠ -2 := code_ne (by omega)
          rw [answers.accepts_awaited awaits isBlock here]
          dsimp only
          rw [if_neg different, returned]
        · rw [← whole] at isBlock
          rw [if_pos (congrArg Prod.fst (answers.patient isBlock nonempty))]
          refine (inductionHypothesis ?_ small).mpr ⟨block, rest, same, whole ▸ isBlock, returned⟩
          intro other shorter left isShorter here
          rw [here, List.append_assoc] at isBlock
          exact nonempty (List.append_eq_nil_iff.mp (prefixFree _ _ _ _ isShorter isBlock)).2

/-- Before the end of a block the caller hears nothing. By induction on the pieces. -/
theorem askAgain_patient (answers : AnswersFor blocks call) {received more : Bytes}
    {pieces : List Bytes} {value : α} (isBlock : blocks value (received ++ pieces.flatten ++ more))
    (nonempty : more ≠ []) : askAgain call received pieces = (-2, none) := by
  induction pieces generalizing received with
  | nil => rfl
  | cons piece pieces inductionHypothesis =>
      rw [List.flatten_cons, ← List.append_assoc] at isBlock
      unfold askAgain
      dsimp only
      have waits := answers.patient (List.append_assoc _ pieces.flatten more ▸ isBlock)
        (fun nothing => nonempty (List.append_eq_nil_iff.mp nothing).2)
      rw [if_pos (congrArg Prod.fst waits)]
      exact inductionHypothesis isBlock

/-- After an error nothing that may follow would have been accepted. -/
theorem askAgain_fails (answers : AnswersFor blocks call) (prefixFree : PrefixFree blocks)
    {received : Bytes} {pieces : List Bytes} (awaits : Awaits blocks received)
    (small : (received ++ pieces.flatten).length < 2147483648)
    (fails : (askAgain call received pieces).1 = -1) (more : Bytes) :
    Awaits blocks (received ++ pieces.flatten ++ more) := by
  intro value block rest isBlock same
  rcases cut_at_block same with ⟨left, here⟩ | ⟨missing, nonempty, whole⟩
  · have accepted := (askAgain_accepts_iff answers prefixFree awaits small).mpr
      ⟨block, left, here, isBlock, rfl⟩
    rw [accepted, toInt32_of_small (by omega) (by rw [here, List.length_append] at small; omega)]
      at fails
    dsimp only at fails
    omega
  · rw [← whole] at isBlock
    rw [askAgain_patient answers isBlock nonempty] at fails
    simp at fails

end Callers

/-! ## The test -/

/-- Every CR has its LF. -/
inductive Paired : Bytes → Prop where
  | nil : Paired []
  | line {rest : Bytes} (others : Paired rest) : Paired (13 :: 10 :: rest)
  | byte {byte : UInt8} {rest : Bytes} (notReturn : byte ≠ 13) (others : Paired rest) :
      Paired (byte :: rest)

theorem Paired.append {front back : Bytes} (first : Paired front) (second : Paired back) :
    Paired (front ++ back) := by
  induction first with
  | nil => exact second
  | line _ inductionHypothesis => exact .line inductionHypothesis
  | byte notReturn _ inductionHypothesis => exact .byte notReturn inductionHypothesis

theorem paired_of_clean {text : Bytes} (clean : ∀ byte ∈ text, byte ≠ 13) : Paired text := by
  induction text with
  | nil => exact .nil
  | cons byte text inductionHypothesis =>
      exact .byte (clean byte List.mem_cons_self)
        (inductionHypothesis fun other member => clean other (List.mem_cons_of_mem byte member))

theorem paired_lineBreak {eol : Bytes} (ends : LineBreak eol) : Paired eol := by
  rcases ends with rfl | rfl
  · exact .line .nil
  · exact .byte (by decide) .nil

theorem length_lineBreak {eol : Bytes} (ends : LineBreak eol) : eol.length ≤ 2 := by
  rcases ends with rfl | rfl <;> decide

theorem Paired.tail {byte : UInt8} {rest : Bytes} (paired : Paired (byte :: rest)) :
    Paired rest := by
  cases paired with
  | line others => exact .byte (by decide) others
  | byte _ others => exact others

theorem Paired.drop {text : Bytes} (paired : Paired text) (count : Nat) :
    Paired (text.drop count) := by
  induction count generalizing text with
  | zero => exact paired
  | succ count inductionHypothesis =>
      cases text with
      | nil => exact .nil
      | cons byte rest => exact inductionHypothesis paired.tail

theorem lineSeen_ne_fail {retCnt : Nat} {rest : Bytes} {goOn : Outcome UInt8 Unit}
    (onward : goOn ≠ .fail) : lineSeen retCnt rest goOn ≠ .fail := by
  unfold lineSeen
  split
  next => simp
  next => exact onward

/-- The test does not fail before the end of a text in which every CR has its LF. -/
theorem isComplete_ne_fail {text more : Bytes} (paired : Paired (text ++ more)) (retCnt : Nat) :
    isComplete retCnt text ≠ .fail := by
  fun_induction isComplete retCnt text with
  | case1 => simp
  | case2 => simp
  | case3 retCnt rest inductionHypothesis =>
      exact lineSeen_ne_fail (inductionHypothesis paired.tail.tail)
  | case4 retCnt next rest other =>
      cases paired with
      | line => exact absurd rfl other
      | byte notReturn => exact absurd rfl notReturn
  | case5 retCnt rest _ inductionHypothesis =>
      exact lineSeen_ne_fail (inductionHypothesis paired.tail)
  | case6 retCnt byte rest _ _ inductionHypothesis => exact inductionHypothesis paired.tail

theorem isComplete_of_notReturn {byte : UInt8} (notReturn : byte ≠ 13) (retCnt : Nat)
    (rest : Bytes) :
    isComplete retCnt (byte :: rest) =
      if byte = 10 then lineSeen retCnt rest (isComplete (retCnt + 1) rest)
      else isComplete 0 rest := by
  rw [isComplete.eq_def]
  exact if_neg notReturn

theorem isComplete_lineBreak {eol : Bytes} (ends : LineBreak eol) (retCnt : Nat)
    (rest : Bytes) :
    isComplete retCnt (eol ++ rest) = lineSeen retCnt rest (isComplete (retCnt + 1) rest) := by
  rcases ends with rfl | rfl
  · rfl
  · exact isComplete_of_notReturn (by decide) retCnt rest

/-- The test stops at the second line end, if it has not stopped before. -/
theorem isComplete_done {front first second : Bytes} (paired : Paired front)
    (one : LineBreak first) (two : LineBreak second) (more : Bytes) {retCnt : Nat}
    (few : retCnt ≤ 1) :
    ∃ rest, isComplete retCnt (front ++ (first ++ (second ++ more))) = .done () rest := by
  have step (eol text : Bytes) (ends : LineBreak eol)
      (onward : ∃ rest, isComplete 1 text = .done () rest) (retCnt : Nat) (few : retCnt ≤ 1) :
      ∃ rest, isComplete retCnt (eol ++ text) = .done () rest := by
    rw [isComplete_lineBreak ends, lineSeen]
    split
    next => exact ⟨_, rfl⟩
    next notTwo =>
      obtain rfl : retCnt = 0 := by omega
      exact onward
  induction paired generalizing retCnt with
  | nil =>
      refine step first _ one ?_ retCnt few
      rw [isComplete_lineBreak two]
      exact ⟨_, rfl⟩
  | @line rest _ inductionHypothesis =>
      exact step [13, 10] _ (.inl rfl) (inductionHypothesis (Nat.le_refl 1)) retCnt few
  | @byte byte rest notReturn _ inductionHypothesis =>
      by_cases lineFeed : byte = 10
      · rw [lineFeed]
        exact step [10] _ (.inr rfl) (inductionHypothesis (Nat.le_refl 1)) retCnt few
      · rw [List.cons_append, isComplete_of_notReturn notReturn, if_neg lineFeed]
        exact inductionHypothesis (Nat.zero_le 1)

/-! ## Blocks end in two line ends -/

/-- A block that the test can find the end of. -/
inductive Terminated : Bytes → Prop where
  | intro {front first second : Bytes} (paired : Paired front) (one : LineBreak first)
      (two : LineBreak second) : Terminated (front ++ (first ++ second))

theorem Terminated.paired {block : Bytes} (terminated : Terminated block) : Paired block := by
  obtain ⟨paired, one, two⟩ := terminated
  exact paired.append ((paired_lineBreak one).append (paired_lineBreak two))

theorem lineText_clean {text : Bytes} (isText : LineText text) : ∀ byte ∈ text, byte ≠ 13 := by
  rintro byte member rfl
  exact absurd (isText 13 member) (by decide)

theorem requestToken_clean {token : Bytes} (isToken : RequestToken token) :
    ∀ byte ∈ token, byte ≠ 13 := by
  rintro byte member rfl
  exact absurd (isToken.2 13 member).2 (by decide)

theorem digit_clean {byte : UInt8} (digit : isDigit byte = true) : byte ≠ 13 := by
  rintro rfl
  exact absurd digit (by decide)

/-- A header line is free of CR up to its end. -/
theorem headerLine_clean {isFirst : Bool} {header : PhrHeader} {text : Bytes}
    (isLine : HeaderLine isFirst header text) :
    ∃ content eol, text = content ++ eol ∧ (∀ byte ∈ content, byte ≠ 13) ∧ LineBreak eol := by
  cases isLine with
  | @named isFirst name blanks value eol nonempty isToken isBlanks starts isText ends =>
      refine ⟨name ++ [58] ++ blanks ++ value, eol, rfl, ?_, ends⟩
      rintro byte member rfl
      simp only [List.mem_append, List.mem_singleton] at member
      rcases member with ((inName | colon) | inBlanks) | inValue
      · exact absurd (isToken 13 inName) (by decide)
      · exact absurd colon (by decide)
      · exact absurd (isBlanks 13 inBlanks) (by decide)
      · exact lineText_clean isText 13 inValue rfl
  | @folded blank value eol starts isText ends =>
      refine ⟨blank :: value, eol, rfl, ?_, ends⟩
      rintro byte (_ | ⟨_, inValue⟩) rfl
      · exact absurd starts (by decide)
      · exact lineText_clean isText 13 inValue rfl

/-- Behind a line a header block ends in two line ends. By induction on its lines. -/
theorem terminated_of_headers {isFirst : Bool} {headers : List PhrHeader} {block : Bytes}
    (isBlock : HeaderBlock isFirst headers block) {front eol : Bytes} (paired : Paired front)
    (ends : LineBreak eol) : Terminated (front ++ (eol ++ block)) := by
  induction isBlock generalizing front eol with
  | empty last => exact .intro paired ends last
  | line first _ inductionHypothesis =>
      obtain ⟨content, next, rfl, clean, breaks⟩ := headerLine_clean first
      have longer := paired.append ((paired_lineBreak ends).append (paired_of_clean clean))
      have terminated := inductionHypothesis longer breaks
      simpa only [List.append_assoc] using terminated

theorem terminated_requestBlock {head : RequestHead} {block : Bytes}
    (isBlock : RequestBlock head block) : Terminated block := by
  obtain ⟨@⟨blank, method, path, eol, digit, skipped, isMethod, isPath, isMinor, ends⟩, headers⟩ :=
    isBlock
  have isBlank : Paired blank := by
    rcases skipped with rfl | breaks
    · exact .nil
    · exact paired_lineBreak breaks
  have isBlankByte : Paired [32] := paired_of_clean (by decide +kernel)
  have isVersion : Paired (ascii "HTTP/1.") := paired_of_clean (by decide +kernel)
  have isDigit : Paired [digit] := paired_of_clean (by simpa using digit_clean isMinor)
  have front := ((((((isBlank.append (paired_of_clean (requestToken_clean isMethod))).append
    isBlankByte).append (paired_of_clean (requestToken_clean isPath))).append
    isBlankByte).append isVersion).append isDigit)
  have terminated := terminated_of_headers headers front ends
  simpa only [List.append_assoc] using terminated

theorem terminated_responseBlock {head : ResponseHead} {block : Bytes}
    (isBlock : ResponseBlock head block) : Terminated block := by
  obtain ⟨@⟨minor, digits, msg, eol, isMinor, isCode, _, isText, ends⟩, headers⟩ := isBlock
  have isBlankByte : Paired [32] := paired_of_clean (by decide +kernel)
  have isVersion : Paired (ascii "HTTP/1.") := paired_of_clean (by decide +kernel)
  have isDigit : Paired [minor] := paired_of_clean (by simpa using digit_clean isMinor)
  have isDigits : Paired digits :=
    paired_of_clean fun byte member => digit_clean (isCode.2 byte member)
  have front := (((((isVersion.append isDigit).append isBlankByte).append isDigits).append
    isBlankByte).append (paired_of_clean (lineText_clean isText)))
  have terminated := terminated_of_headers headers front ends
  simpa only [List.append_assoc] using terminated

/-! ## The parsers -/

section Parsers

variable {α : Type} {reader : Reader UInt8 α} {blocks : α → Bytes → Prop}

/-- What the parsers return. -/
def report (reader : Reader UInt8 α) (buf : Bytes) : Int × Option α :=
  match reader buf with
  | .done value rest => (toInt32 (buf.length - rest.length), some value)
  | .fail => (-1, none)
  | .incomplete => (-2, none)

theorem phrParseRequest_report (maxHeaders : Nat) :
    phrParseRequest maxHeaders = report (parseRequest maxHeaders) := by
  funext buf
  unfold phrParseRequest report
  cases parseRequest maxHeaders buf <;> rfl

theorem phrParseResponse_report (maxHeaders : Nat) :
    phrParseResponse maxHeaders = report (parseResponse maxHeaders) := by
  funext buf
  unfold phrParseResponse report
  cases parseResponse maxHeaders buf <;> rfl

theorem report_some (reads : Reads reader fun value read _ => blocks value read) {buf : Bytes}
    {result : Int} {value : α} (reported : report reader buf = (result, some value)) :
    ∃ block rest, buf = block ++ rest ∧ blocks value block ∧ result = toInt32 block.length := by
  unfold report at reported
  split at reported
  next found rest succeeds =>
    obtain ⟨block, rfl, isBlock⟩ := (reads _ _ _).mp succeeds
    rw [length_read] at reported
    obtain ⟨code, same⟩ := Prod.mk.inj reported
    cases same
    exact ⟨block, rest, rfl, isBlock, code.symm⟩
  next => cases reported
  next => cases reported

theorem report_block (reads : Reads reader fun value read _ => blocks value read)
    {block : Bytes} {value : α} (isBlock : blocks value block) (rest : Bytes) :
    report reader (block ++ rest) = (toInt32 block.length, some value) := by
  have succeeds : reader (block ++ rest) = .done value rest :=
    (reads _ _ _).mpr ⟨block, rfl, isBlock⟩
  rw [report, succeeds]
  dsimp only
  rw [length_read]

theorem report_before (law : Stable reader)
    (reads : Reads reader fun value read _ => blocks value read) {front more : Bytes} {value : α}
    (isBlock : blocks value (front ++ more)) (nonempty : more ≠ []) :
    report reader front = (-2, none) := by
  have succeeds : reader (front ++ more) = .done value [] :=
    (reads _ _ _).mpr ⟨front ++ more, (List.append_nil _).symm, isBlock⟩
  rw [report, law.incomplete_of_append succeeds nonempty]

theorem prefixFree_of_reads (law : Stable reader)
    (reads : Reads reader fun value read _ => blocks value read) : PrefixFree blocks := by
  intro value other block more isBlock isLonger
  by_contra nonempty
  have waits := report_before law reads isLonger nonempty
  have accepted := report_block reads isBlock []
  rw [List.append_nil, waits] at accepted
  cases congrArg Prod.snd accepted

/-- Without the test. -/
theorem report_answers (law : Stable reader)
    (reads : Reads reader fun value read _ => blocks value read) :
    AnswersFor blocks fun _ buf => report reader buf where
  accepted := fun reported => report_some reads reported
  accepts := by
    intro received piece block rest value same isBlock _
    rw [same]
    exact report_block reads isBlock rest
  patient := fun isBlock nonempty => report_before law reads isBlock nonempty

/-- With the test. A block that is not complete in `last_len` bytes has its last two line
ends behind the place where the test begins. -/
theorem checkComplete_answers (law : Stable reader)
    (reads : Reads reader fun value read _ => blocks value read)
    (terminated : ∀ value block, blocks value block → Terminated block) :
    AnswersFor blocks (checkComplete (report reader)) where
  accepted := by
    intro lastLen buf result value reported
    unfold checkComplete at reported
    split at reported
    next =>
      split at reported
      next => cases reported
      next => cases reported
      next => exact report_some reads reported
    next => exact report_some reads reported
  accepts := by
    intro received piece block rest value same isBlock notYet
    unfold checkComplete
    split
    next =>
      obtain @⟨front, first, second, paired, one, two⟩ := terminated value block isBlock
      generalize start : (if received.length < 3 then 0 else received.length - 3) = begins
      have early : begins ≤ front.length := by
        have short := length_lineBreak one
        have short' := length_lineBreak two
        rw [List.length_append, List.length_append] at notYet
        split at start <;> omega
      have stops := isComplete_done (paired.drop begins) one two rest (Nat.zero_le 1)
      have text : (received ++ piece).drop begins =
          front.drop begins ++ (first ++ (second ++ rest)) := by
        rw [same, List.append_assoc, List.drop_append_of_le_length early, List.append_assoc]
      obtain ⟨behind, stops⟩ := stops
      rw [text, stops, same]
      exact report_block reads isBlock rest
    next =>
      rw [same]
      exact report_block reads isBlock rest
  patient := by
    intro received piece more value isBlock nonempty
    have waits := report_before law reads isBlock nonempty
    unfold checkComplete
    split
    next =>
      generalize start : (if received.length < 3 then 0 else received.length - 3) = begins
      have paired := (terminated value _ isBlock).paired.drop begins
      rw [List.drop_append_of_le_length (by
        rw [List.length_append]
        split at start <;> omega)] at paired
      have passes := isComplete_ne_fail paired 0
      split
      next fails => exact absurd fails passes
      next => rfl
      next => exact waits
    next => exact waits

theorem awaits_nil (terminated : ∀ value block, blocks value block → Terminated block) :
    Awaits blocks [] := by
  intro value block rest isBlock same
  have nothing : block = [] := (List.append_eq_nil_iff.mp same.symm).1
  obtain @⟨front, first, second, _, one, _⟩ := terminated value block isBlock
  rcases one with rfl | rfl <;> simp at nothing

/-- A caller who gives `last_len` accepts when one who does not accepts, and the same; and
it hears of an error only when nothing that may still arrive would be accepted. -/
def AgreesOn (plain : Bytes → Int × Option α) (fast : (lastLen : Nat) → Bytes → Int × Option α)
    (pieces : List Bytes) : Prop :=
  (∀ result value, askAgain fast [] pieces = (result, some value) ↔
      askAgain (fun _ => plain) [] pieces = (result, some value)) ∧
    ((askAgain fast [] pieces).1 = -1 →
      ∀ more result value, plain (pieces.flatten ++ more) ≠ (result, some value))

theorem agreesOn_of_reads (law : Stable reader)
    (reads : Reads reader fun value read _ => blocks value read)
    (terminated : ∀ value block, blocks value block → Terminated block) {pieces : List Bytes}
    (small : pieces.flatten.length < 2147483648) :
    AgreesOn (report reader) (checkComplete (report reader)) pieces := by
  have prefixFree := prefixFree_of_reads law reads
  have awaits := awaits_nil terminated
  have plain := report_answers law reads
  have fast := checkComplete_answers law reads terminated
  constructor
  · intro result value
    rw [askAgain_accepts_iff fast prefixFree awaits small,
      askAgain_accepts_iff plain prefixFree awaits small]
  · intro fails more result value reported
    obtain ⟨block, rest, same, isBlock, _⟩ := report_some reads reported
    exact askAgain_fails fast prefixFree awaits small fails more value block rest isBlock same

end Parsers

/-- **The fast path agrees.** For a stream that comes in any pieces, of a length that the
returned `int` can hold: a caller who gives `last_len` to `phr_parse_request` or
`phr_parse_response` accepts the requests and responses that it would accept without, at
the same piece and with the same result. When it hears -1, no continuation would have been
accepted. -/
theorem last_len_changes_no_acceptance (maxHeaders : Nat) (pieces : List Bytes)
    (small : pieces.flatten.length < 2147483648) :
    AgreesOn (phrParseRequest maxHeaders) (phrParseRequestFrom maxHeaders) pieces ∧
      AgreesOn (phrParseResponse maxHeaders) (phrParseResponseFrom maxHeaders) pieces := by
  constructor
  · unfold phrParseRequestFrom
    rw [phrParseRequest_report]
    refine agreesOn_of_reads (measured_parseRequest maxHeaders).toStable
      (reads_parseRequest maxHeaders) ?_ small
    exact fun _ _ isBlock => terminated_requestBlock isBlock.1
  · unfold phrParseResponseFrom
    rw [phrParseResponse_report]
    refine agreesOn_of_reads (measured_parseResponse maxHeaders).toStable
      (reads_parseResponse maxHeaders) ?_ small
    exact fun _ _ isBlock => terminated_responseBlock isBlock.1

/-- A request whose last line end is cut. -/
theorem last_len_accepts_cut_request :
    askAgain (phrParseRequestFrom 4) [] [ascii "GET / HTTP/1.1\r\nA: b\r\n\r", ascii "\n"] =
      (24, some ⟨ascii "GET", ascii "/", 1, [⟨ascii "A", ascii "b"⟩]⟩) := by
  refine ((last_len_changes_no_acceptance 4 _ ?_).1.1 _ _).mpr ?_
  · decide
  · decide +kernel

end Onyxup.Http.Parser
