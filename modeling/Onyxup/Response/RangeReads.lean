import Onyxup.Lib.Logged
import Onyxup.Response.RangeForms

/-!
Contract: the characters that `parseRangesRequest` reads, index by index.

Owns: the parser with every `operator[]` on a token written out and logged, the
equation between it and the parser on lists, and the exact condition under which no
read leaves its token and nothing but an `OnyxupException` is thrown.

Does not own: what the parser accepts.
-/

set_option autoImplicit false

namespace Onyxup.Response

open Onyxup.Lib
open Onyxup.Lib.CString
open Onyxup.Lib.Fallible

/-- One use of `operator[]` on a token without its spaces. -/
structure CharRead where
  token : Bytes
  index : Nat
deriving DecidableEq, Repr

/-- The index is below the size of the token. -/
def CharRead.Inside (read : CharRead) : Prop :=
  read.index < read.token.length

/-- The rest of a computation that reads characters of tokens. -/
abbrev TokenReading (α : Type) := Logged CharRead RangeFault α

/-- `token[index]`. The terminator can be read; behind it stands the stray byte. -/
def charAt (stray : UInt8) (token : Bytes) (index : Nat) : TokenReading UInt8 :=
  ⟨[⟨token, index⟩], .ok (token[index]?.getD (if index = token.length then 0 else stray))⟩

/-- `token.size() - 1`, in `size_t`. -/
def sizeMinusOne (token : Bytes) : Nat :=
  if token = [] then 18446744073709551615 else token.length - 1

/-- A digit loop over `count` characters from `index` on. -/
def readDigits (stray : UInt8) (token : Bytes) : (index count value : Nat) → TokenReading Nat
  | _, 0, value => pure value
  | index, count + 1, value => do
      let byte ← charAt stray token index
      let value ← Logged.lift (accumulateDigit value byte)
      readDigits stray token (index + 1) count value

/-- The body of the loop over the tokens. -/
def readToken (stray : UInt8) (length : Nat) (token : Bytes) : TokenReading ByteRange := do
  let last ← charAt stray token (sizeMinusOne token)
  if last = 45 then do
    let value ← readDigits stray token 0 (sizeMinusOne token) 0
    Logged.lift (if length < value then .error .onyxupException else .ok ⟨value, length⟩)
  else do
    let first ← charAt stray token 0
    if first = 45 then do
      let value ← readDigits stray token 1 (token.length - 1) 0
      Logged.lift
        (if length < value then .error .onyxupException else .ok ⟨length - value, length⟩)
    else
      match find token (ascii "-") with
      | none => Logged.lift (.error .onyxupException)
      | some pos => do
          let valueLeft ← readDigits stray token 0 pos 0
          let valueRight ← readDigits stray token (pos + 1) (token.length - (pos + 1)) 0
          Logged.lift
            (if valueRight < valueLeft ∨ length < valueRight then .error .onyxupException
            else .ok ⟨valueLeft, valueRight⟩)

/-- The loop over the tokens. -/
def readTokens (stray : UInt8) (length : Nat) : List Bytes → TokenReading (List ByteRange)
  | [] => pure []
  | token :: rest => do
      let range ← readToken stray length (trimSpaces token)
      let ranges ← readTokens stray length rest
      pure (range :: ranges)

/-- `parseRangesRequest` with its reads. -/
def readRangesRequest (library : RangeLibrary) (src : Bytes) (length : Nat) :
    TokenReading (List ByteRange) :=
  if length = 0 then Logged.lift (.error .onyxupException)
  else do
    let text ← Logged.lift (rangesText src)
    let ranges ← readTokens library.stray length (getlines 44 text)
    Logged.lift
      (if ranges = [] then .error .onyxupException
      else if inOrder length (library.sort ranges) then .ok (library.sort ranges)
      else .error .onyxupException)

/-! ## The same parser -/

theorem charAt_inside (stray : UInt8) {token : Bytes} {index : Nat}
    (inside : index < token.length) : (charAt stray token index).All CharRead.Inside := by
  intro read member
  rw [List.mem_singleton.mp member]
  exact inside

theorem charAt_result_of_inside (stray : UInt8) {token : Bytes} {index : Nat} {byte : UInt8}
    (isThere : token[index]? = some byte) : (charAt stray token index).result = .ok byte := by
  simp only [charAt, isThere, Option.getD_some]

/-- A digit loop inside the token reads the digits of a slice. By induction on the
turns, with the value so far generalised. -/
theorem readDigits_result (stray : UInt8) {token : Bytes} {index count : Nat}
    (inside : index + count ≤ token.length) (value : Nat) :
    (readDigits stray token index count value).result =
      ((token.drop index).take count).foldlM accumulateDigit value := by
  induction count generalizing index value with
  | zero =>
      rw [List.take_zero]
      rfl
  | succ count inductionHypothesis =>
      have here : index < token.length := by omega
      rw [List.drop_eq_getElem_cons here, List.take_succ_cons, List.foldlM_cons, readDigits,
        Logged.bind_result]
      simp only [charAt, List.getElem?_eq_getElem here, Option.getD_some, Logged.bind_result,
        Logged.lift_result]
      change (accumulateDigit value token[index] >>= _) = _
      congr 1
      funext next
      exact inductionHypothesis (by omega) next

/-- A digit loop inside the token stays there. -/
theorem readDigits_inside (stray : UInt8) {token : Bytes} {index count : Nat}
    (inside : index + count ≤ token.length) (value : Nat) :
    (readDigits stray token index count value).All CharRead.Inside := by
  induction count generalizing index value with
  | zero => exact Logged.all_pure value
  | succ count inductionHypothesis =>
      rw [readDigits]
      apply Logged.All.bind
      · exact charAt_inside stray (by omega)
      · intro byte _
        apply Logged.All.bind
        · exact Logged.all_lift _
        · intro next _
          exact inductionHypothesis (by omega) next

theorem sizeMinusOne_of_nonempty {token : Bytes} (nonempty : token ≠ []) :
    sizeMinusOne token = token.length - 1 :=
  if_neg nonempty

private theorem readToken_nil_result (stray : UInt8) (length : Nat) :
    (readToken stray length []).result = .error .onyxupException := by
  rw [readToken, Logged.bind_result]
  change (if stray = 45 then _ else _ : TokenReading ByteRange).result = _
  split
  next =>
    rw [Logged.bind_result]
    -- The first turn of the digit loop reads the terminator.
    change (readDigits stray [] 0 (18446744073709551614 + 1) 0).result >>= _ = _
    rw [readDigits]
    rfl
  next => rfl

/-- The parser on indices is the parser on lists. -/
theorem readToken_result (stray : UInt8) (length : Nat) (token : Bytes) :
    (readToken stray length token).result = parseToken stray length token := by
  by_cases empty : token = []
  · rw [empty, readToken_nil_result, parseToken_eq]
    rfl
  · have positive := List.length_pos_iff.mpr empty
    have isLast : token[sizeMinusOne token]? = some (token.getLast empty) := by
      rw [sizeMinusOne_of_nonempty empty, ← List.getLast?_eq_getElem?,
        List.getLast?_eq_getLast_of_ne_nil]
    have isFirst : token[0]? = some (token.head empty) := by
      rw [← List.head?_eq_getElem?, List.head?_eq_some_head]
    have lastByte : token.getLast? = some (token.getLast empty) :=
      List.getLast?_eq_getLast_of_ne_nil empty
    have firstByte : token.head? = some (token.head empty) := List.head?_eq_some_head empty
    rw [readToken, Logged.bind_result, charAt_result_of_inside stray isLast, parseToken,
      lastByte, firstByte, Option.getD_some, Option.getD_some, if_neg empty]
    change (if token.getLast empty = 45 then _ else _ : TokenReading ByteRange).result = _
    split
    next =>
      rw [Logged.bind_result, sizeMinusOne_of_nonempty empty,
        readDigits_result stray (by omega), List.drop_zero, ← List.dropLast_eq_take]
      rfl
    next =>
      rw [Logged.bind_result, charAt_result_of_inside stray isFirst]
      change (if token.head empty = 45 then _ else _ : TokenReading ByteRange).result = _
      split
      next =>
        rw [Logged.bind_result, readDigits_result stray (by omega), List.drop_one,
          List.take_of_length_le (by rw [List.length_tail])]
        rfl
      next =>
        cases found : find token (ascii "-") with
        | none => rfl
        | some pos =>
            have inside : pos + 1 ≤ token.length := find_some found
            have behind : (token.drop (pos + 1)).take (token.length - (pos + 1)) =
                token.drop (pos + 1) :=
              List.take_of_length_le (by rw [List.length_drop])
            dsimp only
            rw [Logged.bind_result, readDigits_result stray (by omega), List.drop_zero]
            simp only [Logged.bind_result, Logged.lift_result]
            rw [readDigits_result stray (by omega), behind]
            rfl

private theorem readTokens_result (stray : UInt8) (length : Nat) (tokens : List Bytes) :
    (readTokens stray length tokens).result =
      tokens.mapM fun token => parseToken stray length (trimSpaces token) := by
  induction tokens with
  | nil => rfl
  | cons token rest inductionHypothesis =>
      rw [readTokens, List.mapM_cons, Logged.bind_result, readToken_result]
      simp only [Logged.bind_result, inductionHypothesis, Logged.pure_result]
      rfl

theorem readRangesRequest_result (library : RangeLibrary) (src : Bytes) (length : Nat) :
    (readRangesRequest library src length).result = parseRangesRequest library src length := by
  rw [readRangesRequest, parseRangesRequest]
  split
  next => rfl
  next =>
    simp only [Logged.bind_result, Logged.lift_result, readTokens_result]

/-! ## Reads -/

/-- A token that is not empty is read between its ends. -/
theorem readToken_inside (stray : UInt8) (length : Nat) {token : Bytes} (nonempty : token ≠ []) :
    (readToken stray length token).All CharRead.Inside := by
  have positive := List.length_pos_iff.mpr nonempty
  have last := sizeMinusOne_of_nonempty nonempty
  rw [readToken]
  apply Logged.All.bind
  · exact charAt_inside stray (by omega)
  · intro lastByte _
    split
    next =>
      apply Logged.All.bind
      · exact readDigits_inside stray (by omega) 0
      · intro value _
        exact Logged.all_lift _
    next =>
      apply Logged.All.bind
      · exact charAt_inside stray positive
      · intro firstByte _
        split
        next =>
          apply Logged.All.bind
          · exact readDigits_inside stray (by omega) 0
          · intro value _
            exact Logged.all_lift _
        next =>
          split
          next => exact Logged.all_lift _
          next pos found =>
            have inside : pos + 1 ≤ token.length := find_some found
            apply Logged.All.bind
            · exact readDigits_inside stray (by omega) 0
            · intro valueLeft _
              apply Logged.All.bind
              · exact readDigits_inside stray (by omega) 0
              · intro valueRight _
                exact Logged.all_lift _

/-- The first read of an empty token is in front of it. -/
theorem readToken_nil_not_inside (stray : UInt8) (length : Nat) :
    ¬ (readToken stray length []).All CharRead.Inside := by
  intro inside
  rw [readToken, Logged.all_bind_of_ok _ rfl] at inside
  have firstRead := inside.1 ⟨[], 18446744073709551615⟩ (List.mem_singleton.mpr rfl)
  exact Nat.not_lt_zero _ firstRead

/-- The token says a form that is satisfiable up to the index `length`. -/
def FormFits (length : Nat) (token : Bytes) : Prop :=
  ∃ form, formOf token = some form ∧ form.Fits residue length

/-- The loop over the tokens reaches an empty one. -/
def BlankReached (length : Nat) (tokens : List Bytes) : Prop :=
  ∃ front back, tokens = front ++ [] :: back ∧ ∀ token ∈ front, FormFits length token

theorem blankReached_cons {length : Nat} {token : Bytes} {rest : List Bytes} :
    BlankReached length (token :: rest) ↔
      token = [] ∨ FormFits length token ∧ BlankReached length rest := by
  constructor
  · rintro ⟨front, back, same, fits⟩
    cases front with
    | nil => exact .inl (List.cons.inj same).1
    | cons first front =>
        obtain ⟨rfl, sameRest⟩ := List.cons.inj same
        obtain ⟨firstFits, frontFits⟩ := List.forall_mem_cons.mp fits
        exact .inr ⟨firstFits, front, back, sameRest, frontFits⟩
  · rintro (rfl | ⟨tokenFits, front, back, rfl, frontFits⟩)
    · exact ⟨[], rest, rfl, by simp⟩
    · exact ⟨token :: front, back, rfl, List.forall_mem_cons.mpr ⟨tokenFits, frontFits⟩⟩

private theorem readTokens_cons_all {property : CharRead → Prop} {stray : UInt8} {length : Nat}
    {token : Bytes} {rest : List Bytes} :
    (readTokens stray length (token :: rest)).All property ↔
      (readToken stray length (trimSpaces token)).All property ∧
        (FormFits length (trimSpaces token) → (readTokens stray length rest).All property) := by
  rw [readTokens]
  by_cases fits : FormFits length (trimSpaces token)
  · obtain ⟨form, isForm, formFits⟩ := fits
    have accepted : (readToken stray length (trimSpaces token)).result =
        .ok (form.interval residue length) := by
      rw [readToken_result]
      exact parseToken_ok_iff.mpr ⟨form, isForm, formFits, rfl⟩
    rw [Logged.all_bind_of_ok _ accepted]
    apply and_congr_right
    intro _
    constructor
    · intro inside _
      exact Logged.all_bind_lift.mp inside
    · intro inside
      exact Logged.all_bind_lift.mpr (inside ⟨form, isForm, formFits⟩)
  · cases parsed : parseToken stray length (trimSpaces token) with
    | ok range =>
        obtain ⟨form, isForm, formFits, _⟩ := parseToken_ok_iff.mp parsed
        exact absurd ⟨form, isForm, formFits⟩ fits
    | error fault =>
        rw [← readToken_result] at parsed
        rw [Logged.all_bind_of_error _ parsed]
        exact ⟨fun inside => ⟨inside, fun isForm => absurd isForm fits⟩, fun both => both.1⟩

/-- The reads stay inside their tokens until an empty one is reached. By induction on the
tokens. -/
theorem readTokens_inside_iff (stray : UInt8) (length : Nat) (tokens : List Bytes) :
    (readTokens stray length tokens).All CharRead.Inside ↔
      ¬ BlankReached length (tokens.map trimSpaces) := by
  induction tokens with
  | nil =>
      refine iff_of_true (Logged.all_pure []) ?_
      rintro ⟨front, back, same, _⟩
      cases front <;> cases same
  | cons token rest inductionHypothesis =>
      rw [List.map_cons, blankReached_cons, readTokens_cons_all, inductionHypothesis, not_or,
        not_and]
      apply and_congr_left
      intro _
      constructor
      · intro inside empty
        rw [empty] at inside
        exact readToken_nil_not_inside stray length inside
      · exact readToken_inside stray length

/-! ## Safety -/

/-- The parser is safe on a header: it returns or throws an `OnyxupException`, and every
character is read at an index below the size of its token. -/
structure SafelyRead (library : RangeLibrary) (src : Bytes) (length : Nat) : Prop where
  ends : (∃ ranges, (readRangesRequest library src length).result = .ok ranges) ∨
    (readRangesRequest library src length).result = .error .onyxupException
  inside : ∀ read ∈ (readRangesRequest library src length).log,
    read.index < read.token.length

/-- A header is harmless if the position of `bytes=` is an `int` and no blank token comes
before the first one that is refused. -/
def Harmless (src : Bytes) (length : Nat) : Prop :=
  ¬ PositionLost src ∧
    ∀ text, rangesText src = .ok text → ¬ BlankReached length (rangeTokens text)

private theorem readRangesRequest_ends_iff (library : RangeLibrary) (src : Bytes)
    {length : Nat} (positive : length ≠ 0) :
    ((∃ ranges, (readRangesRequest library src length).result = .ok ranges) ∨
      (readRangesRequest library src length).result = .error .onyxupException) ↔
      ¬ PositionLost src := by
  have thrown := parseRangesRequest_outOfRange library src length
  rw [readRangesRequest_result]
  constructor
  · intro ends lost
    have outOfRange := thrown.mpr ⟨positive, lost⟩
    rw [outOfRange] at ends
    rcases ends with ⟨ranges, returned⟩ | refused
    · cases returned
    · cases refused
  · intro kept
    cases parsed : parseRangesRequest library src length with
    | ok ranges => exact .inl ⟨ranges, rfl⟩
    | error fault =>
        cases fault with
        | onyxupException => exact .inr rfl
        | outOfRange => exact absurd (thrown.mp parsed).2 kept

private theorem readRangesRequest_inside_iff (library : RangeLibrary) (src : Bytes)
    {length : Nat} (positive : length ≠ 0) :
    (readRangesRequest library src length).All CharRead.Inside ↔
      ∀ text, rangesText src = .ok text → ¬ BlankReached length (rangeTokens text) := by
  rw [readRangesRequest, if_neg positive]
  cases found : rangesText src with
  | error fault =>
      rw [Logged.all_bind_of_error _ rfl]
      refine iff_of_true (Logged.all_lift _) ?_
      intro text isText
      cases isText
  | ok text =>
      rw [Logged.all_bind_of_ok _ rfl, Logged.all_bind_lift, readTokens_inside_iff]
      constructor
      · rintro ⟨_, unreached⟩ other isText
        cases isText
        exact unreached
      · intro unreached
        exact ⟨Logged.all_lift _, unreached text rfl⟩

/-- An empty token that the parser reaches is read in front of its beginning, and a lost
position throws something else. Every other header is safe. -/
theorem safelyRead_iff (library : RangeLibrary) (src : Bytes) (length : Nat) :
    SafelyRead library src length ↔ length = 0 ∨ Harmless src length := by
  by_cases zero : length = 0
  · subst zero
    refine iff_of_true ⟨.inr rfl, ?_⟩ (.inl rfl)
    intro read member
    cases member
  · rw [or_iff_right zero]
    constructor
    · intro safe
      exact ⟨(readRangesRequest_ends_iff library src zero).mp safe.ends,
        (readRangesRequest_inside_iff library src zero).mp safe.inside⟩
    · intro harmless
      exact ⟨(readRangesRequest_ends_iff library src zero).mpr harmless.1,
        (readRangesRequest_inside_iff library src zero).mpr harmless.2⟩

/-- Between two commas stands nothing, and the parser looks at the byte in front of it. -/
theorem blank_token_not_safelyRead : ¬ SafelyRead stableLibrary (ascii "bytes=0-1,,3-4") 9 := by
  intro safe
  have read : (⟨[], 18446744073709551615⟩ : CharRead) ∈
      (readRangesRequest stableLibrary (ascii "bytes=0-1,,3-4") 9).log := by
    decide
  exact Nat.not_lt_zero _ (safe.inside _ read)

end Onyxup.Response
