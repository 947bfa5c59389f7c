import Mathlib.Data.Set.Lattice
import Mathlib.Order.CompletePartialOrder
import Mathlib.Order.Interval.Set.Basic
import Onyxup.Response.Ranges

/-!
Contract: what a Range header says, and what `parseRangesRequest` makes of it.

Owns: the three forms of a token with their digit strings, the equation between the
token parser and its form, the exact conditions under which the numbers of a header
keep their meaning and under which the accepted ranges share no byte.

Does not own: the copies that are made of the ranges.

A form is read with a `value` for its digit strings. The parser reads it with the
values modulo `2 ^ 64`; the header means it with the true ones.
-/

set_option autoImplicit false

namespace Onyxup.Response

open Onyxup.Lib.CString
open Onyxup.Lib.Fallible
open Onyxup.Lib.Memory

/-- A token without its spaces: `D-`, `-D` or `D-D`. -/
inductive RangeForm where
  | openEnded (left : Bytes)
  | suffix (count : Bytes)
  | closed (left right : Bytes)
deriving DecidableEq, Repr

/-- The form of a token, if all its digits are digits. -/
def formOf (token : Bytes) : Option RangeForm :=
  if token.getLast? = some 45 then
    if token.dropLast.all isDigit then some (.openEnded token.dropLast) else none
  else if token.head? = some 45 then
    if token.tail.all isDigit then some (.suffix token.tail) else none
  else
    match find token (ascii "-") with
    | none => none
    | some pos =>
        if (token.take pos).all isDigit && (token.drop (pos + 1)).all isDigit then
          some (.closed (token.take pos) (token.drop (pos + 1)))
        else none

namespace RangeForm

/-- The digit strings of a form. -/
def numbers : RangeForm → List Bytes
  | openEnded left => [left]
  | suffix count => [count]
  | closed left right => [left, right]

/-- The form is satisfiable up to the index `length`. -/
def Fits (value : Bytes → Nat) (length : Nat) : RangeForm → Prop
  | openEnded left => value left ≤ length
  | suffix count => value count ≤ length
  | closed left right => value left ≤ value right ∧ value right ≤ length

instance (value : Bytes → Nat) (length : Nat) (form : RangeForm) :
    Decidable (form.Fits value length) :=
  match form with
  | openEnded _ => inferInstanceAs (Decidable (_ ≤ _))
  | suffix _ => inferInstanceAs (Decidable (_ ≤ _))
  | closed _ _ => inferInstanceAs (Decidable (_ ∧ _))

/-- The bytes that the form selects. -/
def interval (value : Bytes → Nat) (length : Nat) : RangeForm → ByteRange
  | openEnded left => ⟨value left, length⟩
  | suffix count => ⟨length - value count, length⟩
  | closed left right => ⟨value left, value right⟩

section Values

variable {value other : Bytes → Nat} {length : Nat} {form : RangeForm}

/-- Every number of a satisfiable form is at most `length`. -/
theorem Fits.le {number : Bytes} (fits : form.Fits value length)
    (member : number ∈ form.numbers) : value number ≤ length := by
  cases form with
  | openEnded left =>
      rw [List.mem_singleton.mp member]
      exact fits
  | suffix count =>
      rw [List.mem_singleton.mp member]
      exact fits
  | closed left right =>
      obtain ⟨ordered, below⟩ := fits
      simp only [numbers, List.mem_cons, List.not_mem_nil, or_false] at member
      rcases member with rfl | rfl
      · exact Nat.le_trans ordered below
      · exact below

/-- Only the values of its own digit strings matter for a form. -/
theorem interval_congr (same : ∀ number ∈ form.numbers, value number = other number) :
    form.interval value length = form.interval other length := by
  cases form with
  | openEnded left => simp only [interval, same left (by simp [numbers])]
  | suffix count => simp only [interval, same count (by simp [numbers])]
  | closed left right =>
      simp only [interval, same left (by simp [numbers]), same right (by simp [numbers])]

end Values

end RangeForm

/-- What a digit loop computes of a digit string. -/
def residue (digits : Bytes) : Nat :=
  digitsValue digits % 18446744073709551616

/-! ## The parser and the forms -/

private theorem foldlM_accumulateDigit (text : Bytes) (start : Nat) :
    text.foldlM accumulateDigit (start % 18446744073709551616) =
      if text.all isDigit then
        .ok (text.foldl (fun value digit => value * 10 + (digit.toNat - 48)) start %
          18446744073709551616)
      else .error .onyxupException := by
  induction text generalizing start with
  | nil => rfl
  | cons byte rest inductionHypothesis =>
      rw [List.foldlM_cons, accumulateDigit, List.all_cons, List.foldl_cons]
      by_cases digit : isDigit byte = true
      · have wraps : (start % 18446744073709551616 * 10 + (byte.toNat - 48)) %
            18446744073709551616 =
            (start * 10 + (byte.toNat - 48)) % 18446744073709551616 := by
          omega
        rw [if_pos digit, wraps, digit, Bool.true_and]
        exact inductionHypothesis _
      · rw [if_neg digit, Bool.eq_false_iff.mpr digit, Bool.false_and]
        rfl

theorem scanDigits_eq (text : Bytes) :
    scanDigits text =
      if text.all isDigit then .ok (residue text) else .error .onyxupException :=
  foldlM_accumulateDigit text 0

private theorem parseToken_nil (stray : UInt8) (length : Nat) :
    parseToken stray length [] = .error .onyxupException := by
  have noDigit : scanDigits [0] = .error .onyxupException := by decide
  have noDash : find [] (ascii "-") = none := by decide
  unfold parseToken
  split
  next =>
    rw [if_pos rfl, noDigit]
    rfl
  next =>
    rw [if_neg (by decide), noDash]

/-- The token parser reads the form of the token with the values modulo `2 ^ 64`. -/
theorem parseToken_eq (stray : UInt8) (length : Nat) (token : Bytes) :
    parseToken stray length token =
      match formOf token with
      | none => .error .onyxupException
      | some form =>
          if form.Fits residue length then .ok (form.interval residue length)
          else .error .onyxupException := by
  by_cases empty : token = []
  · rw [empty, parseToken_nil]
    rfl
  · obtain ⟨last, isLast⟩ := Option.ne_none_iff_exists'.mp (mt List.getLast?_eq_none_iff.mp empty)
    obtain ⟨first, isFirst⟩ := Option.ne_none_iff_exists'.mp (mt List.head?_eq_none_iff.mp empty)
    simp only [parseToken, formOf, isLast, isFirst, Option.getD_some, Option.some.injEq,
      if_neg empty]
    split
    next =>
      rw [scanDigits_eq]
      split
      next =>
        change (if length < residue token.dropLast then _ else _) = _
        rw [← ite_not]
        simp only [Nat.not_lt]
        rfl
      next => rfl
    next =>
      split
      next =>
        rw [scanDigits_eq]
        split
        next =>
          change (if length < residue token.tail then _ else _) = _
          rw [← ite_not]
          simp only [Nat.not_lt]
          rfl
        next => rfl
      next =>
        cases find token (ascii "-") with
        | none => rfl
        | some pos =>
            dsimp only
            rw [scanDigits_eq, scanDigits_eq]
            by_cases left : (token.take pos).all isDigit = true
            · by_cases right : (token.drop (pos + 1)).all isDigit = true
              · rw [if_pos left, if_pos right, left, right]
                change (if residue (token.drop (pos + 1)) < residue (token.take pos) ∨
                  length < residue (token.drop (pos + 1)) then _ else _) = _
                rw [← ite_not]
                simp only [not_or, Nat.not_lt]
                rfl
              · rw [if_pos left, if_neg right, left, Bool.eq_false_iff.mpr right]
                rfl
            · rw [if_neg left, Bool.eq_false_iff.mpr left]
              rfl

theorem parseToken_ok_iff {stray : UInt8} {length : Nat} {token : Bytes} {range : ByteRange} :
    parseToken stray length token = .ok range ↔
      ∃ form, formOf token = some form ∧ form.Fits residue length ∧
        range = form.interval residue length := by
  rw [parseToken_eq]
  cases formOf token with
  | none => simp
  | some form =>
      by_cases fits : form.Fits residue length
      · simp [fits, eq_comm]
      · simp [fits]

/-! ## Headers -/

/-- The tokens of a header without their spaces. -/
def rangeTokens (text : Bytes) : List Bytes :=
  (getlines 44 text).map trimSpaces

/-- The header says these forms, one for each of its tokens. -/
def FormsOf (src : Bytes) (forms : List RangeForm) : Prop :=
  ∃ text, rangesText src = .ok text ∧ (rangeTokens text).map formOf = forms.map some

/-- The tests of the parser on forms that are read with `value`. -/
def AcceptedAs (value : Bytes → Nat) (library : RangeLibrary) (length : Nat)
    (forms : List RangeForm) : Prop :=
  length ≠ 0 ∧ forms ≠ [] ∧ (∀ form ∈ forms, form.Fits value length) ∧
    inOrder length (library.sort (forms.map (·.interval value length))) = true

theorem FormsOf.unique {src : Bytes} {forms others : List RangeForm} (left : FormsOf src forms)
    (right : FormsOf src others) : forms = others := by
  obtain ⟨text, found, same⟩ := left
  obtain ⟨other, alsoFound, alsoSame⟩ := right
  rw [found] at alsoFound
  cases alsoFound
  rw [same] at alsoSame
  exact List.map_injective_iff.mpr (Option.some_injective _) alsoSame

private theorem mapM_parseToken_ok_iff {stray : UInt8} {length : Nat} {tokens : List Bytes}
    {ranges : List ByteRange} :
    (tokens.mapM fun token => parseToken stray length (trimSpaces token)) = .ok ranges ↔
      ∃ forms : List RangeForm, (tokens.map trimSpaces).map formOf = forms.map some ∧
        (∀ form ∈ forms, form.Fits residue length) ∧
        ranges = forms.map (·.interval residue length) := by
  constructor
  · intro parsed
    have each := mapM_ok _ parsed
    clear parsed
    induction each with
    | nil => exact ⟨[], rfl, by simp, rfl⟩
    | cons headParsed _ inductionHypothesis =>
        obtain ⟨form, isForm, fits, rfl⟩ := parseToken_ok_iff.mp headParsed
        obtain ⟨forms, areForms, allFit, rfl⟩ := inductionHypothesis
        refine ⟨form :: forms, ?_, List.forall_mem_cons.mpr ⟨fits, allFit⟩, rfl⟩
        rw [List.map_cons, List.map_cons, isForm, areForms, List.map_cons]
  · rintro ⟨forms, areForms, allFit, rfl⟩
    apply mapM_of_forall₂
    induction tokens generalizing forms with
    | nil =>
        rw [List.map_nil, List.map_nil, eq_comm, List.map_eq_nil_iff] at areForms
        rw [areForms]
        exact .nil
    | cons token tokens inductionHypothesis =>
        cases forms with
        | nil => cases areForms
        | cons form forms =>
            rw [List.map_cons, List.map_cons, List.map_cons] at areForms
            obtain ⟨isForm, areForms⟩ := List.cons.inj areForms
            obtain ⟨fits, allFit⟩ := List.forall_mem_cons.mp allFit
            exact .cons (parseToken_ok_iff.mpr ⟨form, isForm, fits, rfl⟩)
              (inductionHypothesis forms areForms allFit)

/-- A header is accepted if its forms are, read with the values modulo `2 ^ 64`. -/
theorem parseRangesRequest_ok_iff {library : RangeLibrary} {src : Bytes} {length : Nat}
    {ranges : List ByteRange} :
    parseRangesRequest library src length = .ok ranges ↔
      ∃ forms, FormsOf src forms ∧ AcceptedAs residue library length forms ∧
        ranges = library.sort (forms.map (·.interval residue length)) := by
  constructor
  · intro accepted
    have positive : length ≠ 0 := by
      rintro rfl
      cases accepted
    obtain ⟨text, unsorted, found, nonempty, tokens, rfl, ordered⟩ :=
      parseRangesRequest_ok accepted
    obtain ⟨forms, areForms, allFit, rfl⟩ :=
      mapM_parseToken_ok_iff.mp (mapM_of_forall₂ _ tokens)
    exact ⟨forms, ⟨text, found, areForms⟩,
      ⟨positive, mt List.map_eq_nil_iff.mpr nonempty, allFit, ordered⟩, rfl⟩
  · rintro ⟨forms, ⟨text, found, areForms⟩, ⟨positive, nonempty, allFit, ordered⟩, rfl⟩
    have tokens : ((getlines 44 text).mapM fun token =>
        parseToken library.stray length (trimSpaces token)) = .ok _ :=
      mapM_parseToken_ok_iff.mpr ⟨forms, areForms, allFit, rfl⟩
    rw [parseRangesRequest, if_neg positive, found]
    change ((getlines 44 text).mapM fun token =>
      parseToken library.stray length (trimSpaces token)) >>= _ = _
    rw [tokens]
    change (if forms.map (·.interval residue length) = [] then _ else _) = _
    rw [if_neg (mt List.map_eq_nil_iff.mp nonempty), if_pos ordered]

/-! ## What the numbers mean -/

/-- The numbers of a header mean what they say: what is recorded for a token are its true
numbers, and a token with a number behind `length` is refused. -/
structure NumbersMean (library : RangeLibrary) (src : Bytes) (length : Nat) : Prop where
  recorded : ∀ ranges, parseRangesRequest library src length = .ok ranges →
    ∃ forms, FormsOf src forms ∧
      (∀ form ∈ forms, ∀ number ∈ form.numbers, digitsValue number ≤ length) ∧
      ranges.Perm (forms.map (·.interval digitsValue length))
  refused : ∀ text, rangesText src = .ok text → ∀ token ∈ rangeTokens text,
    ∀ form, formOf token = some form → ∀ number ∈ form.numbers, length < digitsValue number →
      parseRangesRequest library src length = .error .onyxupException

theorem residue_of_small {digits : Bytes} (small : digitsValue digits < 18446744073709551616) :
    residue digits = digitsValue digits :=
  Nat.mod_eq_of_lt small

/-- No number of the header is too long for `size_t`, or the tests of the parser refuse the
header for another reason. -/
def NoAcceptedWrap (library : RangeLibrary) (src : Bytes) (length : Nat) : Prop :=
  ∀ forms, FormsOf src forms → AcceptedAs residue library length forms →
    ∀ form ∈ forms, ∀ number ∈ form.numbers, digitsValue number < 18446744073709551616

section Meaning

variable {library : RangeLibrary} {src : Bytes} {length : Nat}

private theorem refused_of_not_ok {text : Bytes} (found : rangesText src = .ok text)
    (notOk : ∀ ranges, parseRangesRequest library src length ≠ .ok ranges) :
    parseRangesRequest library src length = .error .onyxupException := by
  cases parsed : parseRangesRequest library src length with
  | ok ranges => exact absurd parsed (notOk ranges)
  | error fault =>
      cases fault with
      | onyxupException => rfl
      | outOfRange =>
          obtain ⟨_, index, position, notNpos, behind⟩ :=
            (parseRangesRequest_outOfRange library src length).mp parsed
          simp only [rangesText, position, if_neg notNpos, if_pos behind] at found
          cases found

private theorem recorded_of_noAcceptedWrap (noWrap : NoAcceptedWrap library src length)
    {ranges : List ByteRange} (accepted : parseRangesRequest library src length = .ok ranges) :
    ∃ forms, FormsOf src forms ∧
      (∀ form ∈ forms, ∀ number ∈ form.numbers, digitsValue number ≤ length) ∧
      ranges.Perm (forms.map (·.interval digitsValue length)) := by
  obtain ⟨forms, areForms, asResidues, rfl⟩ := parseRangesRequest_ok_iff.mp accepted
  have exact : ∀ form ∈ forms, ∀ number ∈ form.numbers, residue number = digitsValue number :=
    fun form member number isNumber =>
      residue_of_small (noWrap forms areForms asResidues form member number isNumber)
  have intervals : forms.map (·.interval residue length) =
      forms.map (·.interval digitsValue length) :=
    List.map_congr_left fun form member => RangeForm.interval_congr (exact form member)
  refine ⟨forms, areForms, ?_, ?_⟩
  · intro form member number isNumber
    rw [← exact form member number isNumber]
    exact (asResidues.2.2.1 form member).le isNumber
  · rw [← intervals]
    exact library.sort_perm _

/-- The numbers mean what they say exactly if no header is accepted because a number of it
wraps around. -/
theorem numbers_mean_iff (library : RangeLibrary) (src : Bytes) (length : Nat)
    (fits : length < 18446744073709551616) :
    NumbersMean library src length ↔ NoAcceptedWrap library src length := by
  constructor
  · intro mean forms areForms asResidues form member number isNumber
    obtain ⟨others, alsoForms, below, _⟩ :=
      mean.recorded _ (parseRangesRequest_ok_iff.mpr ⟨forms, areForms, asResidues, rfl⟩)
    rw [areForms.unique alsoForms] at member
    exact Nat.lt_of_le_of_lt (below form member number isNumber) fits
  · intro noWrap
    refine ⟨fun ranges accepted => recorded_of_noAcceptedWrap noWrap accepted, ?_⟩
    intro text found token isToken form isForm number isNumber behind
    apply refused_of_not_ok found
    intro ranges accepted
    -- Accepted numbers are true ones, and those are not behind the length.
    obtain ⟨forms, ⟨other, alsoFound, areForms⟩, below, _⟩ :=
      recorded_of_noAcceptedWrap noWrap accepted
    rw [found] at alsoFound
    cases alsoFound
    have isSome : some form ∈ forms.map some := by
      rw [← areForms, ← isForm]
      exact List.mem_map_of_mem isToken
    obtain ⟨same, member, equal⟩ := List.mem_map.mp isSome
    cases equal
    exact absurd (below form member number isNumber) (Nat.not_le.mpr behind)

end Meaning

/-- Two short numbers of one token. -/
theorem two_to_four_means_it : NumbersMean stableLibrary (ascii "bytes=2-4") 9 := by
  apply (numbers_mean_iff stableLibrary (ascii "bytes=2-4") 9 (by decide)).mpr
  intro forms areForms _
  have isForm : FormsOf (ascii "bytes=2-4") [.closed (ascii "2") (ascii "4")] :=
    ⟨ascii "2-4", by decide, by decide⟩
  rw [areForms.unique isForm]
  decide

/-- `2 ^ 64` wraps around to zero, and the whole body is accepted. -/
theorem wrapped_number_accepted :
    parseRangesRequest stableLibrary (ascii "bytes=18446744073709551616-") 9 = .ok [⟨0, 9⟩] ∧
      ¬ NumbersMean stableLibrary (ascii "bytes=18446744073709551616-") 9 := by
  have accepted : parseRangesRequest stableLibrary (ascii "bytes=18446744073709551616-") 9 =
      .ok [⟨0, 9⟩] := by
    decide
  refine ⟨accepted, ?_⟩
  intro mean
  have refused := mean.refused (ascii "18446744073709551616-") (by decide)
    (ascii "18446744073709551616-") (by decide) (.openEnded (ascii "18446744073709551616"))
    (by decide) (ascii "18446744073709551616") (by decide) (by decide)
  rw [accepted] at refused
  cases refused

/-! ## What the ranges share -/

/-- The bytes of a range, both ends included. -/
def ByteRange.bytes (range : ByteRange) : Set Nat :=
  Set.Icc range.first range.second

/-- Neither range ends where the other one begins. -/
def ByteRange.EndsApart (left right : ByteRange) : Prop :=
  left.second ≠ right.first ∧ right.second ≠ left.first

instance : DecidableRel ByteRange.EndsApart :=
  fun _ _ => inferInstanceAs (Decidable (_ ∧ _))

theorem ByteRange.EndsApart.symm {left right : ByteRange} (apart : left.EndsApart right) :
    right.EndsApart left :=
  ⟨apart.2, apart.1⟩

/-- Every range lies in front of the next ones, or meets them at its end. By induction on
the ranges, with the border generalised. -/
theorem checkBorders_pairwise {length border : Nat} {ranges : List ByteRange}
    (inside : ∀ range ∈ ranges, range.first ≤ range.second)
    (checked : checkBorders length border ranges = true) :
    (∀ range ∈ ranges, border ≤ range.first) ∧
      ranges.Pairwise fun left right => left.second ≤ right.first := by
  induction ranges generalizing border with
  | nil => exact ⟨by simp, .nil⟩
  | cons range rest inductionHypothesis =>
      simp only [checkBorders, Bool.and_eq_true, Bool.not_eq_true', Bool.or_eq_false_iff,
        decide_eq_false_iff_not, Nat.not_lt] at checked
      obtain ⟨⟨fromBorder, _⟩, restChecked⟩ := checked
      obtain ⟨ordered, restInside⟩ := List.forall_mem_cons.mp inside
      obtain ⟨behind, apart⟩ := inductionHypothesis restInside restChecked
      refine ⟨List.forall_mem_cons.mpr ⟨fromBorder, ?_⟩, .cons behind apart⟩
      intro other member
      have := behind other member
      omega

theorem inOrder_pairwise {length : Nat} {ranges : List ByteRange}
    (inside : ∀ range ∈ ranges, range.first ≤ range.second)
    (checked : inOrder length ranges = true) :
    ranges.Pairwise fun left right => left.second ≤ right.first := by
  cases ranges with
  | nil => exact .nil
  | cons range rest =>
      obtain ⟨behind, apart⟩ :=
        checkBorders_pairwise (List.forall_mem_cons.mp inside).2 checked
      exact .cons behind apart

/-- Ranges in order have no byte in common unless one ends where the other begins. -/
theorem disjoint_iff_endsApart {left right : ByteRange} (leftOrdered : left.first ≤ left.second)
    (rightOrdered : right.first ≤ right.second) (border : left.second ≤ right.first) :
    Disjoint left.bytes right.bytes ↔ left.EndsApart right := by
  constructor
  · intro disjoint
    have nothing := Set.disjoint_left.mp disjoint
    constructor
    · intro touches
      exact nothing ⟨leftOrdered, Nat.le_refl _⟩ ⟨Nat.le_of_eq touches.symm, by omega⟩
    · intro touches
      exact nothing ⟨leftOrdered, Nat.le_refl _⟩ ⟨by omega, by omega⟩
  · rintro ⟨apart, _⟩
    rw [Set.disjoint_left]
    rintro index ⟨_, before⟩ ⟨behind, _⟩
    omega

/-- What the parser returns: the interval of every token, ordered by the first bytes, and no
byte in two of them. -/
structure DisjointIntervals (forms : List RangeForm) (length : Nat) (ranges : List ByteRange) :
    Prop where
  perm : ranges.Perm (forms.map (·.interval residue length))
  sorted : ranges.Pairwise fun left right => left.first ≤ right.first
  disjoint : ranges.Pairwise fun left right => Disjoint left.bytes right.bytes

/-- The test for the order lets a range begin at the last byte of the one before it: accepted
ranges are disjoint exactly if no token's interval begins where another one ends. -/
theorem accepted_disjoint_iff (library : RangeLibrary) (src : Bytes) (length : Nat)
    (ranges : List ByteRange) (accepted : parseRangesRequest library src length = .ok ranges) :
    (∃ forms, FormsOf src forms ∧ DisjointIntervals forms length ranges) ↔
      ∀ forms, FormsOf src forms →
        (forms.map (·.interval residue length)).Pairwise ByteRange.EndsApart := by
  obtain ⟨_, bounded⟩ := parseRangesRequest_bounded accepted
  have ordered : ∀ range ∈ ranges, range.first ≤ range.second :=
    fun range member => (bounded range member).1
  obtain ⟨forms, areForms, ⟨_, _, _, checked⟩, sorted⟩ := parseRangesRequest_ok_iff.mp accepted
  rw [← sorted] at checked
  have perm : ranges.Perm (forms.map (·.interval residue length)) := by
    rw [sorted]
    exact library.sort_perm _
  have borders := inOrder_pairwise ordered checked
  -- The condition does not depend on the order of the ranges.
  have onRanges : (forms.map (·.interval residue length)).Pairwise ByteRange.EndsApart ↔
      ranges.Pairwise fun left right => Disjoint left.bytes right.bytes := by
    rw [← perm.pairwise_iff ByteRange.EndsApart.symm]
    constructor
    · intro apart
      refine (apart.and borders).imp_of_mem ?_
      rintro left right leftMember rightMember ⟨endsApart, border⟩
      exact (disjoint_iff_endsApart (ordered left leftMember) (ordered right rightMember)
        border).mpr endsApart
    · intro disjoint
      refine (disjoint.and borders).imp_of_mem ?_
      rintro left right leftMember rightMember ⟨apart, border⟩
      exact (disjoint_iff_endsApart (ordered left leftMember) (ordered right rightMember)
        border).mp apart
  constructor
  · rintro ⟨_, _, intervals⟩ others alsoForms
    rw [← areForms.unique alsoForms]
    exact onRanges.mpr intervals.disjoint
  · intro apart
    refine ⟨forms, areForms, perm, ?_, onRanges.mp (apart forms areForms)⟩
    rw [sorted]
    exact library.sort_ordered _

/-- Two tokens in the wrong order, with a gap between them. -/
theorem two_ranges_disjoint :
    parseRangesRequest stableLibrary (ascii "bytes=6-9,0-1") 9 = .ok [⟨0, 1⟩, ⟨6, 9⟩] ∧
      ∃ forms, FormsOf (ascii "bytes=6-9,0-1") forms ∧
        DisjointIntervals forms 9 [⟨0, 1⟩, ⟨6, 9⟩] := by
  refine ⟨by decide, (accepted_disjoint_iff stableLibrary (ascii "bytes=6-9,0-1") 9 _
    (by decide)).mpr ?_⟩
  intro forms areForms
  have areThese : FormsOf (ascii "bytes=6-9,0-1")
      [.closed (ascii "6") (ascii "9"), .closed (ascii "0") (ascii "1")] :=
    ⟨ascii "6-9,0-1", by decide, by decide⟩
  rw [areForms.unique areThese]
  decide

/-- The byte 5 is accepted in two ranges. -/
theorem touching_ranges_accepted :
    parseRangesRequest stableLibrary (ascii "bytes=0-5,5-9") 9 = .ok [⟨0, 5⟩, ⟨5, 9⟩] ∧
      ¬ ∃ forms, FormsOf (ascii "bytes=0-5,5-9") forms ∧
        DisjointIntervals forms 9 [⟨0, 5⟩, ⟨5, 9⟩] := by
  refine ⟨by decide, ?_⟩
  rintro ⟨forms, _, intervals⟩
  have apart := List.rel_of_pairwise_cons intervals.disjoint (List.mem_singleton.mpr rfl)
  exact Set.disjoint_left.mp apart (show 5 ∈ Set.Icc 0 5 by simp) (show 5 ∈ Set.Icc 5 9 by simp)

end Onyxup.Response
