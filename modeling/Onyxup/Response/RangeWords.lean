import Onyxup.Response.Ranges

/-!
Contract: `parseRangesRequest` on machine words.

Owns: the parser with every value a 64-bit word, its products, sums and differences taken in
the word, and the border of the last loop a signed word, and the equation between it and the
parser on numbers.

Does not own: what the parser accepts.
-/

set_option autoImplicit false

namespace Onyxup.Response

open Onyxup.Lib.CString
open Onyxup.Lib.Fallible

/-- `std::pair<size_t, size_t>`, in words. -/
structure WordRange where
  first : UInt64
  second : UInt64
deriving DecidableEq, Repr

/-- The numbers of two words. -/
def WordRange.toByteRange (range : WordRange) : ByteRange :=
  ⟨range.first.toNat, range.second.toNat⟩

/-- The words of two numbers. -/
def ByteRange.toWordRange (range : ByteRange) : WordRange :=
  ⟨.ofNat range.first, .ofNat range.second⟩

/-- One turn of a digit loop: `value * 10 + (byte - '0')`. -/
def accumulateWord (value : UInt64) (byte : UInt8) : Except RangeFault UInt64 :=
  if isDigit byte then .ok (value * 10 + (byte.toUInt64 - 48)) else .error .onyxupException

/-- The digit loops of the three forms. -/
def scanWord (text : Bytes) : Except RangeFault UInt64 :=
  text.foldlM accumulateWord 0

/-- One token without its spaces. -/
def parseTokenWord (stray : UInt8) (length : UInt64) (token : Bytes) :
    Except RangeFault WordRange :=
  if token.getLast?.getD stray = 45 then do
    let value ← scanWord (if token = [] then [0] else token.dropLast)
    if length < value then .error .onyxupException else .ok ⟨value, length⟩
  else if token.head?.getD 0 = 45 then do
    let value ← scanWord token.tail
    if length < value then .error .onyxupException else .ok ⟨length - value, length⟩
  else
    match find token (ascii "-") with
    | none => .error .onyxupException
    | some pos => do
        let valueLeft ← scanWord (token.take pos)
        let valueRight ← scanWord (token.drop (pos + 1))
        if valueRight < valueLeft ∨ length < valueRight then .error .onyxupException
        else .ok ⟨valueLeft, valueRight⟩

/-- The last loop from its second turn on. The border is an `ssize_t`; compared with a
`size_t` it is one again. -/
def checkWordBorders (length : UInt64) : (border : Int64) → List WordRange → Bool
  | _, [] => true
  | border, range :: rest =>
      !(decide (range.first < border.toUInt64) || decide (length < range.second)) &&
        checkWordBorders length range.second.toInt64 rest

/-- The last loop. -/
def inWordOrder (length : UInt64) : List WordRange → Bool
  | [] => true
  | range :: rest => checkWordBorders length range.second.toInt64 rest

/-- `std::sort` on pairs of words. -/
def sortWords (library : RangeLibrary) (ranges : List WordRange) : List WordRange :=
  (library.sort (ranges.map WordRange.toByteRange)).map ByteRange.toWordRange

/-- `parseRangesRequest`, in words. -/
def parseRangesWords (library : RangeLibrary) (src : Bytes) (length : UInt64) :
    Except RangeFault (List WordRange) :=
  if length = 0 then .error .onyxupException
  else do
    let text ← rangesText src
    let ranges ← (getlines 44 text).mapM fun token =>
      parseTokenWord library.stray length (trimSpaces token)
    if ranges = [] then .error .onyxupException
    else if inWordOrder length (sortWords library ranges) then .ok (sortWords library ranges)
    else .error .onyxupException

/-! ## The same parser -/

private theorem accumulateWord_view (value : UInt64) (byte : UInt8) :
    (accumulateWord value byte).map UInt64.toNat = accumulateDigit value.toNat byte := by
  unfold accumulateWord accumulateDigit
  split
  next digit =>
    have atLeast : 48 ≤ byte.toNat := by
      rw [isDigit, Bool.and_eq_true, decide_eq_true_eq, UInt8.le_iff_toNat_le] at digit
      exact digit.1
    have difference : (byte.toUInt64 - 48).toNat = byte.toNat - 48 := by
      rw [UInt64.toNat_sub_of_le, UInt8.toNat_toUInt64]
      · rfl
      · rw [UInt64.le_iff_toNat_le, UInt8.toNat_toUInt64]
        exact atLeast
    refine congrArg Except.ok ?_
    rw [UInt64.toNat_add, UInt64.toNat_mul, difference, Nat.mod_add_mod]
    rfl
  next => rfl

private theorem scanWord_view (text : Bytes) :
    (scanWord text).map UInt64.toNat = scanDigits text :=
  foldlM_view UInt64.toNat accumulateWord_view text 0

/-- Each form with its own test; the difference does not wrap behind it. -/
theorem parseTokenWord_view (stray : UInt8) (length : UInt64) (token : Bytes) :
    (parseTokenWord stray length token).map WordRange.toByteRange =
      parseToken stray length.toNat token := by
  unfold parseTokenWord parseToken
  split
  next =>
    apply bind_view UInt64.toNat WordRange.toByteRange (scanWord_view _)
    intro value
    simp only [UInt64.lt_iff_toNat_lt]
    split <;> rfl
  next =>
    split
    next =>
      apply bind_view UInt64.toNat WordRange.toByteRange (scanWord_view _)
      intro value
      simp only [UInt64.lt_iff_toNat_lt]
      split
      next => rfl
      next room =>
        have noWrap : (length - value).toNat = length.toNat - value.toNat :=
          UInt64.toNat_sub_of_le _ _ (UInt64.le_iff_toNat_le.mpr (Nat.le_of_not_lt room))
        refine congrArg Except.ok ?_
        rw [WordRange.toByteRange, noWrap]
    next =>
      cases find token (ascii "-") with
      | none => rfl
      | some pos =>
          apply bind_view UInt64.toNat WordRange.toByteRange (scanWord_view _)
          intro valueLeft
          apply bind_view UInt64.toNat WordRange.toByteRange (scanWord_view _)
          intro valueRight
          simp only [UInt64.lt_iff_toNat_lt]
          split <;> rfl

private theorem checkWordBorders_view (length border : UInt64) (ranges : List WordRange) :
    checkWordBorders length border.toInt64 ranges =
      checkBorders length.toNat border.toNat (ranges.map WordRange.toByteRange) := by
  induction ranges generalizing border with
  | nil => rfl
  | cons range rest inductionHypothesis =>
      have begins : decide (range.first < border) =
          decide (range.first.toNat < border.toNat) :=
        decide_eq_decide.mpr UInt64.lt_iff_toNat_lt
      have ends : decide (length < range.second) =
          decide (length.toNat < range.second.toNat) :=
        decide_eq_decide.mpr UInt64.lt_iff_toNat_lt
      rw [checkWordBorders, List.map_cons, checkBorders, UInt64.toUInt64_toInt64,
        inductionHypothesis, begins, ends]
      rfl

private theorem inWordOrder_view (length : UInt64) (ranges : List WordRange) :
    inWordOrder length ranges = inOrder length.toNat (ranges.map WordRange.toByteRange) := by
  cases ranges with
  | nil => rfl
  | cons range rest => exact checkWordBorders_view length range.second rest

private theorem sortWords_view (library : RangeLibrary) (ranges : List WordRange) :
    (sortWords library ranges).map WordRange.toByteRange =
      library.sort (ranges.map WordRange.toByteRange) := by
  rw [sortWords, List.map_map]
  conv_rhs => rw [← List.map_id (library.sort _)]
  apply List.map_congr_left
  intro range member
  rw [(library.sort_perm _).mem_iff] at member
  obtain ⟨word, _, rfl⟩ := List.mem_map.mp member
  simp only [Function.comp_apply, ByteRange.toWordRange, WordRange.toByteRange,
    UInt64.ofNat_toNat, id]

/-- The parser on words is the parser on numbers. -/
theorem parseRangesWords_view (library : RangeLibrary) (src : Bytes) (length : UInt64) :
    (parseRangesWords library src length).map (List.map WordRange.toByteRange) =
      parseRangesRequest library src length.toNat := by
  have zero : length = 0 ↔ length.toNat = 0 := UInt64.toNat_inj.symm
  unfold parseRangesWords parseRangesRequest
  simp only [zero]
  split
  next => rfl
  next =>
    have sameText : (rangesText src).map id = rangesText src := by
      cases rangesText src <;> rfl
    apply bind_view id (List.map WordRange.toByteRange) sameText
    intro text
    apply bind_view (List.map WordRange.toByteRange) (List.map WordRange.toByteRange)
      (mapM_view _ (fun token => parseTokenWord_view _ _ _) _)
    intro ranges
    rw [inWordOrder_view, sortWords_view]
    simp only [List.map_eq_nil_iff]
    split
    next => rfl
    next =>
      split
      next => exact congrArg Except.ok (sortWords_view library ranges)
      next => rfl

/-- **The bounds survive the wrap-around.** For every header and every 64-bit length, with all
arithmetic in words: a list that is returned is not empty, and every pair in it is in order and
within the length. -/
theorem word_ranges_bounded (library : RangeLibrary) (src : Bytes) (length : UInt64)
    (ranges : List WordRange) (returned : parseRangesWords library src length = .ok ranges) :
    ranges ≠ [] ∧ ∀ range ∈ ranges, range.first ≤ range.second ∧ range.second ≤ length := by
  have onNumbers : parseRangesRequest library src length.toNat =
      .ok (ranges.map WordRange.toByteRange) := by
    rw [← parseRangesWords_view, returned]
    rfl
  obtain ⟨nonempty, bounded⟩ := parseRangesRequest_bounded onNumbers
  constructor
  · rintro rfl
    exact nonempty rfl
  · intro range member
    obtain ⟨inOrder, within⟩ := bounded _ (List.mem_map_of_mem member)
    exact ⟨UInt64.le_iff_toNat_le.mpr inOrder, UInt64.le_iff_toNat_le.mpr within⟩

/-- A number of `2 ^ 64` wraps to zero, and the largest length is its own end. -/
theorem wrapped_number_bounded :
    parseRangesWords stableLibrary (ascii "bytes=18446744073709551616-") 18446744073709551615 =
        .ok [⟨0, 18446744073709551615⟩] ∧
      ∀ range ∈ [(⟨0, 18446744073709551615⟩ : WordRange)], range.first ≤ range.second ∧
        range.second ≤ 18446744073709551615 := by
  have returned : parseRangesWords stableLibrary (ascii "bytes=18446744073709551616-")
      18446744073709551615 = .ok [⟨0, 18446744073709551615⟩] := by
    decide
  exact ⟨returned, (word_ranges_bounded _ _ _ _ returned).2⟩

end Onyxup.Response
