import Mathlib.Data.List.Sort
import Onyxup.Lib.CString
import Onyxup.Lib.Fallible

/-!
Contract: `parseRangesRequest`, the parser of the Range header.

Owns: the three token forms with their wrapping `size_t` arithmetic, the order
and border checks, and the bounds of every list that is returned.

Does not own: what is done with the ranges.

`operator[]` on an empty token reads one byte in front of the string, and
`std::sort` may leave ranges with equal starts in any order. Both are part of a
`RangeLibrary`, over which every result quantifies.
-/

set_option autoImplicit false

namespace Onyxup.Response

open Onyxup.Lib.CString
open Onyxup.Lib.Fallible
open Onyxup.Lib.Memory

/-- `std::pair<size_t, size_t>`. -/
structure ByteRange where
  first : Nat
  second : Nat
deriving DecidableEq, Repr

/-- What `parseRangesRequest` throws. -/
inductive RangeFault where
  | onyxupException
  | outOfRange
deriving DecidableEq, Repr

/-- What the parser takes from the implementation it runs on. -/
structure RangeLibrary where
  stray : UInt8
  sort : List ByteRange → List ByteRange
  sort_perm : ∀ ranges, (sort ranges).Perm ranges
  sort_ordered : ∀ ranges, (sort ranges).Pairwise fun left right => left.first ≤ right.first

/-- A library whose sort keeps the order of equal starts. -/
def stableLibrary : RangeLibrary where
  stray := 0
  sort := List.insertionSort fun left right => left.first ≤ right.first
  sort_perm := List.perm_insertionSort _
  sort_ordered := fun ranges => by
    have : Std.Total fun left right : ByteRange => left.first ≤ right.first :=
      ⟨fun left right => Nat.le_total left.first right.first⟩
    have : IsTrans ByteRange fun left right => left.first ≤ right.first :=
      ⟨fun _ _ _ => Nat.le_trans⟩
    exact List.pairwise_insertionSort _ ranges

/-- The tokens that `std::getline` with a delimiter returns one after the other:
nothing behind the last delimiter is not a token. -/
def getlines (delimiter : UInt8) (src : Bytes) : List Bytes :=
  let parts := src.splitOn delimiter
  if parts.getLast? = some [] then parts.dropLast else parts

/-- `trimSpaces`: every space goes, not only those at the ends. -/
def trimSpaces (src : Bytes) : Bytes :=
  src.filter (· != 32)

/-- One turn of a digit loop, in `size_t`. -/
def accumulateDigit (value : Nat) (byte : UInt8) : Except RangeFault Nat :=
  if isDigit byte then .ok ((value * 10 + (byte.toNat - 48)) % 18446744073709551616)
  else .error .onyxupException

/-- The digit loops of the three forms. -/
def scanDigits (text : Bytes) : Except RangeFault Nat :=
  text.foldlM accumulateDigit 0

/-- One token without its spaces: `D-`, `-D` or `D-D`. In an empty token
`token[size - 1]` is the stray byte, and the digit loop behind it starts at the
terminator. -/
def parseToken (stray : UInt8) (length : Nat) (token : Bytes) : Except RangeFault ByteRange :=
  if token.getLast?.getD stray = 45 then do
    let value ← scanDigits (if token = [] then [0] else token.dropLast)
    if length < value then .error .onyxupException else .ok ⟨value, length⟩
  else if token.head?.getD 0 = 45 then do
    let value ← scanDigits token.tail
    if length < value then .error .onyxupException else .ok ⟨length - value, length⟩
  else
    match find token (ascii "-") with
    | none => .error .onyxupException
    | some pos => do
        let valueLeft ← scanDigits (token.take pos)
        let valueRight ← scanDigits (token.drop (pos + 1))
        if valueRight < valueLeft ∨ length < valueRight then .error .onyxupException
        else .ok ⟨valueLeft, valueRight⟩

/-- The text behind `bytes=`. The position is kept in an `int`; `-1` compares
equal to `npos`, and `substr` throws when it starts behind the end. -/
def rangesText (src : Bytes) : Except RangeFault Bytes :=
  match find src (ascii "bytes=") with
  | none => .error .onyxupException
  | some index =>
      let pos := toInt32 index
      if pos = -1 then .error .onyxupException
      else if src.length < toSizeT (pos + 6) then .error .outOfRange
      else .ok (src.drop (toSizeT (pos + 6)))

/-- The last loop from its second turn on: no range begins before the end of the
one before it. -/
def checkBorders (length : Nat) : (border : Nat) → List ByteRange → Bool
  | _, [] => true
  | border, range :: rest =>
      !(decide (range.first < border) || decide (length < range.second)) &&
        checkBorders length range.second rest

/-- The last loop. -/
def inOrder (length : Nat) : List ByteRange → Bool
  | [] => true
  | range :: rest => checkBorders length range.second rest

/-- `parseRangesRequest`. -/
def parseRangesRequest (library : RangeLibrary) (src : Bytes) (length : Nat) :
    Except RangeFault (List ByteRange) :=
  if length = 0 then .error .onyxupException
  else do
    let text ← rangesText src
    let ranges ← (getlines 44 text).mapM fun token =>
      parseToken library.stray length (trimSpaces token)
    if ranges = [] then .error .onyxupException
    else if inOrder length (library.sort ranges) then .ok (library.sort ranges)
    else .error .onyxupException

/-! ## Faults -/

/-- The position of `bytes=`, cut to an `int`, leads `substr` behind the end of
the header. Only a position beyond `INT_MAX` does that. -/
def PositionLost (src : Bytes) : Prop :=
  ∃ index, find src (ascii "bytes=") = some index ∧ toInt32 index ≠ -1 ∧
    src.length < toSizeT (toInt32 index + 6)

/-- A header shorter than `2 ^ 31` bytes loses no position. -/
theorem not_positionLost_of_short {src : Bytes} (short : src.length < 2147483648) :
    ¬ PositionLost src := by
  rintro ⟨index, found, _, behind⟩
  have inside := find_some found
  have width : (ascii "bytes=").length = 6 := by decide
  rw [toInt32_of_small (by omega) (by omega)] at behind
  have exactly := toSizeT_of_small (show 0 ≤ (index : Int) + 6 by omega) (by omega)
  omega

private theorem scanDigits_error {text : Bytes} {fault : RangeFault}
    (fails : scanDigits text = .error fault) : fault = .onyxupException := by
  obtain ⟨value, byte, _, failed⟩ := foldlM_error _ fails
  unfold accumulateDigit at failed
  split at failed
  next => cases failed
  next =>
    cases failed
    rfl

/-- Tokens are refused with an `OnyxupException` only. -/
theorem parseToken_error {stray : UInt8} {length : Nat} {token : Bytes} {fault : RangeFault}
    (fails : parseToken stray length token = .error fault) : fault = .onyxupException := by
  unfold parseToken at fails
  split at fails
  next =>
    rcases bind_error fails with digits | ⟨value, _, tooLarge⟩
    · exact scanDigits_error digits
    · split at tooLarge <;> cases tooLarge
      rfl
  next =>
    split at fails
    next =>
      rcases bind_error fails with digits | ⟨value, _, tooLarge⟩
      · exact scanDigits_error digits
      · split at tooLarge <;> cases tooLarge
        rfl
    next =>
      split at fails
      next =>
        cases fails
        rfl
      next pos _ =>
        rcases bind_error fails with digits | ⟨left, _, fails⟩
        · exact scanDigits_error digits
        · rcases bind_error fails with digits | ⟨right, _, wrongOrder⟩
          · exact scanDigits_error digits
          · split at wrongOrder <;> cases wrongOrder
            rfl

private theorem rangesText_error {src : Bytes} {fault : RangeFault}
    (fails : rangesText src = .error fault) :
    fault = .onyxupException ∨ fault = .outOfRange ∧ PositionLost src := by
  unfold rangesText at fails
  split at fails
  next =>
    cases fails
    exact .inl rfl
  next index found =>
    dsimp only at fails
    split at fails
    next =>
      cases fails
      exact .inl rfl
    next notNpos =>
      split at fails
      next behind =>
        cases fails
        exact .inr ⟨rfl, index, found, notNpos, behind⟩
      next => cases fails

/-- `substr` is the only part that throws something else: exactly when the
position is lost, and only behind the test for an empty body. -/
theorem parseRangesRequest_outOfRange (library : RangeLibrary) (src : Bytes) (length : Nat) :
    parseRangesRequest library src length = .error .outOfRange ↔
      length ≠ 0 ∧ PositionLost src := by
  constructor
  · intro fails
    unfold parseRangesRequest at fails
    split at fails
    next => cases fails
    next positive =>
      rcases bind_error fails with text | ⟨text, _, fails⟩
      · rcases rangesText_error text with impossible | ⟨_, lost⟩
        · cases impossible
        · exact ⟨positive, lost⟩
      · rcases bind_error fails with token | ⟨ranges, _, fails⟩
        · obtain ⟨_, _, failed⟩ := mapM_error _ token
          cases parseToken_error failed
        · split at fails
          next => cases fails
          next => split at fails <;> cases fails
  · rintro ⟨positive, index, found, notNpos, behind⟩
    have text : rangesText src = .error .outOfRange := by
      simp only [rangesText, found, if_neg notNpos, if_pos behind]
    rw [parseRangesRequest, if_neg positive, text]
    rfl

/-! ## Bounds -/

/-- The range of one token. -/
theorem parseToken_bounded {stray : UInt8} {length : Nat} {token : Bytes} {range : ByteRange}
    (accepted : parseToken stray length token = .ok range) :
    range.first ≤ range.second ∧ range.second ≤ length := by
  unfold parseToken at accepted
  split at accepted
  next =>
    obtain ⟨value, _, accepted⟩ := bind_ok accepted
    split at accepted
    next => cases accepted
    next small =>
      cases accepted
      exact ⟨Nat.le_of_not_lt small, Nat.le_refl _⟩
  next =>
    split at accepted
    next =>
      obtain ⟨value, _, accepted⟩ := bind_ok accepted
      split at accepted
      next => cases accepted
      next =>
        cases accepted
        exact ⟨Nat.sub_le _ _, Nat.le_refl _⟩
    next =>
      split at accepted
      next => cases accepted
      next =>
        obtain ⟨left, _, accepted⟩ := bind_ok accepted
        obtain ⟨right, _, accepted⟩ := bind_ok accepted
        split at accepted
        next => cases accepted
        next ordered =>
          cases accepted
          simp only
          omega

/-- A list that is returned: the ranges of the tokens, sorted and in order. -/
theorem parseRangesRequest_ok {library : RangeLibrary} {src : Bytes} {length : Nat}
    {ranges : List ByteRange} (accepted : parseRangesRequest library src length = .ok ranges) :
    ∃ text unsorted, rangesText src = .ok text ∧ unsorted ≠ [] ∧
      List.Forall₂ (fun token range =>
        parseToken library.stray length (trimSpaces token) = .ok range)
        (getlines 44 text) unsorted ∧
      ranges = library.sort unsorted ∧ inOrder length ranges = true := by
  unfold parseRangesRequest at accepted
  split at accepted
  next => cases accepted
  next =>
    obtain ⟨text, found, accepted⟩ := bind_ok accepted
    obtain ⟨unsorted, tokens, accepted⟩ := bind_ok accepted
    split at accepted
    next => cases accepted
    next nonempty =>
      split at accepted
      next ordered =>
        cases accepted
        exact ⟨text, unsorted, found, nonempty, mapM_ok _ tokens, rfl, ordered⟩
      next => cases accepted

/-- Every range that is returned is an interval of the body. -/
theorem parseRangesRequest_bounded {library : RangeLibrary} {src : Bytes} {length : Nat}
    {ranges : List ByteRange} (accepted : parseRangesRequest library src length = .ok ranges) :
    ranges ≠ [] ∧ ∀ range ∈ ranges, range.first ≤ range.second ∧ range.second ≤ length := by
  obtain ⟨text, unsorted, _, nonempty, tokens, rfl, _⟩ := parseRangesRequest_ok accepted
  have permuted := library.sort_perm unsorted
  constructor
  · intro empty
    rw [empty] at permuted
    exact nonempty permuted.symm.eq_nil
  · intro range member
    obtain ⟨token, _, parsed⟩ := exists_of_mem tokens (permuted.mem_iff.mp member)
    exact parseToken_bounded parsed

end Onyxup.Response
