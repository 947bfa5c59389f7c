import Mathlib.Data.Int.GCD
import Mathlib.Tactic.LinearCombination

/-!
Contract: a cursor that goes around a circle in equal strides.

Owns: the positions of the cursor as multiples of the stride, and the coverage of the
circle: in as many strides as there are multiples of the greatest common divisor, every
place has been at most that divisor behind the cursor.

Does not own: what is done at the places. The circle and the stride are any numbers.
-/

set_option autoImplicit false

namespace Onyxup.Lib.Rotation

/-- The cursor after `strides` steps of the length `stride` around a circle of `size` places. -/
def position (size stride : Nat) : (strides : Nat) → Nat
  | 0 => 0
  | strides + 1 => (position size stride strides + stride) % size

variable {size stride : Nat}

/-- The cursor is at a multiple of the stride. By induction on the steps. -/
theorem position_eq (size stride strides : Nat) :
    position size stride strides = stride * strides % size := by
  induction strides with
  | zero => rw [position, Nat.mul_zero, Nat.zero_mod]
  | succ strides inductionHypothesis =>
      rw [position, inductionHypothesis, Nat.mod_add_mod, Nat.mul_succ]

/-- Every multiple of the greatest common divisor is reached, from every step on, before the
cursor has gone through all of them. -/
theorem exists_position_eq (positive : 0 < size) {place : Nat} (inside : place < size)
    (multiple : size.gcd stride ∣ place) (since : Nat) :
    ∃ strides, since ≤ strides ∧ strides < since + size / size.gcd stride ∧
      position size stride strides = place := by
  have divisorPositive : 0 < size.gcd stride := Nat.gcd_pos_of_pos_left stride positive
  obtain ⟨turns, isSize⟩ := Nat.gcd_dvd_left size stride
  obtain ⟨hops, isStride⟩ := Nat.gcd_dvd_right size stride
  obtain ⟨quotient, isPlace⟩ := multiple
  have count : size / size.gcd stride = turns :=
    Nat.div_eq_of_eq_mul_right divisorPositive isSize
  have turnsPositive : 0 < turns := by
    rw [← count]
    exact Nat.div_pos (Nat.gcd_le_left stride positive) divisorPositive
  -- Bezout's coefficients solve the congruence; the solution is moved behind `since`.
  have bezout := Nat.gcd_eq_gcd_ab size stride
  obtain ⟨solution, isSolution⟩ :
      ∃ solution : ℤ, solution = Nat.gcdB size stride * quotient := ⟨_, rfl⟩
  have bounds := Int.emod_nonneg (solution - since) (by omega : (turns : ℤ) ≠ 0)
  have below := Int.emod_lt_of_pos (solution - since) (by omega : (0 : ℤ) < turns)
  have division := Int.emod_add_mul_ediv (solution - since) turns
  refine ⟨since + ((solution - since) % turns).toNat, Nat.le_add_right _ _, by omega, ?_⟩
  have isMultiple : ((stride * (since + ((solution - since) % turns).toNat) : ℕ) : ℤ) = place +
      size * (-(Nat.gcdA size stride * quotient) - hops * ((solution - since) / turns)) := by
    have sizeCast : (size : ℤ) = size.gcd stride * turns := by exact_mod_cast isSize
    have strideCast : (stride : ℤ) = size.gcd stride * hops := by exact_mod_cast isStride
    have placeCast : (place : ℤ) = size.gcd stride * quotient := by exact_mod_cast isPlace
    rw [Nat.cast_mul, Nat.cast_add, Int.toNat_of_nonneg bounds]
    linear_combination stride * division + stride * isSolution - placeCast - quotient * bezout +
      (solution - since) / turns * (hops * sizeCast - turns * strideCast)
  rw [position_eq]
  have residue : ((stride * (since + ((solution - since) % turns).toNat) : ℕ) : ℤ) % size =
      place := by
    rw [isMultiple, Int.add_mul_emod_self_left]
    exact Int.emod_eq_of_lt (by omega) (by omega)
  exact_mod_cast residue

/-- Every place is close behind the cursor once in as many steps as there are multiples of the
greatest common divisor. -/
theorem exists_position_near (positive : 0 < size) {place : Nat} (inside : place < size)
    (since : Nat) :
    ∃ strides, since ≤ strides ∧ strides < since + size / size.gcd stride ∧
      position size stride strides ≤ place ∧
      place < position size stride strides + size.gcd stride := by
  have divisorPositive : 0 < size.gcd stride := Nat.gcd_pos_of_pos_left stride positive
  have below := Nat.mul_div_le place (size.gcd stride)
  have above := Nat.lt_mul_div_succ place divisorPositive
  obtain ⟨strides, after, before, here⟩ := exists_position_eq positive
    (Nat.lt_of_le_of_lt below inside) (Nat.dvd_mul_right _ (place / size.gcd stride)) since
  refine ⟨strides, after, before, ?_, ?_⟩
  · rw [here]
    exact below
  · rw [here]
    exact above

end Onyxup.Lib.Rotation
