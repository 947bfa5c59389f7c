import Mathlib.Data.List.Basic

/-!
Contract: blocks of cells and the machine integers that index them.

Owns: `overwrite`, the effect of a memory copy into a block of fixed size, and
the conversions between mathematical integers, 32-bit signed and 64-bit
unsigned machine integers.

Does not own: bounds. A copy that leaves its block is the caller's business;
the laws below are stated for copies that stay inside.
-/

set_option autoImplicit false

namespace Onyxup.Lib.Memory

variable {α : Type}

/-! ## Copies into a block -/

/-- The block `cells` after `data` has been copied to position `start`. -/
def overwrite (cells : List α) (start : Nat) (data : List α) : List α :=
  cells.take start ++ data ++ cells.drop (start + data.length)

/-- A copy that stays inside the block does not change its size. -/
theorem length_overwrite {cells data : List α} {start : Nat}
    (inside : start + data.length ≤ cells.length) :
    (overwrite cells start data).length = cells.length := by
  simp only [overwrite, List.length_append, List.length_take, List.length_drop]
  omega

/-- The copied range reads back as the data. -/
theorem slice_overwrite {cells data : List α} {start : Nat}
    (inside : start ≤ cells.length) :
    ((overwrite cells start data).drop start).take data.length = data := by
  have width : (cells.take start).length = start := by
    rw [List.length_take, Nat.min_eq_left inside]
  rw [overwrite, List.append_assoc, List.drop_left' width, List.take_left]

/-! ## Machine integers -/

/-- Conversion to `int`: the representative modulo `2 ^ 32` in `[-2 ^ 31, 2 ^ 31)`. -/
def toInt32 (value : Int) : Int :=
  let residue := value % 4294967296
  if residue < 2147483648 then residue else residue - 4294967296

/-- Conversion to `size_t`: the residue modulo `2 ^ 64`. -/
def toSizeT (value : Int) : Nat :=
  (value % 18446744073709551616).toNat

theorem toInt32_bounds (value : Int) :
    -2147483648 ≤ toInt32 value ∧ toInt32 value < 2147483648 := by
  simp only [toInt32]
  split <;> omega

theorem toInt32_of_small {value : Int} (lower : -2147483648 ≤ value)
    (upper : value < 2147483648) : toInt32 value = value := by
  simp only [toInt32]
  split <;> omega

theorem toSizeT_of_small {value : Int} (lower : 0 ≤ value)
    (upper : value < 18446744073709551616) : (toSizeT value : Int) = value := by
  simp only [toSizeT]
  omega

/-- A negative `int` converts to a `size_t` beyond every object size. -/
theorem toSizeT_of_negative {value : Int} (lower : -2147483648 ≤ value)
    (negative : value < 0) :
    (toSizeT value : Int) = value + 18446744073709551616 := by
  simp only [toSizeT]
  omega

end Onyxup.Lib.Memory
