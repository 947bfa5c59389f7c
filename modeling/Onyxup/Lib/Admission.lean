import Mathlib.Init

/-!
Contract: a queue whose producer tests the number of waiting items first and
pushes later.

Owns: the part of such a system that the bound depends on, the moves between a
test and a push, and the invariant that bounds the queue through them.

Does not own: the items, the consumers and the schedule. A consumer only makes
the queue shorter, at any time.
-/

set_option autoImplicit false

namespace Onyxup.Lib.Admission

/-- How many items wait, and whether the producer holds one that has passed the
test and is not yet pushed. -/
structure Desk where
  waiting : Nat
  admitted : Bool

/-- `passes` says at which numbers of waiting items the test lets one through. -/
inductive Desk.Move (passes : Nat → Prop) (before after : Desk) : Prop where
  | fewer (waiting : after.waiting ≤ before.waiting)
      (admitted : after.admitted = true → before.admitted = true)
  | test (passed : passes before.waiting) (waiting : after.waiting = before.waiting)
  | push (held : before.admitted = true) (waiting : after.waiting = before.waiting + 1)
      (admitted : after.admitted = false)

/-- The waiting items and the one that is about to join them. -/
structure Within (bound : Nat) (desk : Desk) : Prop where
  waiting : desk.waiting ≤ bound
  admitted : desk.admitted = true → desk.waiting < bound

/-- A test that lets nothing through at the bound keeps the queue within it. -/
theorem Within.preserved {bound : Nat} {passes : Nat → Prop} {before after : Desk}
    (strict : ∀ count, passes count → count < bound) (within : Within bound before)
    (move : Desk.Move passes before after) : Within bound after := by
  cases move with
  | fewer waiting admitted =>
      constructor
      · exact Nat.le_trans waiting within.waiting
      · intro held
        exact Nat.lt_of_le_of_lt waiting (within.admitted (admitted held))
  | test passed waiting =>
      have room := strict before.waiting passed
      constructor
      · rw [waiting]
        exact Nat.le_of_lt room
      · intro _
        rw [waiting]
        exact room
  | push held waiting admitted =>
      constructor
      · rw [waiting]
        exact within.admitted held
      · intro impossible
        rw [admitted] at impossible
        cases impossible

end Onyxup.Lib.Admission
