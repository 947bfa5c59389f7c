import Mathlib.Data.Finset.Card
import Mathlib.Data.Finset.Range
import Mathlib.Logic.Function.Basic

/-!
Contract: places that are taken and left, with a counter for each of the two.

Owns: the account of a finite row of places, the bookings that can change it, and the
balance: as many have entered as have left and as are still there.

Does not own: what the places are. A booking that counts an entry without taking a place is
the one that breaks the balance.
-/

set_option autoImplicit false

namespace Onyxup.Lib.Occupancy

/-- Two counters, and which places are taken. -/
structure Account where
  entered : Nat
  left : Nat
  taken : Nat → Bool

/-- The places below `limit` that are taken. -/
def Account.occupied (limit : Nat) (account : Account) : Finset Nat :=
  (Finset.range limit).filter fun place => account.taken place = true

/-- What can happen to an account. -/
inductive Booking (limit : Nat) (mayLose : Prop) (before : Account) : Account → Prop where
  | kept : Booking limit mayLose before before
  | opened {place : Nat} (below : place < limit) (free : before.taken place = false) :
      Booking limit mayLose before
        ⟨before.entered + 1, before.left, Function.update before.taken place true⟩
  | closed {place : Nat} (was : before.taken place = true) :
      Booking limit mayLose before
        ⟨before.entered, before.left + 1, Function.update before.taken place false⟩
  | lost (loses : mayLose) :
      Booking limit mayLose before ⟨before.entered + 1, before.left, before.taken⟩

/-- Only places below `limit` are taken, and nobody is missing. -/
structure Balanced (limit : Nat) (account : Account) : Prop where
  inside : ∀ place, account.taken place = true → place < limit
  even : account.entered = account.left + (account.occupied limit).card

section Bookings

variable {limit place : Nat} {before after : Account} {mayLose : Prop}

private theorem occupied_opened (entered left : Nat) (below : place < limit) :
    (Account.mk entered left (Function.update before.taken place true)).occupied limit =
      insert place (before.occupied limit) := by
  ext other
  simp only [Account.occupied, Finset.mem_filter, Finset.mem_range, Finset.mem_insert]
  by_cases same : other = place
  · rw [same, Function.update_self]
    simp [below]
  · rw [Function.update_of_ne same, or_iff_right same]

private theorem occupied_closed (entered left : Nat) :
    (Account.mk entered left (Function.update before.taken place false)).occupied limit =
      (before.occupied limit).erase place := by
  ext other
  simp only [Account.occupied, Finset.mem_filter, Finset.mem_range, Finset.mem_erase]
  by_cases same : other = place
  · rw [same, Function.update_self]
    simp
  · rw [Function.update_of_ne same, and_iff_right same]

/-- A booking that loses nobody keeps the balance. -/
theorem Booking.balanced (booking : Booking limit mayLose before after) (keeps : ¬ mayLose)
    (balanced : Balanced limit before) : Balanced limit after := by
  have even := balanced.even
  cases booking with
  | kept => exact balanced
  | @opened place below free =>
      have missing : place ∉ before.occupied limit := by
        simp [Account.occupied, free]
      refine ⟨?_, ?_⟩
      · intro other isTaken
        dsimp only at isTaken
        by_cases same : other = place
        · rw [same]
          exact below
        · rw [Function.update_of_ne same] at isTaken
          exact balanced.inside other isTaken
      · rw [occupied_opened _ _ below, Finset.card_insert_of_notMem missing]
        dsimp only
        omega
  | @closed place was =>
      have present : place ∈ before.occupied limit := by
        simp [Account.occupied, was, balanced.inside place was]
      refine ⟨?_, ?_⟩
      · intro other isTaken
        dsimp only at isTaken
        by_cases same : other = place
        · rw [same, Function.update_self] at isTaken
          cases isTaken
        · rw [Function.update_of_ne same] at isTaken
          exact balanced.inside other isTaken
      · have positive := Finset.card_pos.mpr ⟨place, present⟩
        rw [occupied_closed, Finset.card_erase_of_mem present]
        dsimp only
        omega
  | lost loses => exact absurd loses keeps

end Bookings

end Onyxup.Lib.Occupancy
