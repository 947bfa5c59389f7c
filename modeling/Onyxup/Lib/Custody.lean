import Mathlib.Data.List.Perm.Basic
import Mathlib.Logic.ExistsUnique

/-!
Contract: items that are handed from place to place.

Owns: the statement that every known item is in exactly one place, once, the rules
by which a hand-over and a new item keep it, and marks that an item gets on its
way.

Does not own: what the places are, and in which order a place keeps its items.
-/

set_option autoImplicit false

namespace Onyxup.Lib.Custody

variable {π ι : Type} {places after : π → List ι} {known : ι → Prop} {item : ι}
variable {source target : π}

/-- Every known item is in one place, and once there. -/
structure Kept (places : π → List ι) (known : ι → Prop) : Prop where
  once : ∀ place, (places place).Nodup
  apart : ∀ {first second : π} {item : ι},
    item ∈ places first → item ∈ places second → first = second
  all : ∀ item, known item ↔ ∃ place, item ∈ places place

/-- One item goes from one place to another. -/
structure Moved (places after : π → List ι) (item : ι) (source target : π) : Prop where
  apart : source ≠ target
  taken : (places source).Perm (item :: after source)
  given : (after target).Perm (item :: places target)
  others : ∀ place, place ≠ source → place ≠ target → after place = places place

/-- One item is new. -/
structure Added (places after : π → List ι) (item : ι) (target : π) : Prop where
  given : (after target).Perm (item :: places target)
  others : ∀ place, place ≠ target → after place = places place

theorem Moved.mem_source (moved : Moved places after item source target) :
    item ∈ places source :=
  moved.taken.mem_iff.mpr List.mem_cons_self

theorem Moved.mem_target (moved : Moved places after item source target) :
    item ∈ after target :=
  moved.given.mem_iff.mpr List.mem_cons_self

/-- What is in a place after the hand-over: the item in the target, or what was
there before. -/
theorem Moved.mem_after (moved : Moved places after item source target) {place : π}
    {other : ι} (member : other ∈ after place) :
    (other = item ∧ place = target) ∨ other ∈ places place := by
  by_cases atTarget : place = target
  · rw [atTarget] at member ⊢
    rcases List.mem_cons.mp (moved.given.mem_iff.mp member) with isItem | old
    · exact .inl ⟨isItem, rfl⟩
    · exact .inr old
  · by_cases atSource : place = source
    · rw [atSource] at member ⊢
      exact .inr (moved.taken.mem_iff.mpr (List.mem_cons_of_mem _ member))
    · rw [moved.others place atSource atTarget] at member
      exact .inr member

namespace Kept

/-- An item that is handed over is not left behind. -/
theorem not_mem_source (kept : Kept places known)
    (moved : Moved places after item source target) : item ∉ after source := by
  have distinct := (moved.taken.nodup_iff).mp (kept.once source)
  exact (List.nodup_cons.mp distinct).1

private theorem place_of_item (kept : Kept places known)
    (moved : Moved places after item source target) {place : π} (member : item ∈ after place) :
    place = target := by
  rcases moved.mem_after member with ⟨_, atTarget⟩ | old
  · exact atTarget
  · have atSource := kept.apart old moved.mem_source
    rw [atSource] at member
    exact absurd member (kept.not_mem_source moved)

theorem moved (kept : Kept places known) (moved : Moved places after item source target) :
    Kept after known where
  once := by
    intro place
    by_cases atTarget : place = target
    · rw [atTarget, moved.given.nodup_iff, List.nodup_cons]
      refine ⟨?_, kept.once target⟩
      intro there
      exact moved.apart (kept.apart moved.mem_source there)
    · by_cases atSource : place = source
      · have distinct := (moved.taken.nodup_iff).mp (kept.once source)
        rw [atSource]
        exact (List.nodup_cons.mp distinct).2
      · rw [moved.others place atSource atTarget]
        exact kept.once place
  apart := by
    intro first second other inFirst inSecond
    rcases moved.mem_after inFirst with ⟨rfl, atFirst⟩ | wasFirst
    · rw [atFirst, kept.place_of_item moved inSecond]
    · rcases moved.mem_after inSecond with ⟨rfl, atSecond⟩ | wasSecond
      · rw [atSecond, kept.place_of_item moved inFirst]
      · exact kept.apart wasFirst wasSecond
  all := by
    intro other
    rw [kept.all other]
    constructor
    · rintro ⟨place, member⟩
      by_cases isItem : other = item
      · exact ⟨target, isItem ▸ moved.mem_target⟩
      by_cases atSource : place = source
      · rw [atSource] at member
        rcases List.mem_cons.mp (moved.taken.mem_iff.mp member) with same | left
        · exact absurd same isItem
        · exact ⟨source, left⟩
      · by_cases atTarget : place = target
        · rw [atTarget] at member
          exact ⟨target, moved.given.mem_iff.mpr (List.mem_cons_of_mem _ member)⟩
        · exact ⟨place, moved.others place atSource atTarget ▸ member⟩
    · rintro ⟨place, member⟩
      rcases moved.mem_after member with ⟨rfl, _⟩ | old
      · exact ⟨source, moved.mem_source⟩
      · exact ⟨place, old⟩

/-- A new item becomes known. -/
theorem added {knownAfter : ι → Prop} (kept : Kept places known)
    (added : Added places after item target) (fresh : ¬ known item)
    (knows : ∀ other, knownAfter other ↔ known other ∨ other = item) :
    Kept after knownAfter := by
  have nowhere : ∀ place, item ∉ places place := by
    intro place member
    exact fresh ((kept.all item).mpr ⟨place, member⟩)
  have memAfter : ∀ {place : π} {other : ι}, other ∈ after place →
      (other = item ∧ place = target) ∨ other ∈ places place := by
    intro place other member
    by_cases atTarget : place = target
    · rw [atTarget] at member ⊢
      rcases List.mem_cons.mp (added.given.mem_iff.mp member) with isItem | old
      · exact .inl ⟨isItem, rfl⟩
      · exact .inr old
    · rw [added.others place atTarget] at member
      exact .inr member
  refine ⟨?_, ?_, ?_⟩
  · intro place
    by_cases atTarget : place = target
    · rw [atTarget, added.given.nodup_iff, List.nodup_cons]
      exact ⟨nowhere target, kept.once target⟩
    · rw [added.others place atTarget]
      exact kept.once place
  · intro first second other inFirst inSecond
    rcases memAfter inFirst with ⟨rfl, atFirst⟩ | wasFirst
    · rcases memAfter inSecond with ⟨_, atSecond⟩ | wasSecond
      · rw [atFirst, atSecond]
      · exact absurd wasSecond (nowhere _)
    · rcases memAfter inSecond with ⟨rfl, _⟩ | wasSecond
      · exact absurd wasFirst (nowhere _)
      · exact kept.apart wasFirst wasSecond
  · intro other
    rw [knows, kept.all other]
    constructor
    · rintro (⟨place, member⟩ | rfl)
      · by_cases atTarget : place = target
        · rw [atTarget] at member
          exact ⟨target, added.given.mem_iff.mpr (List.mem_cons_of_mem _ member)⟩
        · exact ⟨place, added.others place atTarget ▸ member⟩
      · exact ⟨target, added.given.mem_iff.mpr List.mem_cons_self⟩
    · rintro ⟨place, member⟩
      rcases memAfter member with ⟨isItem, _⟩ | old
      · exact .inr isItem
      · exact .inl ⟨place, old⟩

theorem existsUnique (kept : Kept places known) (knows : known item) :
    ∃! place, item ∈ places place := by
  obtain ⟨place, member⟩ := (kept.all item).mp knows
  exact ⟨place, member, fun other also => kept.apart also member⟩

end Kept

/-! ## Marks -/

/-- The items of the places in front of the mark do not have it, those of the
places behind it do, and only known items have it. -/
structure Marked (places : π → List ι) (known mark : ι → Prop) (front behind : π → Prop) :
    Prop where
  without : ∀ {place : π} {item : ι}, front place → item ∈ places place → ¬ mark item
  within : ∀ {place : π} {item : ι}, behind place → item ∈ places place → mark item
  only : ∀ item, mark item → known item

namespace Marked

variable {mark : ι → Prop} {front behind : π → Prop}

/-- A hand-over that does not go past the mark. -/
theorem moved (marks : Marked places known mark front behind)
    (moved : Moved places after item source target) (forth : front target → front source)
    (back : behind target → behind source) : Marked after known mark front behind where
  without := by
    intro place other isFront member
    rcases moved.mem_after member with ⟨rfl, rfl⟩ | old
    · exact marks.without (forth isFront) moved.mem_source
    · exact marks.without isFront old
  within := by
    intro place other isBehind member
    rcases moved.mem_after member with ⟨rfl, rfl⟩ | old
    · exact marks.within (back isBehind) moved.mem_source
    · exact marks.within isBehind old
  only := marks.only

/-- A hand-over past the mark: the item had not got it before. -/
theorem passed (marks : Marked places known mark front behind) (kept : Kept places known)
    (moved : Moved places after item source target) (outside : ¬ front target) :
    Marked after known (fun other => other = item ∨ mark other) front behind where
  without := by
    intro place other isFront member
    rcases moved.mem_after member with ⟨rfl, rfl⟩ | old
    · exact absurd isFront outside
    · rintro (rfl | already)
      · have atSource := kept.apart old moved.mem_source
        rw [atSource] at member
        exact kept.not_mem_source moved member
      · exact marks.without isFront old already
  within := by
    intro place other isBehind member
    rcases moved.mem_after member with ⟨isItem, _⟩ | old
    · exact .inl isItem
    · exact .inr (marks.within isBehind old)
  only := by
    rintro other (rfl | already)
    · exact (kept.all _).mpr ⟨source, moved.mem_source⟩
    · exact marks.only other already

/-- A new item comes in front of the mark. -/
theorem added {knownAfter : ι → Prop} (marks : Marked places known mark front behind)
    (added : Added places after item target) (fresh : ¬ known item)
    (outside : ¬ behind target) (knows : ∀ other, known other → knownAfter other) :
    Marked after knownAfter mark front behind where
  without := by
    intro place other isFront member
    by_cases atTarget : place = target
    · rw [atTarget] at member isFront
      rcases List.mem_cons.mp (added.given.mem_iff.mp member) with rfl | old
      · exact fun already => fresh (marks.only _ already)
      · exact marks.without isFront old
    · rw [added.others place atTarget] at member
      exact marks.without isFront member
  within := by
    intro place other isBehind member
    have elsewhere : place ≠ target := by
      rintro rfl
      exact outside isBehind
    rw [added.others place elsewhere] at member
    exact marks.within isBehind member
  only := fun other already => knows other (marks.only other already)

end Marked

end Onyxup.Lib.Custody
