import Mathlib.Data.List.DropRight
import Mathlib.Data.List.Infix

/-!
Contract: paths as texts, and where they lead without looking at a file system.

Owns: the walk over the segments of a path, with `.` and `..` resolved, the
places it can end in, and the law that a walk is a climb followed by a descent.

Does not own: links, and whether any of the names exists.

An absolute path cannot climb above its root; a relative one can, and `ups`
counts how far it has left the place where it started.
-/

set_option autoImplicit false

namespace Onyxup.Lib.LexicalPath

/-- One segment of a path. -/
inductive Segment (α : Type) where
  | here
  | up
  | name (label : α)
deriving DecidableEq, Repr

/-- Where a path leads: so many levels up, then down through these names. -/
@[ext] structure Place (α : Type) where
  ups : Nat
  names : List α
deriving DecidableEq, Repr

namespace Place

variable {α : Type}

def origin : Place α := ⟨0, []⟩

/-- `count` levels up. At the root of an absolute path `..` stays where it is. -/
def climb (rooted : Bool) (place : Place α) (count : Nat) : Place α :=
  ⟨if rooted then place.ups else place.ups + (count - place.names.length),
    place.names.take (place.names.length - count)⟩

/-- Down through `more`. -/
def descend (place : Place α) (more : List α) : Place α :=
  ⟨place.ups, place.names ++ more⟩

def step (rooted : Bool) (place : Place α) : Segment α → Place α
  | .here => place
  | .up => place.climb rooted 1
  | .name label => place.descend [label]

def walk (rooted : Bool) (place : Place α) (segments : List (Segment α)) : Place α :=
  segments.foldl (step rooted) place

/-- One place lies inside another: reached from it by going down. -/
def Inside (inner outer : Place α) : Prop :=
  inner.ups = outer.ups ∧ outer.names <+: inner.names

variable {rooted : Bool} {place : Place α}

@[simp] theorem descend_nil : place.descend [] = place := by
  simp [descend]

@[simp] theorem climb_zero : place.climb rooted 0 = place := by
  simp [climb]

theorem descend_descend (first second : List α) :
    (place.descend first).descend second = place.descend (first ++ second) := by
  simp [descend]

/-- One more level up. -/
theorem climb_succ (count : Nat) :
    (place.climb rooted count).climb rooted 1 = place.climb rooted (count + 1) := by
  ext1
  · cases rooted with
    | true => rfl
    | false =>
        simp only [climb, Bool.false_eq_true, if_false, List.length_take]
        omega
  · simp only [climb, List.length_take, List.take_take]
    congr 1
    omega

/-- Up again from a place that was reached by going down. -/
theorem climb_descend_concat (more : List α) (last : α) :
    (place.descend (more ++ [last])).climb rooted 1 = place.descend more := by
  have width : (place.names ++ (more ++ [last])).length =
      (place.names ++ more).length + 1 := by
    simp only [List.length_append, List.length_singleton]
    omega
  ext1
  · cases rooted with
    | true => rfl
    | false =>
        simp only [climb, descend, Bool.false_eq_true, if_false, width]
        omega
  · simp only [climb, descend, width, Nat.add_sub_cancel]
    rw [← List.append_assoc, List.take_left]

theorem walk_append (front back : List (Segment α)) :
    place.walk rooted (front ++ back) = (place.walk rooted front).walk rooted back :=
  List.foldl_append

theorem walk_concat (front : List (Segment α)) (last : Segment α) :
    place.walk rooted (front ++ [last]) = (place.walk rooted front).step rooted last := by
  rw [walk_append]
  rfl

/-- A walk is a climb followed by a descent, the same two from wherever it
starts. By induction on the segments, the last one split off. -/
theorem walk_eq (segments : List (Segment α)) :
    place.walk rooted segments =
      (place.climb rooted (walk false origin segments).ups).descend
        (walk false origin segments).names := by
  induction segments using List.reverseRecOn with
  | nil => simp [walk, origin]
  | append_singleton front last inductionHypothesis =>
      rw [walk_concat, walk_concat, inductionHypothesis]
      generalize walk false origin front = reduced
      obtain ⟨ups, names⟩ := reduced
      cases last with
      | here => rfl
      | name label => exact descend_descend names [label]
      | up =>
          induction names using List.reverseRecOn with
          | nil =>
              have climbed : (⟨ups, []⟩ : Place α).climb false 1 = ⟨ups + 1, []⟩ := by
                simp [climb]
              simp only [step, climbed, descend_nil]
              exact climb_succ ups
          | append_singleton more label _ =>
              have climbed : (⟨ups, more ++ [label]⟩ : Place α).climb false 1 =
                  ⟨ups, more⟩ := by
                have shortened := @climb_descend_concat α false ⟨ups, []⟩ more label
                simpa [descend] using shortened
              simp only [step, climbed]
              exact climb_descend_concat more label

end Place

/-! ## Paths as texts -/

section Texts

variable {σ : Type} [DecidableEq σ] (slash dot : σ)

/-- Empty segments and `.` stay, `..` climbs, everything else is a name. -/
def classify (segment : List σ) : Segment (List σ) :=
  if segment = [] ∨ segment = [dot] then .here
  else if segment = [dot, dot] then .up
  else .name segment

def segmentsOf (text : List σ) : List (Segment (List σ)) :=
  (text.splitOn slash).map (classify dot)

/-- A path is absolute when it starts with the separator. -/
def isRooted (text : List σ) : Bool :=
  text.head? = some slash

/-- Where a text leads from the place it is attached to. -/
def displacement (text : List σ) : Place (List σ) :=
  Place.walk false .origin (segmentsOf slash dot text)

/-- The lexical normalisation of a path. -/
def normalise (text : List σ) : Place (List σ) :=
  Place.walk (isRooted slash text) .origin (segmentsOf slash dot text)

/-- A path lies inside another: both are absolute or both relative, and its
normalisation is below the other's. -/
def LiesInside (inner outer : List σ) : Prop :=
  isRooted slash inner = isRooted slash outer ∧
    (normalise slash dot inner).Inside (normalise slash dot outer)

instance (inner outer : List σ) : Decidable (LiesInside slash dot inner outer) :=
  inferInstanceAs (Decidable (_ ∧ _ ∧ _))

/-- The text up to its last separator. -/
def stem (text : List σ) : List σ :=
  text.rdropWhile (· ≠ slash)

theorem stem_initial (text : List σ) : stem slash text <+: text :=
  List.rdropWhile_prefix _ _

/-- A stem is empty or ends with the separator. -/
theorem stem_cases (text : List σ) :
    stem slash text = [] ∨ ∃ front, stem slash text = front ++ [slash] := by
  by_cases empty : stem slash text = []
  · exact .inl empty
  · have last := List.rdropWhile_last_not (fun symbol => decide (symbol ≠ slash)) text empty
    refine .inr ⟨(stem slash text).dropLast, ?_⟩
    have isSlash : (stem slash text).getLast empty = slash := by
      simpa [stem] using last
    have joined := List.dropLast_append_getLast empty
    rw [isSlash] at joined
    exact joined.symm

theorem segmentsOf_append (front back : List σ) :
    segmentsOf slash dot (front ++ slash :: back) =
      segmentsOf slash dot front ++ segmentsOf slash dot back := by
  rw [segmentsOf, List.splitOn_append_cons_self, List.map_append]
  rfl

/-- A separator behind a text changes nothing. -/
theorem normalise_concat {text : List σ} (nonempty : text ≠ []) :
    normalise slash dot (text ++ [slash]) = normalise slash dot text := by
  have sameRoot : isRooted slash (text ++ [slash]) = isRooted slash text := by
    cases text with
    | nil => exact absurd rfl nonempty
    | cons => rfl
  have lastStays : segmentsOf slash dot (text ++ [slash]) =
      segmentsOf slash dot text ++ [.here] := by
    rw [segmentsOf_append]
    simp [segmentsOf, classify]
  rw [normalise, sameRoot, lastStays, Place.walk_concat]
  rfl

/-- What follows a stem is walked from the place the stem leads to. -/
theorem normalise_append {front : List σ} (back : List σ)
    (stemmed : front = [] ∨ ∃ before, front = before ++ [slash]) :
    normalise slash dot (front ++ back) =
      ((normalise slash dot front).climb (isRooted slash (front ++ back))
        (displacement slash dot back).ups).descend (displacement slash dot back).names := by
  rcases stemmed with rfl | ⟨before, rfl⟩
  · have stays : normalise slash dot ([] : List σ) = .origin := by
      simp [normalise, segmentsOf, classify, Place.walk, Place.step]
    rw [stays]
    exact Place.walk_eq _
  · have sameRoot : isRooted slash (before ++ [slash] ++ back) =
        isRooted slash (before ++ [slash]) := by
      cases before <;> rfl
    have sameStart : normalise slash dot (before ++ [slash]) =
        Place.walk (isRooted slash (before ++ [slash])) .origin
          (segmentsOf slash dot before) := by
      rw [normalise, segmentsOf_append, Place.walk_append]
      simp [segmentsOf, classify, Place.walk, Place.step]
    rw [sameRoot, sameStart, normalise, sameRoot, List.append_assoc, List.singleton_append,
      segmentsOf_append, Place.walk_append]
    exact Place.walk_eq _

end Texts

end Onyxup.Lib.LexicalPath
