import Mathlib.Data.List.Forall2

/-!
Contract: computations that return a value or raise a fault.

Owns: how success and failure of a sequence, and of a loop over a list, come
from those of the parts, and when two representations of a computation agree.

Does not own: which faults there are.
-/

set_option autoImplicit false

namespace Onyxup.Lib.Fallible

variable {ε α β : Type}

/-- A successful sequence is a success of both halves. -/
theorem bind_ok {first : Except ε α} {next : α → Except ε β} {value : β}
    (succeeds : (first >>= next) = .ok value) :
    ∃ middle, first = .ok middle ∧ next middle = .ok value := by
  cases first with
  | ok middle => exact ⟨middle, rfl, succeeds⟩
  | error => cases succeeds

/-- A failing sequence fails in one of its halves. -/
theorem bind_error {first : Except ε α} {next : α → Except ε β} {fault : ε}
    (fails : (first >>= next) = .error fault) :
    first = .error fault ∨ ∃ middle, first = .ok middle ∧ next middle = .error fault := by
  cases first with
  | ok middle => exact .inr ⟨middle, rfl, fails⟩
  | error other =>
      cases fails
      exact .inl rfl

/-- A loop that ends has succeeded on every element. -/
theorem mapM_ok (run : α → Except ε β) :
    ∀ {inputs : List α} {outputs : List β}, inputs.mapM run = .ok outputs →
      List.Forall₂ (fun input output => run input = .ok output) inputs outputs := by
  intro inputs
  induction inputs with
  | nil =>
      intro outputs succeeds
      cases succeeds
      exact .nil
  | cons head tail inductionHypothesis =>
      intro outputs succeeds
      rw [List.mapM_cons] at succeeds
      obtain ⟨first, headDone, succeeds⟩ := bind_ok succeeds
      obtain ⟨rest, tailDone, succeeds⟩ := bind_ok succeeds
      cases succeeds
      exact .cons headDone (inductionHypothesis tailDone)

/-- A loop that succeeds on every element ends. -/
theorem mapM_of_forall₂ (run : α → Except ε β) {inputs : List α} {outputs : List β}
    (each : List.Forall₂ (fun input output => run input = .ok output) inputs outputs) :
    inputs.mapM run = .ok outputs := by
  induction each with
  | nil => rfl
  | cons headDone _ inductionHypothesis =>
      rw [List.mapM_cons, headDone, inductionHypothesis]
      rfl

/-- Every output of a loop comes from an input. -/
theorem exists_of_mem {relation : α → β → Prop} {inputs : List α} {outputs : List β}
    (related : List.Forall₂ relation inputs outputs) {output : β} (member : output ∈ outputs) :
    ∃ input ∈ inputs, relation input output := by
  induction related with
  | nil => cases member
  | cons headRelated _ inductionHypothesis =>
      rcases List.mem_cons.mp member with rfl | later
      · exact ⟨_, List.mem_cons_self, headRelated⟩
      · obtain ⟨input, belongs, holds⟩ := inductionHypothesis later
        exact ⟨input, List.mem_cons_of_mem _ belongs, holds⟩

/-- A loop that fails has failed on some element. -/
theorem mapM_error (run : α → Except ε β) {fault : ε} :
    ∀ {inputs : List α}, inputs.mapM run = .error fault →
      ∃ input ∈ inputs, run input = .error fault := by
  intro inputs
  induction inputs with
  | nil => intro fails; cases fails
  | cons head tail inductionHypothesis =>
      intro fails
      rw [List.mapM_cons] at fails
      rcases bind_error fails with headFails | ⟨first, _, fails⟩
      · exact ⟨head, List.mem_cons_self, headFails⟩
      · rcases bind_error fails with tailFails | ⟨rest, _, impossible⟩
        · obtain ⟨input, member, failed⟩ := inductionHypothesis tailFails
          exact ⟨input, List.mem_cons_of_mem _ member, failed⟩
        · cases impossible

/-- A loop with an accumulator that fails has failed in some turn. -/
theorem foldlM_error (run : β → α → Except ε β) {fault : ε} :
    ∀ {inputs : List α} {start : β}, inputs.foldlM run start = .error fault →
      ∃ state, ∃ input ∈ inputs, run state input = .error fault := by
  intro inputs
  induction inputs with
  | nil => intro start fails; cases fails
  | cons head tail inductionHypothesis =>
      intro start fails
      rw [List.foldlM_cons] at fails
      rcases bind_error fails with headFails | ⟨next, _, tailFails⟩
      · exact ⟨start, head, List.mem_cons_self, headFails⟩
      · obtain ⟨state, input, member, failed⟩ := inductionHypothesis tailFails
        exact ⟨state, input, List.mem_cons_of_mem _ member, failed⟩

/-! ## Two representations -/

section Views

variable {α' β' : Type}

/-- Two sequences agree if their halves do. -/
theorem bind_view {first : Except ε α} {next : α → Except ε β} {other : Except ε α'}
    {otherNext : α' → Except ε β'} (middleView : α → α') (view : β → β')
    (same : first.map middleView = other)
    (nextSame : ∀ middle, (next middle).map view = otherNext (middleView middle)) :
    (first >>= next).map view = other >>= otherNext := by
  subst same
  cases first with
  | ok middle => exact nextSame middle
  | error fault => rfl

/-- Two loops with an accumulator agree if their turns do. -/
theorem foldlM_view {run : β → α → Except ε β} {other : β' → α → Except ε β'} (view : β → β')
    (same : ∀ state input, (run state input).map view = other (view state) input)
    (inputs : List α) (start : β) :
    (inputs.foldlM run start).map view = inputs.foldlM other (view start) := by
  induction inputs generalizing start with
  | nil => rfl
  | cons head tail inductionHypothesis =>
      rw [List.foldlM_cons, List.foldlM_cons]
      exact bind_view view view (same start head) inductionHypothesis

/-- Two loops agree if they do on every element. -/
theorem mapM_view {run : α → Except ε β} {other : α → Except ε β'} (view : β → β')
    (same : ∀ input, (run input).map view = other input) (inputs : List α) :
    (inputs.mapM run).map (List.map view) = inputs.mapM other := by
  induction inputs with
  | nil => rfl
  | cons head tail inductionHypothesis =>
      rw [List.mapM_cons, List.mapM_cons]
      apply bind_view view (List.map view) (same head)
      intro first
      apply bind_view (List.map view) (List.map view) inductionHypothesis
      intro rest
      rfl

end Views

end Onyxup.Lib.Fallible
