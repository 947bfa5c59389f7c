import Onyxup.Lib.Transition

/-!
Contract: a system that behaves like a simpler one, as far as an observer can tell.

Owns: runs with the events they show, and the forward simulation that carries them
from one system to another. A step that shows nothing may have no counterpart.

Does not own: what the two systems are.
-/

set_option autoImplicit false

namespace Onyxup.Lib.Transition

variable {σ τ α β ε ζ ω : Type}

/-- The states of all runs, each with the events that the run has shown. -/
inductive Emits (system : System σ α ε) (visible : σ → α → Option ω) : σ → List ω → Prop where
  | start {state : σ} (initial : system.initial state) : Emits system visible state []
  | next {state after : σ} {action : α} {events : List ω}
      (before : Emits system visible state events)
      (enabled : system.enabled state action = true)
      (steps : system.step state action = .ok after) :
      Emits system visible after (events ++ (visible state action).toList)

/-- Every state of a run has shown some events. -/
theorem Reachable.emits {system : System σ α ε} (visible : σ → α → Option ω) {state : σ}
    (reachable : Reachable system Unconditional state) :
    ∃ events, Emits system visible state events := by
  induction reachable with
  | start initial => exact ⟨[], .start initial⟩
  | next _ enabled _ steps inductionHypothesis =>
      obtain ⟨events, emitted⟩ := inductionHypothesis
      exact ⟨_, emitted.next enabled steps⟩

/-- A run that shows events is a run. -/
theorem Emits.reachable {system : System σ α ε} {visible : σ → α → Option ω} {state : σ}
    {events : List ω} (emitted : Emits system visible state events) :
    Reachable system Unconditional state := by
  induction emitted with
  | start initial => exact .start initial
  | next _ enabled steps inductionHypothesis =>
      exact inductionHypothesis.next enabled trivial steps

/-- Run a list of actions and write down what they show. -/
def System.record (system : System σ α ε) (visible : σ → α → Option ω) :
    σ → List ω → List α → Option (σ × List ω)
  | state, events, [] => some (state, events)
  | state, events, action :: rest =>
      if system.enabled state action then
        match system.step state action with
        | .ok after => system.record visible after (events ++ (visible state action).toList) rest
        | .error _ => none
      else none

/-- What a recording ends in has been shown by a run. -/
theorem System.emits_of_record {system : System σ α ε} {visible : σ → α → Option ω} {final : σ}
    {shown : List ω} :
    ∀ {state : σ} {events : List ω} {actions : List α}, Emits system visible state events →
      system.record visible state events actions = some (final, shown) →
      Emits system visible final shown
  | state, events, [], emitted, recorded => by
      cases recorded
      exact emitted
  | state, events, action :: rest, emitted, recorded => by
      simp only [System.record] at recorded
      split at recorded
      next enabled =>
        cases outcome : system.step state action with
        | ok after =>
            rw [outcome] at recorded
            exact System.emits_of_record (emitted.next enabled outcome) recorded
        | error fault => rw [outcome] at recorded; cases recorded
      next => cases recorded

/-- A recording from an initial state that shows given events. -/
theorem System.exists_of_record {system : System σ α ε}
    {visible : σ → α → Option ω} {start : σ} {actions : List α} {shown : List ω}
    (initial : system.initial start)
    (shows : ((system.record visible start [] actions).map Prod.snd) = some shown) :
    ∃ state, Emits system visible state shown := by
  obtain ⟨⟨state, events⟩, recorded, same⟩ := Option.map_eq_some_iff.mp shows
  cases same
  exact ⟨state, System.emits_of_record (.start initial) recorded⟩

/-- Every concrete step shows nothing and keeps the relation, or has an abstract
step that shows the same. -/
structure Simulation (concrete : System σ α ε) (visible : σ → α → Option ω)
    (abstract : System τ β ζ) (shown : τ → β → Option ω) (relates : σ → τ → Prop) : Prop where
  starts : ∀ state, concrete.initial state → ∃ image, abstract.initial image ∧ relates state image
  follows : ∀ state image action after, relates state image →
    concrete.enabled state action = true → concrete.step state action = .ok after →
    (visible state action = none ∧ relates after image) ∨
      ∃ move next, abstract.enabled image move = true ∧ abstract.step image move = .ok next ∧
        shown image move = visible state action ∧ relates after next

/-- What the concrete system shows, the abstract one can show. -/
theorem Simulation.emits {concrete : System σ α ε} {visible : σ → α → Option ω}
    {abstract : System τ β ζ} {shown : τ → β → Option ω} {relates : σ → τ → Prop}
    (simulation : Simulation concrete visible abstract shown relates) {state : σ}
    {events : List ω} (emitted : Emits concrete visible state events) :
    ∃ image, relates state image ∧ Emits abstract shown image events := by
  induction emitted with
  | start initial =>
      obtain ⟨image, starts, related⟩ := simulation.starts _ initial
      exact ⟨image, related, .start starts⟩
  | next _ enabled steps inductionHypothesis =>
      obtain ⟨image, related, shows⟩ := inductionHypothesis
      rcases simulation.follows _ _ _ _ related enabled steps with
        ⟨silent, still⟩ | ⟨move, next, movable, moves, same, still⟩
      · rw [silent, Option.toList_none, List.append_nil]
        exact ⟨image, still, shows⟩
      · rw [← same]
        exact ⟨next, still, shows.next movable moves⟩

end Onyxup.Lib.Transition
