import Mathlib.Init

/-!
Contract: runs of a system whose steps may fault.

Owns: a labelled transition system with an environment condition `enabled` and
a partial `step`, the states reachable by runs whose steps all meet a given
condition, the invariant rule for them, and `replay`, which runs a list of
actions on a computer.

Does not own: any particular system, and no liveness. A step that faults ends
the run; nothing is reachable through it.
-/

set_option autoImplicit false

namespace Onyxup.Lib.Transition

variable {σ α ε : Type}

/-- `enabled` says which actions the environment can cause in a state, `step`
what the system does with them. -/
structure System (σ α ε : Type) where
  initial : σ → Prop
  enabled : σ → α → Bool
  step : σ → α → Except ε σ

/-- The states of the runs whose steps all meet `condition`. -/
inductive Reachable (system : System σ α ε) (condition : σ → α → Prop) : σ → Prop where
  | start {state : σ} (initial : system.initial state) :
      Reachable system condition state
  | next {state after : σ} {action : α}
      (before : Reachable system condition state)
      (enabled : system.enabled state action = true)
      (meets : condition state action)
      (steps : system.step state action = .ok after) :
      Reachable system condition after

/-- The condition that every step meets. -/
def Unconditional : σ → α → Prop := fun _ _ => True

instance (state : σ) (action : α) : Decidable (Unconditional state action) :=
  inferInstanceAs (Decidable True)

/-- A run under a condition is a run under every weaker one. -/
theorem Reachable.weaken {system : System σ α ε} {strong weak : σ → α → Prop}
    (implies : ∀ state action, strong state action → weak state action) {state : σ}
    (reachable : Reachable system strong state) : Reachable system weak state := by
  induction reachable with
  | start initial => exact .start initial
  | next _ enabled meets steps inductionHypothesis =>
      exact .next inductionHypothesis enabled (implies _ _ meets) steps

/-- What holds initially and is preserved by every step that meets the
condition holds in every state of every such run. -/
theorem Reachable.invariant {system : System σ α ε} {condition : σ → α → Prop}
    {holds : σ → Prop}
    (initially : ∀ state, system.initial state → holds state)
    (preserved : ∀ state action after, holds state → system.enabled state action = true →
      condition state action → system.step state action = .ok after → holds after)
    {state : σ} (reachable : Reachable system condition state) : holds state := by
  induction reachable with
  | start initial => exact initially _ initial
  | next _ enabled meets steps inductionHypothesis =>
      exact preserved _ _ _ inductionHypothesis enabled meets steps

/-- Run a list of actions, as long as each is enabled, meets the condition and
does not fault. -/
def System.replay (system : System σ α ε) (condition : σ → α → Prop)
    [∀ state action, Decidable (condition state action)] : σ → List α → Option σ
  | state, [] => some state
  | state, action :: rest =>
      if system.enabled state action = true ∧ condition state action then
        match system.step state action with
        | .ok after => system.replay condition after rest
        | .error _ => none
      else none

/-- What a replay ends in is reachable. -/
theorem System.reachable_of_replay (system : System σ α ε) {condition : σ → α → Prop}
    [∀ state action, Decidable (condition state action)] {final : σ} :
    ∀ {state : σ} {actions : List α},
      Reachable system condition state →
      system.replay condition state actions = some final →
      Reachable system condition final
  | state, [], reachable, replayed => by
      cases replayed
      exact reachable
  | state, action :: rest, reachable, replayed => by
      simp only [System.replay] at replayed
      split at replayed
      next allowed =>
        cases outcome : system.step state action with
        | ok after =>
            rw [outcome] at replayed
            exact system.reachable_of_replay
              (reachable.next allowed.1 allowed.2 outcome) replayed
        | error fault => rw [outcome] at replayed; cases replayed
      next => cases replayed

/-- A replay from an initial state whose end passes a test. -/
theorem System.exists_of_replay (system : System σ α ε) {condition : σ → α → Prop}
    [∀ state action, Decidable (condition state action)] {start : σ} {actions : List α}
    (initial : system.initial start) (test : σ → Bool)
    (passes : (system.replay condition start actions).any test = true) :
    ∃ state, Reachable system condition state ∧ test state = true := by
  cases replayed : system.replay condition start actions with
  | none => rw [replayed] at passes; cases passes
  | some state =>
      rw [replayed] at passes
      exact ⟨state, system.reachable_of_replay (.start initial) replayed, passes⟩

end Onyxup.Lib.Transition
