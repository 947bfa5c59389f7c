import Onyxup.Lib.Transition

/-!
Contract: stretches of a run that cannot go on for ever.

Owns: pieces of a run that stay in a region, with the number of steps that count, and
the rule that a measure which every counted step lowers bounds that number.

Does not own: who else takes steps meanwhile. A step that does not count may come any
number of times, as long as it does not raise the measure.
-/

set_option autoImplicit false

namespace Onyxup.Lib.Transition

variable {σ α ε : Type}

/-- A piece of a run whose steps all start in `region`, and how many of them count. -/
inductive Stretch (system : System σ α ε) (region : σ → Prop) (counts : α → Bool) (start : σ) :
    Nat → σ → Prop where
  | refl : Stretch system region counts start 0 start
  | next {state after : σ} {action : α} {count : Nat}
      (before : Stretch system region counts start count state) (inside : region state)
      (enabled : system.enabled state action = true)
      (steps : system.step state action = .ok after) :
      Stretch system region counts start (count + if counts action then 1 else 0) after

/-- A run goes on through its stretches. -/
theorem Stretch.reachable {system : System σ α ε} {region : σ → Prop} {counts : α → Bool}
    {start after : σ} {count : Nat} (begun : Reachable system Unconditional start)
    (stretch : Stretch system region counts start count after) :
    Reachable system Unconditional after := by
  induction stretch with
  | refl => exact begun
  | next _ _ enabled steps inductionHypothesis =>
      exact inductionHypothesis.next enabled trivial steps

/-- What a measure has to do inside the region. -/
structure Measures (system : System σ α ε) (region : σ → Prop) (counts : α → Bool)
    (measure : σ → Nat) : Prop where
  lowers : ∀ state action after, region state → system.enabled state action = true →
    system.step state action = .ok after → counts action = true →
    measure after < measure state
  keeps : ∀ state action after, region state → system.enabled state action = true →
    system.step state action = .ok after → counts action = false →
    measure after ≤ measure state

/-- The steps that count are paid for by the measure. By induction on the stretch. -/
theorem Stretch.bounded {system : System σ α ε} {region : σ → Prop} {counts : α → Bool}
    {measure : σ → Nat} (measures : Measures system region counts measure) {start after : σ}
    {count : Nat} (stretch : Stretch system region counts start count after) :
    count + measure after ≤ measure start := by
  induction stretch with
  | refl => omega
  | @next state after action count before inside enabled steps inductionHypothesis =>
      cases counted : counts action with
      | true =>
          have lower := measures.lowers state action after inside enabled steps counted
          simp only [if_true]
          omega
      | false =>
          have same := measures.keeps state action after inside enabled steps counted
          simp only [Bool.false_eq_true, if_false]
          omega

/-- Run a list of actions as long as the region lasts, and count. -/
def System.pace (system : System σ α ε) (region : σ → Prop) [DecidablePred region]
    (counts : α → Bool) : σ → Nat → List α → Option (σ × Nat)
  | state, count, [] => some (state, count)
  | state, count, action :: rest =>
      if region state ∧ system.enabled state action = true then
        match system.step state action with
        | .ok after => system.pace region counts after (count + if counts action then 1 else 0) rest
        | .error _ => none
      else none

/-- What is paced is a stretch. -/
theorem System.stretch_of_pace {system : System σ α ε} {region : σ → Prop}
    [DecidablePred region] {counts : α → Bool} {start final : σ} {total : Nat} :
    ∀ {state : σ} {count : Nat} {actions : List α},
      Stretch system region counts start count state →
      system.pace region counts state count actions = some (final, total) →
      Stretch system region counts start total final
  | state, count, [], stretch, paced => by
      cases paced
      exact stretch
  | state, count, action :: rest, stretch, paced => by
      simp only [System.pace] at paced
      split at paced
      next allowed =>
        cases outcome : system.step state action with
        | ok after =>
            rw [outcome] at paced
            exact System.stretch_of_pace (stretch.next allowed.1 allowed.2 outcome) paced
        | error fault => rw [outcome] at paced; cases paced
      next => cases paced

/-- A stretch whose end passes a test. -/
theorem System.exists_of_pace (system : System σ α ε) {region : σ → Prop} [DecidablePred region]
    {counts : α → Bool} {start : σ} {actions : List α} (test : σ → Bool)
    (passes : (system.pace region counts start 0 actions).any (fun ends => test ends.1) = true) :
    ∃ final total, Stretch system region counts start total final ∧ test final = true := by
  cases paced : system.pace region counts start 0 actions with
  | none => rw [paced] at passes; cases passes
  | some ends =>
      rw [paced] at passes
      exact ⟨ends.1, ends.2, System.stretch_of_pace .refl paced, passes⟩

end Onyxup.Lib.Transition
