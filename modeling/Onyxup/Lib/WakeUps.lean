import Mathlib.Algebra.BigOperators.Group.Finset.Basic
import Onyxup.Lib.Monitor

/-!
Contract: monitors whose threads sleep for want of something countable.

Owns: the books of notifications and of threads on their way, the theorem that no
wake-up is lost, and the bound on what the threads do by themselves.

Does not own: fairness. Which thread gets the mutex next is open.

A notification is sent from inside the section, before the sender has left the
mutex. The thread that it wakes may find the mutex taken by another one that takes
what it was woken for; then it goes back to sleep.
-/

set_option autoImplicit false

namespace Onyxup.Lib.Monitor

open Onyxup.Lib.Transition

variable {θ δ κ ρ ν : Type}

/-- Threads that are on their way to the data: a notification has reached them, or
they are inside. -/
def Phase.awake (blocking : κ → Bool) : Phase κ ρ ν → Nat
  | .inside call _ _ => (blocking call).toNat
  | .woken _ => 1
  | _ => 0

/-- The notifications of the section that is running. -/
def Phase.notified : Phase κ ρ ν → Nat
  | .inside _ _ notified => notified
  | _ => 0

/-- A quantity of the phases, summed up over all threads. -/
def total [Fintype θ] (quantity : Phase κ ρ ν → Nat) (state : State θ δ κ ρ ν) : Nat :=
  ∑ thread, quantity (state.phase thread)

/-- The sections that sleep do so for want of something that `level` counts. A
section adds at most one for every notification it sends, and one that can sleep
takes one and sends none. -/
structure Counted (sections : Sections δ κ ρ ν) (blocking : κ → Bool) (level : δ → Nat) :
    Prop where
  sleeps : ∀ {call before count line data}, Reaches sections call before count line data →
    sections.line line data = .sleep → blocking call = true ∧ level before = 0
  finishes : ∀ {call before count line data result},
    Reaches sections call before count line data → sections.line line data = .finish result →
    level data + (blocking call).toNat ≤ level before + count
  silent : ∀ {call before count line data}, Reaches sections call before count line data →
    blocking call = true → count = 0

/-- While somebody sleeps, every unit of the level has a thread that is on its way. -/
structure Credited (sections : Sections δ κ ρ ν) (blocking : κ → Bool) (level : δ → Nat)
    [Fintype θ] (state : State θ δ κ ρ ν) (base : δ) : Prop
    extends Guarded sections state base where
  waits : ∀ thread call, state.phase thread = .asleep call ∨ state.phase thread = .woken call →
    blocking call = true
  credit : (∃ thread, (state.phase thread).isAsleep = true) →
    level base + total Phase.notified state ≤ total (Phase.awake blocking) state

section WakeUps

variable {sections : Sections δ κ ρ ν} {blocking : κ → Bool} {level : δ → Nat}
variable {effect : κ → δ → Option (δ × ρ)} {state after : State θ δ κ ρ ν} {base next : δ}
variable {action : Action θ κ} {thread : θ} {phase : Phase κ ρ ν}

private theorem total_notified_of_free [Fintype θ] (guarded : Guarded sections state base)
    (free : state.mutex = none) : total Phase.notified state = 0 := by
  apply Finset.sum_eq_zero
  intro thread _
  cases within : state.phase thread with
  | inside call line notified =>
      have holds := guarded.exclusive thread (by rw [within]; rfl)
      rw [free] at holds
      cases holds
  | _ => rfl

variable [DecidableEq θ]

private theorem asleep_of_to (awake : phase.isAsleep = false)
    (sleeps : ∃ other, ((state.to thread phase).phase other).isAsleep = true) :
    ∃ other, (state.phase other).isAsleep = true := by
  obtain ⟨other, isAsleep⟩ := sleeps
  by_cases same : other = thread
  · rw [same, State.to_self, awake] at isAsleep
    cases isAsleep
  · rw [State.to_other same] at isAsleep
    exact ⟨other, isAsleep⟩

private theorem waits_of_to
    (waits : ∀ thread call, state.phase thread = .asleep call ∨ state.phase thread = .woken call →
      blocking call = true)
    (mine : ∀ call, phase = .asleep call ∨ phase = .woken call → blocking call = true) :
    ∀ other call, (state.to thread phase).phase other = .asleep call ∨
      (state.to thread phase).phase other = .woken call → blocking call = true := by
  intro other call
  by_cases same : other = thread
  · rw [same, State.to_self]
    exact mine call
  · rw [State.to_other same]
    exact waits other call

variable [Fintype θ]

theorem total_to (quantity : Phase κ ρ ν → Nat) (state : State θ δ κ ρ ν) (thread : θ)
    (phase : Phase κ ρ ν) :
    total quantity (state.to thread phase) + quantity (state.phase thread) =
      total quantity state + quantity phase := by
  have before := Finset.add_sum_erase Finset.univ (fun other => quantity (state.phase other))
    (Finset.mem_univ thread)
  have later := Finset.add_sum_erase Finset.univ
    (fun other => quantity ((state.to thread phase).phase other)) (Finset.mem_univ thread)
  have others : ∑ other ∈ Finset.univ.erase thread, quantity ((state.to thread phase).phase other) =
      ∑ other ∈ Finset.univ.erase thread, quantity (state.phase other) := by
    apply Finset.sum_congr rfl
    intro other member
    rw [State.to_other (Finset.ne_of_mem_erase member)]
  rw [others, State.to_self] at later
  unfold total
  omega

private theorem credit_to
    (credit : level base + total Phase.notified state ≤ total (Phase.awake blocking) state)
    (balanced : level next + phase.notified + (state.phase thread).awake blocking ≤
      level base + (state.phase thread).notified + phase.awake blocking) :
    level next + total Phase.notified (state.to thread phase) ≤
      total (Phase.awake blocking) (state.to thread phase) := by
  have notifications := total_to Phase.notified state thread phase
  have onTheirWay := total_to (Phase.awake blocking) state thread phase
  omega

/-- Every step keeps the books. -/
theorem Credited.step (correct : Implements sections effect)
    (counted : Counted sections blocking level)
    (credited : Credited sections blocking level state base)
    (step : Step sections state action after) :
    Credited sections blocking level after (rebase sections state base action) := by
  have guarded := credited.toGuarded.step correct step
  have waits := credited.waits
  have credit := credited.credit
  refine ⟨guarded, ?_, ?_⟩
  · cases step with
    | call isIdle => exact waits_of_to waits (by simp)
    | lock free wants => exact waits_of_to waits (by simp)
    | go within goes => exact waits_of_to waits (by simp)
    | @sleep thread call line notified within sleeps =>
        have isBlocking := (counted.sleeps (credited.inside thread _ _ _ within) sleeps).1
        refine waits_of_to waits ?_
        rintro _ (same | same)
        · cases same
          exact isBlocking
        · cases same
    | finish within finishes => exact waits_of_to waits (by simp)
    | @notifyOne thread sleeper call waiting line next notified within notifies isAsleep =>
        refine waits_of_to (waits_of_to waits ?_) (by simp)
        rintro _ (same | same)
        · cases same
        · cases same
          exact waits sleeper waiting (.inl isAsleep)
    | notifyNobody within notifies nobody => exact waits_of_to waits (by simp)
    | unlock leaves => exact waits_of_to waits (by simp)
    | @wake thread call isAsleep =>
        refine waits_of_to waits ?_
        rintro _ (same | same)
        · cases same
        · cases same
          exact waits thread call (.inl isAsleep)
  · intro sleeps
    cases step with
    | call isIdle => exact credit_to (credit (asleep_of_to rfl sleeps)) (by rw [isIdle]; rfl)
    | @lock thread call free wants =>
        apply credit_to (credit (asleep_of_to rfl sleeps))
        rcases wants with enters | wakes
        · rw [enters]
          simp [Phase.notified, Phase.awake, rebase]
        · rw [wakes]
          simp [Phase.notified, Phase.awake, rebase, waits thread call (.inr wakes)]
    | @go thread call line next notified data within goes =>
        apply credit_to (credit (asleep_of_to rfl sleeps))
        simp [Phase.notified, Phase.awake, rebase, within, goes]
    | @sleep thread call line notified within falls =>
        have empty := (counted.sleeps (credited.inside thread _ _ _ within) falls).2
        rw [total_notified_of_free guarded rfl]
        simp [rebase, within, falls, empty]
    | @finish thread call line notified result within finishes =>
        have spent := counted.finishes (credited.inside thread _ _ _ within) finishes
        apply credit_to (credit (asleep_of_to rfl sleeps))
        simp only [Phase.notified, Phase.awake, rebase, within, finishes]
        omega
    | @notifyOne thread sleeper call waiting line next notified within notifies isAsleep =>
        have apart : thread ≠ sleeper := by
          rintro rfl
          rw [within] at isAsleep
          cases isAsleep
        have before := credit ⟨sleeper, by rw [isAsleep]; rfl⟩
        have notifications := total_to Phase.notified state sleeper (.woken waiting)
        have onTheirWay := total_to (Phase.awake blocking) state sleeper (.woken waiting)
        rw [isAsleep] at notifications onTheirWay
        simp only [Phase.notified, Phase.awake] at notifications onTheirWay
        have further := total_to Phase.notified (state.to sleeper (.woken waiting)) thread
          (.inside call next (notified + 1))
        have still := total_to (Phase.awake blocking) (state.to sleeper (.woken waiting)) thread
          (.inside call next (notified + 1))
        rw [State.to_other apart, within] at further still
        simp only [Phase.notified, Phase.awake] at further still
        simp only [rebase]
        omega
    | @notifyNobody thread call line next notified within notifies nobody =>
        obtain ⟨other, isAsleep⟩ := asleep_of_to rfl sleeps
        rw [nobody other] at isAsleep
        cases isAsleep
    | unlock leaves => exact credit_to (credit (asleep_of_to rfl sleeps)) (by rw [leaves]; rfl)
    | @wake thread call isAsleep =>
        apply credit_to (credit ⟨thread, by rw [isAsleep]; rfl⟩)
        simp [Phase.notified, Phase.awake, rebase, isAsleep]

theorem Credited.of_reachable (correct : Implements sections effect)
    (counted : Counted sections blocking level) {initial : δ}
    (reachable : Reachable (machine sections initial) Unconditional state) :
    ∃ base, Credited sections blocking level state base := by
  induction reachable with
  | @start state initially =>
      obtain ⟨data, free, idle⟩ := initially
      refine ⟨initial, .initially data free idle, ?_, ?_⟩
      · intro thread call waits
        rw [idle thread] at waits
        rcases waits with impossible | impossible <;> cases impossible
      · rintro ⟨thread, isAsleep⟩
        rw [idle thread] at isAsleep
        cases isAsleep
  | next _ enabled _ steps inductionHypothesis =>
      obtain ⟨base, credited⟩ := inductionHypothesis
      exact ⟨_, credited.step correct counted (step_of_machine enabled steps)⟩

/-! ## Going on without new calls -/

/-- The steps that the threads make by themselves: no new call, no wake-up without a
reason. -/
def Action.internal : Action θ κ → Bool
  | .call _ _ => false
  | .wake _ => false
  | _ => true

/-- A number of internal steps one after the other. -/
inductive Continues (sections : Sections δ κ ρ ν) (state : State θ δ κ ρ ν) :
    Nat → State θ δ κ ρ ν → Prop where
  | here : Continues sections state 0 state
  | step {count : Nat} {middle after : State θ δ κ ρ ν} {action : Action θ κ}
      (front : Continues sections state count middle) (isInternal : action.internal = true)
      (attempted : attempt sections middle action = some (.ok after)) :
      Continues sections state (count + 1) after

/-- No thread can go on by itself. -/
def Quiescent (sections : Sections δ κ ρ ν) (state : State θ δ κ ρ ν) : Prop :=
  ∀ action : Action θ κ, action.internal = true → attempt sections state action = none

/-- Where no thread can go on by itself, the mutex is free, every call has returned or
sleeps, and nobody sleeps while there is something to take. -/
theorem Credited.quiescent (credited : Credited sections blocking level state base)
    (quiescent : Quiescent sections state) :
    state.mutex = none ∧
      (∀ thread, state.phase thread = .idle ∨ (state.phase thread).isAsleep = true) ∧
      ((∃ thread, (state.phase thread).isAsleep = true) → level state.data = 0) := by
  have outside : ∀ thread, (state.phase thread).owns = false := by
    intro thread
    cases within : state.phase thread with
    | inside call line notified =>
        have stuck := quiescent (.run thread) rfl
        simp only [attempt, within] at stuck
        cases instruction : sections.line line state.data with
        | go data next => simp [instruction] at stuck
        | notifyOne next =>
            -- a notification always finds a sleeper or nobody asleep
            by_cases nobody : ∀ other, (state.phase other).isAsleep = false
            · have silent := quiescent (.notify thread none) rfl
              simp [attempt, within, instruction, nobody] at silent
            · simp only [not_forall, Bool.not_eq_false] at nobody
              obtain ⟨sleeper, isAsleep⟩ := nobody
              have silent := quiescent (.notify thread (some sleeper)) rfl
              cases sleeping : state.phase sleeper with
              | asleep waiting => simp [attempt, within, instruction, sleeping] at silent
              | _ => rw [sleeping] at isAsleep; cases isAsleep
        | sleep => simp [instruction] at stuck
        | finish result => simp [instruction] at stuck
        | undefined => simp [instruction] at stuck
    | leaving result =>
        have stuck := quiescent (.unlock thread) rfl
        simp [attempt, within] at stuck
    | _ => rfl
  have free : state.mutex = none := by
    by_contra held
    obtain ⟨thread, holds⟩ := Option.ne_none_iff_exists'.mp held
    have owns := credited.owned thread holds
    rw [outside thread] at owns
    cases owns
  have resting : ∀ thread, state.phase thread = .idle ∨ (state.phase thread).isAsleep = true := by
    intro thread
    have owns := outside thread
    cases within : state.phase thread with
    | idle => exact .inl rfl
    | asleep call => exact .inr rfl
    | entering call =>
        have stuck := quiescent (.lock thread) rfl
        simp [attempt, free, within] at stuck
    | woken call =>
        have stuck := quiescent (.lock thread) rfl
        simp [attempt, free, within] at stuck
    | inside call line notified => rw [within] at owns; cases owns
    | leaving result => rw [within] at owns; cases owns
  refine ⟨free, resting, ?_⟩
  intro sleeps
  have credit := credited.credit sleeps
  have nobody : total (Phase.awake blocking) state = 0 := by
    apply Finset.sum_eq_zero
    intro thread _
    rcases resting thread with isIdle | isAsleep
    · rw [isIdle]
      rfl
    · cases sleeping : state.phase thread with
      | asleep call => rfl
      | _ => rw [sleeping] at isAsleep; cases isAsleep
  rw [credited.free free]
  omega

/-- Every line brings the section nearer to its end. -/
structure Ranked (sections : Sections δ κ ρ ν) (rank : ν → Nat) (bound : Nat) : Prop where
  start : ∀ call, rank (sections.start call) ≤ bound
  go : ∀ {line data after next}, sections.line line data = .go after next →
    rank next < rank line
  notifyOne : ∀ {line data next}, sections.line line data = .notifyOne next →
    rank next < rank line

/-- The steps that a section may still cause, those of the threads that it wakes
included. -/
def cost (blocking : κ → Bool) (bound : Nat) (call : κ) (remaining : Nat) : Nat :=
  if blocking call then remaining + 2 else remaining * (bound + 4) + 2

def Phase.weight (sections : Sections δ κ ρ ν) (blocking : κ → Bool) (rank : ν → Nat)
    (bound : Nat) : Phase κ ρ ν → Nat
  | .idle => 0
  | .entering call => cost blocking bound call (rank (sections.start call)) + 1
  | .inside call line _ => cost blocking bound call (rank line)
  | .leaving _ => 1
  | .asleep _ => 0
  | .woken call => cost blocking bound call (rank (sections.start call)) + 1

omit [DecidableEq θ] [Fintype θ] in
private theorem cost_lt {bound remaining fewer : Nat} (call : κ) (less : fewer < remaining) :
    cost blocking bound call fewer < cost blocking bound call remaining := by
  unfold cost
  split
  · omega
  · have product := Nat.mul_lt_mul_of_pos_right less (show 0 < bound + 4 by omega)
    omega

/-- An internal step uses up weight. -/
theorem Credited.weight_lt {rank : ν → Nat} {bound : Nat} (ranked : Ranked sections rank bound)
    (counted : Counted sections blocking level)
    (credited : Credited sections blocking level state base)
    (isInternal : action.internal = true) (step : Step sections state action after) :
    total (Phase.weight sections blocking rank bound) after <
      total (Phase.weight sections blocking rank bound) state := by
  have one : ∀ thread phase, phase.weight sections blocking rank bound <
      (state.phase thread).weight sections blocking rank bound →
      total (Phase.weight sections blocking rank bound) (state.to thread phase) <
        total (Phase.weight sections blocking rank bound) state := by
    intro thread phase less
    have moved := total_to (Phase.weight sections blocking rank bound) state thread phase
    omega
  have positive : ∀ call remaining, 2 ≤ cost blocking bound call remaining := by
    intro call remaining
    unfold cost
    split <;> omega
  cases step with
  | call isIdle => cases isInternal
  | wake isAsleep => cases isInternal
  | @lock thread call free wants =>
      apply one thread
      rcases wants with enters | wakes
      · rw [enters]
        exact Nat.lt_succ_self _
      · rw [wakes]
        exact Nat.lt_succ_self _
  | @go thread call line next notified data within goes =>
      apply one thread
      rw [within]
      exact cost_lt call (ranked.go goes)
  | @sleep thread call line notified within sleeps =>
      apply one thread
      rw [within]
      exact Nat.lt_of_lt_of_le Nat.zero_lt_two (positive call _)
  | @finish thread call line notified result within finishes =>
      apply one thread
      rw [within]
      exact positive call _
  | @notifyOne thread sleeper call waiting line next notified within notifies isAsleep =>
      have apart : thread ≠ sleeper := by
        rintro rfl
        rw [within] at isAsleep
        cases isAsleep
      have reached := credited.inside thread _ _ _ within
      -- a section that can sleep sends nothing, so the notifier has paid for the sleeper
      have isBlocking := credited.waits sleeper waiting (.inl isAsleep)
      have notBlocking : blocking call = false := by
        rw [Bool.eq_false_iff]
        intro isBlocking
        exact absurd (counted.silent (reached.notifyOne notifies) isBlocking) (Nat.succ_ne_zero _)
      have paid : cost blocking bound call (rank next) + (bound + 4) ≤
          cost blocking bound call (rank line) := by
        have product := Nat.mul_le_mul_right (bound + 4) (ranked.notifyOne notifies)
        rw [Nat.succ_mul] at product
        simp only [cost, notBlocking, Bool.false_eq_true, if_false]
        omega
      have asked : cost blocking bound waiting (rank (sections.start waiting)) + 1 ≤ bound + 3 := by
        have small := ranked.start waiting
        simp only [cost, isBlocking, if_true]
        omega
      have moved := total_to (Phase.weight sections blocking rank bound) state sleeper
        (.woken waiting)
      have further := total_to (Phase.weight sections blocking rank bound)
        (state.to sleeper (.woken waiting)) thread (.inside call next (notified + 1))
      rw [State.to_other apart, within] at further
      rw [isAsleep] at moved
      simp only [Phase.weight] at moved further
      omega
  | @notifyNobody thread call line next notified within notifies nobody =>
      apply one thread
      rw [within]
      exact cost_lt call (ranked.notifyOne notifies)
  | @unlock thread result leaves =>
      apply one thread
      rw [leaves]
      exact Nat.zero_lt_one

/-- The threads of a reachable state come to rest by themselves: whatever they do, it
takes a bounded number of steps, and when they can do no more, the mutex is free,
every call has returned or sleeps, and nobody sleeps beside something to take. -/
theorem settles {rank : ν → Nat} {bound : Nat} (correct : Implements sections effect)
    (counted : Counted sections blocking level) (ranked : Ranked sections rank bound)
    {initial : δ} (reachable : Reachable (machine sections initial) Unconditional state) :
    ∃ limit, ∀ count after, Continues sections state count after →
      count ≤ limit ∧ (Quiescent sections after →
        after.mutex = none ∧
          (∀ thread, after.phase thread = .idle ∨ (after.phase thread).isAsleep = true) ∧
          ((∃ thread, (after.phase thread).isAsleep = true) → level after.data = 0)) := by
  obtain ⟨base, credited⟩ := Credited.of_reachable correct counted reachable
  refine ⟨total (Phase.weight sections blocking rank bound) state, ?_⟩
  intro count after continues
  have kept : (∃ base, Credited sections blocking level after base) ∧
      count + total (Phase.weight sections blocking rank bound) after ≤
        total (Phase.weight sections blocking rank bound) state := by
    induction continues with
    | here => exact ⟨⟨base, credited⟩, by omega⟩
    | step front isInternal attempted inductionHypothesis =>
        obtain ⟨⟨base, credited⟩, spent⟩ := inductionHypothesis
        have step := step_of_attempt attempted
        have less := credited.weight_lt ranked counted isInternal step
        exact ⟨⟨_, credited.step correct counted step⟩, by omega⟩
  obtain ⟨⟨base, creditedAfter⟩, spent⟩ := kept
  exact ⟨by omega, creditedAfter.quiescent⟩

end WakeUps

end Onyxup.Lib.Monitor
