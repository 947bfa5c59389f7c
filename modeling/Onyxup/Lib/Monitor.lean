import Mathlib.Data.Fintype.Basic
import Mathlib.Logic.Function.Basic
import Onyxup.Lib.Simulation

/-!
Contract: an object whose operations run under one mutex with one condition variable.

Owns: the threads, the mutex and the condition variable, line by line, and the
theorem that the critical sections are atomic, whatever the threads do in between.

Does not own: any object. What one line of a critical section does is a parameter.

A thread that sleeps in the condition variable has left the mutex. It is woken by a
notification or for no reason at all, takes the mutex again and starts its section
from the first line, which is the loop around `wait`.
-/

set_option autoImplicit false

namespace Onyxup.Lib.Monitor

open Onyxup.Lib.Transition

variable {θ δ κ ρ ν : Type}

/-- What one line of a critical section does. -/
inductive Instruction (δ ρ ν : Type) where
  | go (data : δ) (next : ν)
  | notifyOne (next : ν)
  | sleep
  | finish (result : ρ)
  | undefined

/-- The critical section of every call. -/
structure Sections (δ κ ρ ν : Type) where
  start : κ → ν
  line : ν → δ → Instruction δ ρ ν

/-- Where a thread is. Inside the section it counts its notifications. -/
inductive Phase (κ ρ ν : Type) where
  | idle
  | entering (call : κ)
  | inside (call : κ) (line : ν) (notified : Nat)
  | leaving (result : ρ)
  | asleep (call : κ)
  | woken (call : κ)
deriving DecidableEq

/-- The phases in which a thread holds the mutex. -/
def Phase.owns : Phase κ ρ ν → Bool
  | .inside _ _ _ => true
  | .leaving _ => true
  | _ => false

def Phase.isAsleep : Phase κ ρ ν → Bool
  | .asleep _ => true
  | _ => false

structure State (θ δ κ ρ ν : Type) where
  data : δ
  mutex : Option θ
  phase : θ → Phase κ ρ ν

inductive Action (θ κ : Type) where
  | call (thread : θ) (call : κ)
  | lock (thread : θ)
  | run (thread : θ)
  | notify (thread : θ) (chosen : Option θ)
  | unlock (thread : θ)
  | wake (thread : θ)

/-- A line of a section that has no meaning was reached. -/
inductive Fault where
  | undefined
deriving DecidableEq

section Machine

variable [DecidableEq θ]

/-- One thread goes on to another phase. -/
def State.to (state : State θ δ κ ρ ν) (thread : θ) (phase : Phase κ ρ ν) : State θ δ κ ρ ν :=
  { state with phase := Function.update state.phase thread phase }

variable [Fintype θ] (sections : Sections δ κ ρ ν)

/-- What an action does, and `none` where it cannot happen. A notification goes to
some sleeping thread, and to nobody only when none sleeps. -/
def attempt (state : State θ δ κ ρ ν) : Action θ κ → Option (Except Fault (State θ δ κ ρ ν))
  | .call thread call =>
      match state.phase thread with
      | .idle => some (.ok (state.to thread (.entering call)))
      | _ => none
  | .lock thread =>
      match state.mutex, state.phase thread with
      | none, .entering call =>
          some (.ok { state.to thread (.inside call (sections.start call) 0) with
            mutex := some thread })
      | none, .woken call =>
          some (.ok { state.to thread (.inside call (sections.start call) 0) with
            mutex := some thread })
      | _, _ => none
  | .run thread =>
      match state.phase thread with
      | .inside call line notified =>
          match sections.line line state.data with
          | .go data next =>
              some (.ok { state.to thread (.inside call next notified) with data := data })
          | .notifyOne _ => none
          | .sleep => some (.ok { state.to thread (.asleep call) with mutex := none })
          | .finish result => some (.ok (state.to thread (.leaving result)))
          | .undefined => some (.error .undefined)
      | _ => none
  | .notify thread chosen =>
      match state.phase thread with
      | .inside call line notified =>
          match sections.line line state.data with
          | .notifyOne next =>
              match chosen with
              | some sleeper =>
                  match state.phase sleeper with
                  | .asleep waiting =>
                      some (.ok ((state.to sleeper (.woken waiting)).to thread
                        (.inside call next (notified + 1))))
                  | _ => none
              | none =>
                  if ∀ other, (state.phase other).isAsleep = false then
                    some (.ok (state.to thread (.inside call next (notified + 1))))
                  else none
          | _ => none
      | _ => none
  | .unlock thread =>
      match state.phase thread with
      | .leaving _ => some (.ok { state.to thread .idle with mutex := none })
      | _ => none
  | .wake thread =>
      match state.phase thread with
      | .asleep call => some (.ok (state.to thread (.woken call)))
      | _ => none

/-- All threads outside, the data as given. -/
def machine (initial : δ) : System (State θ δ κ ρ ν) (Action θ κ) Fault where
  initial state := state.data = initial ∧ state.mutex = none ∧ ∀ thread, state.phase thread = .idle
  enabled state action := (attempt sections state action).isSome
  step state action := (attempt sections state action).getD (.ok state)

/-! ## What a step can do -/

/-- The steps of the machine, one constructor for each. -/
inductive Step (state : State θ δ κ ρ ν) : Action θ κ → State θ δ κ ρ ν → Prop where
  | call {thread : θ} {call : κ} (isIdle : state.phase thread = .idle) :
      Step state (.call thread call) (state.to thread (.entering call))
  | lock {thread : θ} {call : κ} (free : state.mutex = none)
      (wants : state.phase thread = .entering call ∨ state.phase thread = .woken call) :
      Step state (.lock thread)
        { state.to thread (.inside call (sections.start call) 0) with mutex := some thread }
  | go {thread : θ} {call : κ} {line next : ν} {notified : Nat} {data : δ}
      (within : state.phase thread = .inside call line notified)
      (goes : sections.line line state.data = .go data next) :
      Step state (.run thread) { state.to thread (.inside call next notified) with data := data }
  | sleep {thread : θ} {call : κ} {line : ν} {notified : Nat}
      (within : state.phase thread = .inside call line notified)
      (sleeps : sections.line line state.data = .sleep) :
      Step state (.run thread) { state.to thread (.asleep call) with mutex := none }
  | finish {thread : θ} {call : κ} {line : ν} {notified : Nat} {result : ρ}
      (within : state.phase thread = .inside call line notified)
      (finishes : sections.line line state.data = .finish result) :
      Step state (.run thread) (state.to thread (.leaving result))
  | notifyOne {thread sleeper : θ} {call waiting : κ} {line next : ν} {notified : Nat}
      (within : state.phase thread = .inside call line notified)
      (notifies : sections.line line state.data = .notifyOne next)
      (isAsleep : state.phase sleeper = .asleep waiting) :
      Step state (.notify thread (some sleeper))
        ((state.to sleeper (.woken waiting)).to thread (.inside call next (notified + 1)))
  | notifyNobody {thread : θ} {call : κ} {line next : ν} {notified : Nat}
      (within : state.phase thread = .inside call line notified)
      (notifies : sections.line line state.data = .notifyOne next)
      (nobody : ∀ other, (state.phase other).isAsleep = false) :
      Step state (.notify thread none) (state.to thread (.inside call next (notified + 1)))
  | unlock {thread : θ} {result : ρ} (leaves : state.phase thread = .leaving result) :
      Step state (.unlock thread) { state.to thread .idle with mutex := none }
  | wake {thread : θ} {call : κ} (isAsleep : state.phase thread = .asleep call) :
      Step state (.wake thread) (state.to thread (.woken call))

variable {sections}

theorem step_of_attempt {state after : State θ δ κ ρ ν} {action : Action θ κ}
    (attempted : attempt sections state action = some (.ok after)) :
    Step sections state action after := by
  cases action with
  | call thread call =>
      simp only [attempt] at attempted
      split at attempted
      next isIdle =>
        cases attempted
        exact .call isIdle
      next => cases attempted
  | lock thread =>
      simp only [attempt] at attempted
      split at attempted
      next free enters =>
        cases attempted
        exact .lock free (.inl enters)
      next free wakes =>
        cases attempted
        exact .lock free (.inr wakes)
      next => cases attempted
  | run thread =>
      simp only [attempt] at attempted
      split at attempted
      next within =>
        split at attempted
        next goes =>
          cases attempted
          exact .go within goes
        next => cases attempted
        next sleeps =>
          cases attempted
          exact .sleep within sleeps
        next finishes =>
          cases attempted
          exact .finish within finishes
        next => cases attempted
      next => cases attempted
  | notify thread chosen =>
      simp only [attempt] at attempted
      split at attempted
      next within =>
        split at attempted
        next notifies =>
          split at attempted
          next =>
            split at attempted
            next isAsleep =>
              cases attempted
              exact .notifyOne within notifies isAsleep
            next => cases attempted
          next =>
            split at attempted
            next nobody =>
              cases attempted
              exact .notifyNobody within notifies nobody
            next => cases attempted
        next => cases attempted
      next => cases attempted
  | unlock thread =>
      simp only [attempt] at attempted
      split at attempted
      next leaves =>
        cases attempted
        exact .unlock leaves
      next => cases attempted
  | wake thread =>
      simp only [attempt] at attempted
      split at attempted
      next isAsleep =>
        cases attempted
        exact .wake isAsleep
      next => cases attempted

/-- A step of a run is one of these. -/
theorem step_of_machine {initial : δ} {state after : State θ δ κ ρ ν} {action : Action θ κ}
    (enabled : (machine sections initial).enabled state action = true)
    (steps : (machine sections initial).step state action = .ok after) :
    Step sections state action after := by
  apply step_of_attempt
  simp only [machine] at enabled steps
  obtain ⟨outcome, attempted⟩ := Option.isSome_iff_exists.mp enabled
  rw [attempted, Option.getD_some] at steps
  rw [attempted, steps]

end Machine

/-! ## Critical sections are atomic -/

section Atomicity

variable (sections : Sections δ κ ρ ν)

/-- How far a section has come that started on `before` and has had the data to
itself: the notifications it has sent, its next line and the data now. -/
inductive Reaches (call : κ) (before : δ) : Nat → ν → δ → Prop where
  | start : Reaches call before 0 (sections.start call) before
  | go {count : Nat} {line next : ν} {data after : δ} (front : Reaches call before count line data)
      (goes : sections.line line data = .go after next) : Reaches call before count next after
  | notifyOne {count : Nat} {line next : ν} {data : δ}
      (front : Reaches call before count line data)
      (notifies : sections.line line data = .notifyOne next) :
      Reaches call before (count + 1) next data

/-- Run alone, the sections do what `effect` says; they sleep where it says nothing,
before they have changed anything. -/
structure Implements (effect : κ → δ → Option (δ × ρ)) : Prop where
  defined : ∀ {call before count line data}, Reaches sections call before count line data →
    sections.line line data ≠ .undefined
  sleeps : ∀ {call before count line data}, Reaches sections call before count line data →
    sections.line line data = .sleep → data = before ∧ effect call before = none
  finishes : ∀ {call before count line data result},
    Reaches sections call before count line data → sections.line line data = .finish result →
    effect call before = some (data, result)

variable {sections}

/-- The mutex has one owner at most, and the owner has had the data to itself
since they were `base`. -/
structure Guarded (sections : Sections δ κ ρ ν) (state : State θ δ κ ρ ν) (base : δ) : Prop where
  exclusive : ∀ thread, (state.phase thread).owns = true → state.mutex = some thread
  owned : ∀ thread, state.mutex = some thread → (state.phase thread).owns = true
  free : state.mutex = none → state.data = base
  inside : ∀ thread call line notified, state.phase thread = .inside call line notified →
    Reaches sections call base notified line state.data
  leaving : ∀ thread result, state.phase thread = .leaving result → state.data = base

variable {state after : State θ δ κ ρ ν} {base data : δ} {thread : θ} {phase : Phase κ ρ ν}

/-- At the start nobody is inside. -/
theorem Guarded.initially (same : state.data = base) (free : state.mutex = none)
    (idle : ∀ thread, state.phase thread = .idle) : Guarded sections state base where
  exclusive thread owns := by
    rw [idle thread] at owns
    cases owns
  owned thread holds := by
    rw [free] at holds
    cases holds
  free _ := same
  inside thread call line notified within := by
    rw [idle thread] at within
    cases within
  leaving thread result leaves := by
    rw [idle thread] at leaves
    cases leaves

/-- Beside the owner of the mutex nobody is inside. -/
theorem Guarded.others_outside (guarded : Guarded sections state base)
    (owner : state.mutex = none ∨ (state.phase thread).owns = true) :
    ∀ other, other ≠ thread → (state.phase other).owns = false := by
  intro other apart
  rw [Bool.eq_false_iff]
  intro owns
  have holds := guarded.exclusive other owns
  rcases owner with free | mine
  · rw [free] at holds
    cases holds
  · rw [guarded.exclusive thread mine] at holds
    cases holds
    exact apart rfl

variable [DecidableEq θ]

@[simp] theorem State.to_data : (state.to thread phase).data = state.data := rfl

@[simp] theorem State.to_mutex : (state.to thread phase).mutex = state.mutex := rfl

@[simp] theorem State.to_self : (state.to thread phase).phase thread = phase :=
  Function.update_self ..

@[simp] theorem State.to_other {other : θ} (apart : other ≠ thread) :
    (state.to thread phase).phase other = state.phase other :=
  Function.update_of_ne apart ..

/-- A thread without the mutex goes on to a phase without the mutex. -/
theorem Guarded.outside (guarded : Guarded sections state base)
    (before : (state.phase thread).owns = false) (later : phase.owns = false) :
    Guarded sections (state.to thread phase) base where
  exclusive other := by
    by_cases same : other = thread
    · rw [same, State.to_self, later]
      exact fun impossible => absurd impossible Bool.false_ne_true
    · rw [State.to_other same]
      exact guarded.exclusive other
  owned other holds := by
    by_cases same : other = thread
    · have owner := guarded.owned other holds
      rw [same, before] at owner
      cases owner
    · rw [State.to_other same]
      exact guarded.owned other holds
  free := guarded.free
  inside other call line notified within := by
    by_cases same : other = thread
    · rw [same, State.to_self] at within
      rw [within] at later
      cases later
    · rw [State.to_other same] at within
      exact guarded.inside other call line notified within
  leaving other result leaves := by
    by_cases same : other = thread
    · rw [same, State.to_self] at leaves
      rw [leaves] at later
      cases later
    · rw [State.to_other same] at leaves
      exact guarded.leaving other result leaves

/-- The owner changes the data and its phase; all others are outside. -/
theorem Guarded.owner {mutex : Option θ} (others : ∀ other, other ≠ thread →
      (state.phase other).owns = false)
    (holds : phase.owns = true → mutex = some thread)
    (released : phase.owns = false → mutex = none ∧ data = base)
    (inside : ∀ call line notified, phase = .inside call line notified →
      Reaches sections call base notified line data)
    (leaving : ∀ result, phase = .leaving result → data = base) :
    Guarded sections { state.to thread phase with data := data, mutex := mutex } base where
  exclusive other := by
    by_cases same : other = thread
    · rw [same]
      simpa using holds
    · intro owns
      have outside := others other same
      simp only [State.to, Function.update_of_ne same] at owns
      rw [owns] at outside
      cases outside
  owned other isOwner := by
    by_cases same : other = thread
    · rw [same]
      by_contra outside
      have free := released (by simpa [State.to] using outside)
      simp only at isOwner
      rw [free.1] at isOwner
      cases isOwner
    · by_cases owns : phase.owns = true
      · have mine := holds owns
        simp only at isOwner
        rw [mine] at isOwner
        cases isOwner
        exact absurd rfl same
      · have free := released (by simpa using owns)
        simp only at isOwner
        rw [free.1] at isOwner
        cases isOwner
  free isFree := by
    by_cases owns : phase.owns = true
    · have mine := holds owns
      simp only at isFree
      rw [mine] at isFree
      cases isFree
    · exact (released (by simpa using owns)).2
  inside other call line notified within := by
    by_cases same : other = thread
    · rw [same] at within
      simp only [State.to, Function.update_self] at within
      exact inside call line notified within
    · have outside := others other same
      simp only [State.to, Function.update_of_ne same] at within
      rw [within] at outside
      cases outside
  leaving other result leaves := by
    by_cases same : other = thread
    · rw [same] at leaves
      simp only [State.to, Function.update_self] at leaves
      exact leaving result leaves
    · have outside := others other same
      simp only [State.to, Function.update_of_ne same] at leaves
      rw [leaves] at outside
      cases outside

/-- The data that all finished sections have left: a section that finishes adds its
own changes. -/
def rebase (sections : Sections δ κ ρ ν) (state : State θ δ κ ρ ν) (base : δ) :
    Action θ κ → δ
  | .run thread =>
      match state.phase thread with
      | .inside _ line _ =>
          match sections.line line state.data with
          | .finish _ => state.data
          | _ => base
      | _ => base
  | _ => base

variable {effect : κ → δ → Option (δ × ρ)} {action : Action θ κ}

/-- Every step respects the mutex. -/
theorem Guarded.step (correct : Implements sections effect)
    (guarded : Guarded sections state base) (step : Step sections state action after) :
    Guarded sections after (rebase sections state base action) := by
  cases step with
  | call isIdle => exact guarded.outside (by rw [isIdle]; rfl) rfl
  | @lock thread call free wants =>
      have unchanged := guarded.free free
      refine Guarded.owner (guarded.others_outside (.inl free)) (fun _ => rfl)
        (fun impossible => nomatch impossible) ?_ (fun _ impossible => nomatch impossible)
      intro call line notified isStart
      cases isStart
      rw [State.to_data, unchanged]
      exact .start
  | @go thread call line next notified data within goes =>
      have owns : (state.phase thread).owns = true := by rw [within]; rfl
      rw [rebase, within]
      simp only [goes]
      refine Guarded.owner (guarded.others_outside (.inr owns))
        (fun _ => guarded.exclusive thread owns) (fun impossible => nomatch impossible) ?_
        (fun _ impossible => nomatch impossible)
      intro call line notified isNext
      cases isNext
      exact (guarded.inside thread _ _ _ within).go goes
  | @sleep thread call line notified within sleeps =>
      have owns : (state.phase thread).owns = true := by rw [within]; rfl
      have unchanged := (correct.sleeps (guarded.inside thread _ _ _ within) sleeps).1
      rw [rebase, within]
      simp only [sleeps]
      exact Guarded.owner (guarded.others_outside (.inr owns))
        (fun impossible => nomatch impossible) (fun _ => ⟨rfl, unchanged⟩)
        (fun _ _ _ impossible => nomatch impossible)
        (fun _ impossible => nomatch impossible)
  | @finish thread call line notified result within finishes =>
      have owns : (state.phase thread).owns = true := by rw [within]; rfl
      rw [rebase, within]
      simp only [finishes]
      exact Guarded.owner (guarded.others_outside (.inr owns))
        (fun _ => guarded.exclusive thread owns) (fun impossible => nomatch impossible)
        (fun _ _ _ impossible => nomatch impossible) (fun _ _ => rfl)
  | @notifyOne thread sleeper call waiting line next notified within notifies isAsleep =>
      have owns : (state.phase thread).owns = true := by rw [within]; rfl
      have woken : Guarded sections (state.to sleeper (.woken waiting)) base :=
        guarded.outside (by rw [isAsleep]; rfl) rfl
      have apart : thread ≠ sleeper := by
        rintro rfl
        rw [within] at isAsleep
        cases isAsleep
      have still : ((state.to sleeper (.woken waiting)).phase thread).owns = true := by
        rw [State.to_other apart, owns]
      refine Guarded.owner (woken.others_outside (.inr still))
        (fun _ => guarded.exclusive thread owns) (fun impossible => nomatch impossible) ?_
        (fun _ impossible => nomatch impossible)
      intro call line notified isNext
      cases isNext
      exact (guarded.inside thread _ _ _ within).notifyOne notifies
  | @notifyNobody thread call line next notified within notifies nobody =>
      have owns : (state.phase thread).owns = true := by rw [within]; rfl
      refine Guarded.owner (guarded.others_outside (.inr owns))
        (fun _ => guarded.exclusive thread owns) (fun impossible => nomatch impossible) ?_
        (fun _ impossible => nomatch impossible)
      intro call line notified isNext
      cases isNext
      exact (guarded.inside thread _ _ _ within).notifyOne notifies
  | @unlock thread result leaves =>
      have owns : (state.phase thread).owns = true := by rw [leaves]; rfl
      exact Guarded.owner (guarded.others_outside (.inr owns))
        (fun impossible => nomatch impossible)
        (fun _ => ⟨rfl, guarded.leaving thread result leaves⟩)
        (fun _ _ _ impossible => nomatch impossible) (fun _ impossible => nomatch impossible)
  | wake isAsleep => exact guarded.outside (by rw [isAsleep]; rfl) rfl

end Atomicity

/-! ## The atomic object -/

/-- Where a thread is, as its caller sees it. -/
inductive Status (κ ρ : Type) where
  | idle
  | pending (call : κ)
  | done (result : ρ)
deriving DecidableEq

def Phase.status : Phase κ ρ ν → Status κ ρ
  | .idle => .idle
  | .entering call => .pending call
  | .inside call _ _ => .pending call
  | .leaving result => .done result
  | .asleep call => .pending call
  | .woken call => .pending call

structure AtomicState (θ δ κ ρ : Type) where
  data : δ
  status : θ → Status κ ρ

inductive AtomicAction (θ κ : Type) where
  | call (thread : θ) (call : κ)
  | apply (thread : θ)
  | answer (thread : θ)

/-- What the caller of an operation sees. -/
inductive Event (θ κ ρ : Type) where
  | called (thread : θ) (call : κ)
  | returned (thread : θ) (result : ρ)
deriving DecidableEq

section Object

variable [DecidableEq θ]

/-- A pending call takes effect in one step, once `effect` allows it. -/
def atomicAttempt (effect : κ → δ → Option (δ × ρ)) (state : AtomicState θ δ κ ρ) :
    AtomicAction θ κ → Option (AtomicState θ δ κ ρ)
  | .call thread call =>
      match state.status thread with
      | .idle => some { state with status := Function.update state.status thread (.pending call) }
      | _ => none
  | .apply thread =>
      match state.status thread with
      | .pending call =>
          match effect call state.data with
          | some (data, result) =>
              some ⟨data, Function.update state.status thread (.done result)⟩
          | none => none
      | _ => none
  | .answer thread =>
      match state.status thread with
      | .done _ => some { state with status := Function.update state.status thread .idle }
      | _ => none

def atomic (effect : κ → δ → Option (δ × ρ)) (initial : δ) :
    System (AtomicState θ δ κ ρ) (AtomicAction θ κ) Fault where
  initial state := state.data = initial ∧ ∀ thread, state.status thread = .idle
  enabled state action := (atomicAttempt effect state action).isSome
  step state action := .ok ((atomicAttempt effect state action).getD state)

/-- The steps of the atomic object. -/
theorem atomicAttempt_cases {effect : κ → δ → Option (δ × ρ)} {state next : AtomicState θ δ κ ρ}
    {move : AtomicAction θ κ} (attempted : atomicAttempt effect state move = some next) :
    (∃ thread call, move = .call thread call ∧ state.status thread = .idle ∧
        next = { state with status := Function.update state.status thread (.pending call) }) ∨
      (∃ thread call data result, move = .apply thread ∧ state.status thread = .pending call ∧
        effect call state.data = some (data, result) ∧
        next = ⟨data, Function.update state.status thread (.done result)⟩) ∨
      ∃ thread result, move = .answer thread ∧ state.status thread = .done result ∧
        next = { state with status := Function.update state.status thread .idle } := by
  cases move with
  | call thread call =>
      simp only [atomicAttempt] at attempted
      split at attempted
      next isIdle =>
        cases attempted
        exact .inl ⟨thread, call, rfl, isIdle, rfl⟩
      next => cases attempted
  | apply thread =>
      simp only [atomicAttempt] at attempted
      split at attempted
      next call isPending =>
        split at attempted
        next data result allowed =>
          cases attempted
          exact .inr (.inl ⟨thread, call, data, result, rfl, isPending, allowed, rfl⟩)
        next => cases attempted
      next => cases attempted
  | answer thread =>
      simp only [atomicAttempt] at attempted
      split at attempted
      next result isDone =>
        cases attempted
        exact .inr (.inr ⟨thread, result, rfl, isDone, rfl⟩)
      next => cases attempted

/-- A step of a run of the atomic object is one of these. -/
theorem attempt_of_atomic {effect : κ → δ → Option (δ × ρ)} {initial : δ}
    {state next : AtomicState θ δ κ ρ} {move : AtomicAction θ κ}
    (enabled : (atomic effect initial).enabled state move = true)
    (steps : (atomic effect initial).step state move = .ok next) :
    atomicAttempt effect state move = some next := by
  simp only [atomic] at enabled steps
  obtain ⟨found, attempted⟩ := Option.isSome_iff_exists.mp enabled
  rw [attempted, Option.getD_some] at steps
  rw [attempted]
  exact congrArg some (Except.ok.inj steps)

/-- A call is visible when it is made, its result when the mutex is left. -/
def visible (state : State θ δ κ ρ ν) : Action θ κ → Option (Event θ κ ρ)
  | .call thread call => some (.called thread call)
  | .unlock thread =>
      match state.phase thread with
      | .leaving result => some (.returned thread result)
      | _ => none
  | _ => none

def atomicVisible (state : AtomicState θ δ κ ρ) : AtomicAction θ κ → Option (Event θ κ ρ)
  | .call thread call => some (.called thread call)
  | .apply _ => none
  | .answer thread =>
      match state.status thread with
      | .done result => some (.returned thread result)
      | _ => none

/-- The object a monitor stands for: the data as the finished sections have left them. -/
structure Represents (sections : Sections δ κ ρ ν) (state : State θ δ κ ρ ν)
    (image : AtomicState θ δ κ ρ) : Prop where
  guarded : Guarded sections state image.data
  status : ∀ thread, image.status thread = (state.phase thread).status

variable {sections : Sections δ κ ρ ν} {effect : κ → δ → Option (δ × ρ)}
variable {state after : State θ δ κ ρ ν} {image : AtomicState θ δ κ ρ} {action : Action θ κ}

private theorem status_to (represents : ∀ thread, image.status thread = (state.phase thread).status)
    (thread : θ) (phase : Phase κ ρ ν) (other : θ) :
    Function.update image.status thread phase.status other =
      ((state.to thread phase).phase other).status := by
  by_cases same : other = thread
  · rw [same, Function.update_self, State.to_self]
  · rw [Function.update_of_ne same, State.to_other same, represents other]

private theorem status_kept
    (represents : ∀ thread, image.status thread = (state.phase thread).status)
    {thread : θ} {phase : Phase κ ρ ν} (same : (state.phase thread).status = phase.status)
    (other : θ) : image.status other = ((state.to thread phase).phase other).status := by
  rw [← status_to represents thread phase other, ← same, ← represents thread,
    Function.update_eq_self]

private theorem atomic_moves {initial : δ} {move : AtomicAction θ κ} {next : AtomicState θ δ κ ρ}
    (attempted : atomicAttempt effect image move = some next) :
    (atomic effect initial).enabled image move = true ∧
      (atomic effect initial).step image move = .ok next := by
  simp [atomic, attempted]

/-- The critical sections of a monitor are atomic. -/
theorem simulation [Fintype θ] (correct : Implements sections effect) (initial : δ) :
    Simulation (machine sections initial : System (State θ δ κ ρ ν) (Action θ κ) Fault) visible
      (atomic effect initial) atomicVisible (Represents sections) where
  starts state starts := by
    obtain ⟨data, free, idle⟩ := starts
    refine ⟨⟨initial, fun _ => .idle⟩, ⟨rfl, fun _ => rfl⟩, .initially data free idle, ?_⟩
    intro thread
    rw [idle thread]
    rfl
  follows state image action after represents enabled steps := by
    have step := step_of_machine enabled steps
    have guarded := represents.guarded.step correct step
    have status := represents.status
    cases step with
    | @call thread call isIdle =>
        have attempted : atomicAttempt effect image (.call thread call) = some
            { image with status := Function.update image.status thread (.pending call) } := by
          rw [atomicAttempt, status, isIdle]
          rfl
        exact .inr ⟨.call thread call, _, (atomic_moves attempted).1,
          (atomic_moves attempted).2, rfl, guarded, status_to status thread (.entering call)⟩
    | @lock thread call free wants =>
        refine .inl ⟨rfl, guarded, ?_⟩
        apply status_kept status
        rcases wants with enters | wakes
        · rw [enters]; rfl
        · rw [wakes]; rfl
    | @go thread call line next notified data within goes =>
        rw [rebase, within] at guarded
        simp only [goes] at guarded
        refine .inl ⟨rfl, guarded, status_kept status ?_⟩
        rw [within]
        rfl
    | @sleep thread call line notified within sleeps =>
        rw [rebase, within] at guarded
        simp only [sleeps] at guarded
        refine .inl ⟨rfl, guarded, status_kept status ?_⟩
        rw [within]
        rfl
    | @finish thread call line notified result within finishes =>
        have reached := represents.guarded.inside thread _ _ _ within
        have applied := correct.finishes reached finishes
        rw [rebase, within] at guarded
        simp only [finishes] at guarded
        have attempted : atomicAttempt effect image (.apply thread) = some
            ⟨state.data, Function.update image.status thread (.done result)⟩ := by
          rw [atomicAttempt, status, within]
          simp only [Phase.status, applied]
        exact .inr ⟨.apply thread, _, (atomic_moves attempted).1, (atomic_moves attempted).2, rfl,
          guarded, status_to status thread (.leaving result)⟩
    | @notifyOne thread sleeper call waiting line next notified within notifies isAsleep =>
        have apart : thread ≠ sleeper := by
          rintro rfl
          rw [within] at isAsleep
          cases isAsleep
        have woken : ∀ other, image.status other =
            ((state.to sleeper (.woken waiting)).phase other).status :=
          status_kept status (by rw [isAsleep]; rfl)
        refine .inl ⟨rfl, guarded, status_kept woken ?_⟩
        rw [State.to_other apart, within]
        rfl
    | @notifyNobody thread call line next notified within notifies nobody =>
        refine .inl ⟨rfl, guarded, status_kept status ?_⟩
        rw [within]
        rfl
    | @unlock thread result leaves =>
        have attempted : atomicAttempt effect image (.answer thread) = some
            { image with status := Function.update image.status thread .idle } := by
          rw [atomicAttempt, status, leaves]
          rfl
        refine .inr ⟨.answer thread, _, (atomic_moves attempted).1, (atomic_moves attempted).2, ?_,
          guarded, status_to status thread .idle⟩
        rw [atomicVisible, visible, status, leaves]
        rfl
    | @wake thread call isAsleep =>
        refine .inl ⟨rfl, guarded, status_kept status ?_⟩
        rw [isAsleep]
        rfl

/-- A line without meaning is never reached. -/
theorem never_faults [Fintype θ] (correct : Implements sections effect)
    (represents : Represents sections state image) (action : Action θ κ) :
    attempt sections state action ≠ some (.error .undefined) := by
  intro faults
  cases action with
  | run thread =>
      simp only [attempt] at faults
      split at faults
      next within =>
        split at faults
        next => cases faults
        next => cases faults
        next => cases faults
        next => cases faults
        next undefined =>
          exact correct.defined (represents.guarded.inside thread _ _ _ within) undefined
      next => cases faults
  | call thread call =>
      simp only [attempt] at faults
      split at faults <;> cases faults
  | lock thread =>
      simp only [attempt] at faults
      split at faults <;> cases faults
  | notify thread chosen =>
      simp only [attempt] at faults
      repeat' split at faults
      all_goals cases faults
  | unlock thread =>
      simp only [attempt] at faults
      split at faults <;> cases faults
  | wake thread =>
      simp only [attempt] at faults
      split at faults <;> cases faults

end Object

end Onyxup.Lib.Monitor
