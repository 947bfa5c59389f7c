import Onyxup.Lib.WakeUps

/-!
Contract: the queue between the event loop and its workers.

Owns: `ThreadSafeQueue` at the level of its mutex and its condition variable, for any
number of threads: it behaves like a queue whose operations are single steps, and no
thread sleeps in `wait_and_pop` beside a task that nobody is going to take.

Does not own: what is queued. The two `wait_and_pop` overloads differ only in how
they hand out the value. The copy constructor and the `try_pop` that returns a
pointer do not compile when they are used, and nobody uses them.

`front` and `pop` of an empty `std::queue` have no defined result.
-/

set_option autoImplicit false

namespace Onyxup.Queue

open Onyxup.Lib.Monitor
open Onyxup.Lib.Transition

variable {α θ : Type}

inductive Call (α : Type) where
  | push (newValue : α)
  | waitAndPop
  | tryPop
  | empty
  | size
deriving DecidableEq

inductive Result (α : Type) where
  | pushed
  | popped (value : α)
  | tried (value : Option α)
  | isEmpty (answer : Bool)
  | count (size : Nat)
deriving DecidableEq

/-- The lines of the member functions between taking the mutex and leaving it. -/
inductive Line (α : Type) where
  | push (newValue : α)
  | pushNotify
  | pushReturn
  | waitTest
  | waitFront
  | waitPop (value : α)
  | waitReturn (value : α)
  | tryTest
  | tryFront
  | tryPop (value : α)
  | tryReturn (value : Option α)
  | emptyTest
  | emptyReturn (answer : Bool)
  | sizeRead
  | sizeReturn (size : Nat)
deriving DecidableEq

def start : Call α → Line α
  | .push newValue => .push newValue
  | .waitAndPop => .waitTest
  | .tryPop => .tryTest
  | .empty => .emptyTest
  | .size => .sizeRead

def line : Line α → List α → Instruction (List α) (Result α) (Line α)
  | .push newValue, queue => .go (queue ++ [newValue]) .pushNotify
  | .pushNotify, _ => .notifyOne .pushReturn
  | .pushReturn, _ => .finish .pushed
  | .waitTest, [] => .sleep
  | .waitTest, front :: rest => .go (front :: rest) .waitFront
  | .waitFront, [] => .undefined
  | .waitFront, front :: rest => .go (front :: rest) (.waitPop front)
  | .waitPop _, [] => .undefined
  | .waitPop value, _ :: rest => .go rest (.waitReturn value)
  | .waitReturn value, _ => .finish (.popped value)
  | .tryTest, [] => .go [] (.tryReturn none)
  | .tryTest, front :: rest => .go (front :: rest) .tryFront
  | .tryFront, [] => .undefined
  | .tryFront, front :: rest => .go (front :: rest) (.tryPop front)
  | .tryPop _, [] => .undefined
  | .tryPop value, _ :: rest => .go rest (.tryReturn (some value))
  | .tryReturn value, _ => .finish (.tried value)
  | .emptyTest, queue => .go queue (.emptyReturn queue.isEmpty)
  | .emptyReturn answer, _ => .finish (.isEmpty answer)
  | .sizeRead, queue => .go queue (.sizeReturn queue.length)
  | .sizeReturn size, _ => .finish (.count size)

/-- `class ThreadSafeQueue`. -/
def threadSafeQueue : Sections (List α) (Call α) (Result α) (Line α) where
  start := start
  line := line

/-- What the operations are for: a queue, first in and first out. Only `wait_and_pop`
has to wait. -/
def effect : Call α → List α → Option (List α × Result α)
  | .push newValue, queue => some (queue ++ [newValue], .pushed)
  | .waitAndPop, [] => none
  | .waitAndPop, front :: rest => some (rest, .popped front)
  | .tryPop, [] => some ([], .tried none)
  | .tryPop, front :: rest => some (rest, .tried (some front))
  | .empty, queue => some (queue, .isEmpty queue.isEmpty)
  | .size, queue => some (queue, .count queue.length)

/-- Where a section can be that started on `before`. -/
inductive Progress (before : List α) : Call α → Nat → Line α → List α → Prop where
  | push {newValue : α} : Progress before (.push newValue) 0 (.push newValue) before
  | pushNotify {newValue : α} :
      Progress before (.push newValue) 0 .pushNotify (before ++ [newValue])
  | pushReturn {newValue : α} :
      Progress before (.push newValue) 1 .pushReturn (before ++ [newValue])
  | waitTest : Progress before .waitAndPop 0 .waitTest before
  | waitFront (nonempty : before ≠ []) : Progress before .waitAndPop 0 .waitFront before
  | waitPop {front : α} {rest : List α} (split : before = front :: rest) :
      Progress before .waitAndPop 0 (.waitPop front) before
  | waitReturn {front : α} {rest : List α} (split : before = front :: rest) :
      Progress before .waitAndPop 0 (.waitReturn front) rest
  | tryTest : Progress before .tryPop 0 .tryTest before
  | tryFront (nonempty : before ≠ []) : Progress before .tryPop 0 .tryFront before
  | tryPop {front : α} {rest : List α} (split : before = front :: rest) :
      Progress before .tryPop 0 (.tryPop front) before
  | tryReturn {front : α} {rest : List α} (split : before = front :: rest) :
      Progress before .tryPop 0 (.tryReturn (some front)) rest
  | tryNothing (isEmpty : before = []) : Progress before .tryPop 0 (.tryReturn none) before
  | emptyTest : Progress before .empty 0 .emptyTest before
  | emptyReturn : Progress before .empty 0 (.emptyReturn before.isEmpty) before
  | sizeRead : Progress before .size 0 .sizeRead before
  | sizeReturn : Progress before .size 0 (.sizeReturn before.length) before

private theorem line_notifyOne {current next : Line α} {queue : List α}
    (notifies : line current queue = .notifyOne next) :
    current = .pushNotify ∧ next = .pushReturn := by
  cases current <;> cases queue <;> cases notifies
  · exact ⟨rfl, rfl⟩
  · exact ⟨rfl, rfl⟩

private theorem line_sleep {current : Line α} {queue : List α}
    (sleeps : line current queue = .sleep) : current = .waitTest ∧ queue = [] := by
  cases current <;> cases queue <;> cases sleeps
  exact ⟨rfl, rfl⟩

private theorem line_undefined {current : Line α} {queue : List α}
    (undefined : line current queue = .undefined) :
    queue = [] ∧ (current = .waitFront ∨ (∃ value, current = .waitPop value) ∨
      current = .tryFront ∨ ∃ value, current = .tryPop value) := by
  cases current <;> cases queue <;> cases undefined
  · exact ⟨rfl, .inl rfl⟩
  · exact ⟨rfl, .inr (.inl ⟨_, rfl⟩)⟩
  · exact ⟨rfl, .inr (.inr (.inl rfl))⟩
  · exact ⟨rfl, .inr (.inr (.inr ⟨_, rfl⟩))⟩

/-- The line in front of the unlock, for every result. -/
private def lastLine : Result α → Line α
  | .pushed => .pushReturn
  | .popped value => .waitReturn value
  | .tried value => .tryReturn value
  | .isEmpty answer => .emptyReturn answer
  | .count size => .sizeReturn size

private theorem line_finish {current : Line α} {queue : List α} {result : Result α}
    (finishes : line current queue = .finish result) : current = lastLine result := by
  cases current <;> cases queue <;> cases finishes <;> rfl

theorem progress_of_reaches {call : Call α} {before queue : List α} {count : Nat} {current : Line α}
    (reaches : Reaches threadSafeQueue call before count current queue) :
    Progress before call count current queue := by
  induction reaches with
  | start =>
      cases call with
      | push newValue => exact .push
      | waitAndPop => exact .waitTest
      | tryPop => exact .tryTest
      | empty => exact .emptyTest
      | size => exact .sizeRead
  | go front goes inductionHypothesis =>
      cases inductionHypothesis with
      | push => cases goes; exact .pushNotify
      | pushNotify => cases goes
      | pushReturn => cases goes
      | waitTest =>
          cases before with
          | nil => cases goes
          | cons front rest => cases goes; exact .waitFront (List.cons_ne_nil _ _)
      | waitFront nonempty =>
          cases before with
          | nil => cases goes
          | cons front rest => cases goes; exact .waitPop rfl
      | waitPop split =>
          cases split
          cases goes
          exact .waitReturn rfl
      | waitReturn split => cases goes
      | tryTest =>
          cases before with
          | nil => cases goes; exact .tryNothing rfl
          | cons front rest => cases goes; exact .tryFront (List.cons_ne_nil _ _)
      | tryFront nonempty =>
          cases before with
          | nil => cases goes
          | cons front rest => cases goes; exact .tryPop rfl
      | tryPop split =>
          cases split
          cases goes
          exact .tryReturn rfl
      | tryReturn split => cases goes
      | tryNothing isEmpty => cases goes
      | emptyTest => cases goes; exact .emptyReturn
      | emptyReturn => cases goes
      | sizeRead => cases goes; exact .sizeReturn
      | sizeReturn => cases goes
  | notifyOne front notifies inductionHypothesis =>
      obtain ⟨rfl, rfl⟩ := line_notifyOne notifies
      cases inductionHypothesis
      exact .pushReturn

/-- Run alone, the member functions are the operations of a queue. -/
theorem implements_effect : Implements (threadSafeQueue (α := α)) effect where
  defined reaches undefined := by
    obtain ⟨rfl, places⟩ := line_undefined undefined
    rcases places with rfl | ⟨value, rfl⟩ | rfl | ⟨value, rfl⟩
    · cases progress_of_reaches reaches with
      | waitFront nonempty => exact nonempty rfl
    · cases progress_of_reaches reaches with
      | waitPop split => cases split
    · cases progress_of_reaches reaches with
      | tryFront nonempty => exact nonempty rfl
    · cases progress_of_reaches reaches with
      | tryPop split => cases split
  sleeps reaches sleeps := by
    obtain ⟨rfl, rfl⟩ := line_sleep sleeps
    cases progress_of_reaches reaches
    exact ⟨rfl, rfl⟩
  finishes {call before count current queue result} reaches finishes := by
    have isLast := line_finish finishes
    rw [isLast] at reaches
    cases result with
    | pushed =>
        cases progress_of_reaches reaches
        rfl
    | popped value =>
        cases progress_of_reaches reaches with
        | waitReturn split => rw [split]; rfl
    | tried value =>
        cases progress_of_reaches reaches with
        | tryReturn split => rw [split]; rfl
        | tryNothing isEmpty => rw [isEmpty]; rfl
    | isEmpty answer =>
        cases progress_of_reaches reaches
        rfl
    | count size =>
        cases progress_of_reaches reaches
        rfl

/-- The calls that can sleep. -/
def blocking : Call α → Bool
  | .waitAndPop => true
  | _ => false

/-- A `push` adds one and notifies once; a `wait_and_pop` takes one. -/
theorem counted_length : Counted (threadSafeQueue (α := α)) blocking List.length where
  sleeps reaches sleeps := by
    obtain ⟨rfl, rfl⟩ := line_sleep sleeps
    cases progress_of_reaches reaches
    exact ⟨rfl, rfl⟩
  finishes {call before count current queue result} reaches finishes := by
    have isLast := line_finish finishes
    rw [isLast] at reaches
    cases result with
    | pushed =>
        cases progress_of_reaches reaches
        simp [blocking]
    | popped value =>
        cases progress_of_reaches reaches with
        | waitReturn split => simp [split, blocking]
    | tried value =>
        cases progress_of_reaches reaches with
        | tryReturn split => simp [split, blocking]
        | tryNothing isEmpty => simp [isEmpty, blocking]
    | isEmpty answer =>
        cases progress_of_reaches reaches
        simp [blocking]
    | count size =>
        cases progress_of_reaches reaches
        simp [blocking]
  silent {call before count current queue} reaches isBlocking := by
    cases call with
    | waitAndPop => cases progress_of_reaches reaches <;> rfl
    | _ => cases isBlocking

/-- The lines that are left at most. -/
def rank : Line α → Nat
  | .push _ => 2
  | .pushNotify => 1
  | .waitTest => 3
  | .waitFront => 2
  | .waitPop _ => 1
  | .tryTest => 3
  | .tryFront => 2
  | .tryPop _ => 1
  | .emptyTest => 1
  | .sizeRead => 1
  | _ => 0

theorem ranked_rank : Ranked (threadSafeQueue (α := α)) rank 3 where
  start call := by
    cases call <;> simp [threadSafeQueue, start, rank]
  go {current queue after next} goes := by
    cases current <;> cases queue <;> cases goes <;> simp [rank]
  notifyOne {current queue next} notifies := by
    obtain ⟨rfl, rfl⟩ := line_notifyOne notifies
    exact Nat.zero_lt_one

/-- A producer and a consumer, both outside the queue. -/
private def twoThreads : State Bool (List Nat) (Call Nat) (Result Nat) (Line Nat) where
  data := []
  mutex := none
  phase _ := .idle

private theorem twoThreads_initial :
    (machine (threadSafeQueue (α := Nat)) []).initial twoThreads :=
  ⟨rfl, rfl, fun _ => rfl⟩

section Results

variable [DecidableEq θ] [Fintype θ] {state : State θ (List α) (Call α) (Result α) (Line α)}

/-- For any number of threads and every interleaving of their lines: no operation has
an undefined result, and what the threads see is what they would see of a queue whose
operations are single steps. -/
theorem queue_operations_are_atomic {events : List (Event θ (Call α) (Result α))}
    (emitted : Emits (machine threadSafeQueue []) visible state events) :
    (∀ action, attempt threadSafeQueue state action ≠ some (.error .undefined)) ∧
      ∃ image, Represents threadSafeQueue state image ∧
        Emits (atomic effect []) atomicVisible image events := by
  obtain ⟨image, represents, shows⟩ := (simulation implements_effect []).emits emitted
  exact ⟨never_faults implements_effect represents, image, represents, shows⟩

/-- The consumer waits on the empty queue, the producer pushes and wakes it. -/
private def handOver : List (Action Bool (Call Nat)) :=
  [.call true .waitAndPop, .lock true, .run true, .call false (.push 7), .lock false, .run false,
    .notify false (some true), .run false, .unlock false, .lock true, .run true, .run true,
    .run true, .run true, .unlock true]

theorem queue_operations_are_atomic_handOver :
    ∃ state : State Bool (List Nat) (Call Nat) (Result Nat) (Line Nat), ∃ image,
      Represents threadSafeQueue state image ∧
        Emits (atomic effect []) atomicVisible image
          [.called true .waitAndPop, .called false (.push 7), .returned false .pushed,
            .returned true (.popped 7)] := by
  have shows : ((machine threadSafeQueue []).record visible twoThreads [] handOver).map Prod.snd =
      some [.called true .waitAndPop, .called false (.push 7), .returned false .pushed,
        .returned true (.popped 7)] := by decide +kernel
  obtain ⟨state, emitted⟩ := System.exists_of_record twoThreads_initial shows
  obtain ⟨_, image, represents, atomically⟩ := queue_operations_are_atomic emitted
  exact ⟨state, image, represents, atomically⟩

/-- From every state the threads can get into, they come to rest by themselves, and
then nobody is asleep in `wait_and_pop` beside a value in the queue. -/
theorem no_sleeper_beside_a_value
    (reachable : Reachable (machine threadSafeQueue []) Unconditional state) :
    ∃ limit, ∀ count after, Continues threadSafeQueue state count after →
      count ≤ limit ∧ (Quiescent threadSafeQueue after →
        after.mutex = none ∧
          (∀ thread, after.phase thread = .idle ∨ (after.phase thread).isAsleep = true) ∧
          ((∃ thread, (after.phase thread).isAsleep = true) → after.data = [])) := by
  obtain ⟨limit, settled⟩ := settles implements_effect counted_length ranked_rank reachable
  refine ⟨limit, ?_⟩
  intro count after continues
  obtain ⟨bounded, atRest⟩ := settled count after continues
  refine ⟨bounded, ?_⟩
  intro quiescent
  obtain ⟨free, resting, level⟩ := atRest quiescent
  exact ⟨free, resting, fun sleeps => List.eq_nil_of_length_eq_zero (level sleeps)⟩

/-- The moment between the push and its notification: the consumer is asleep beside a
value. -/
theorem no_sleeper_beside_a_value_before_notify :
    ∃ state : State Bool (List Nat) (Call Nat) (Result Nat) (Line Nat),
      (state.phase true).isAsleep = true ∧ state.data = [7] ∧
      ∃ limit, ∀ count after, Continues threadSafeQueue state count after →
        count ≤ limit ∧ (Quiescent threadSafeQueue after →
          after.mutex = none ∧
            (∀ thread, after.phase thread = .idle ∨ (after.phase thread).isAsleep = true) ∧
            ((∃ thread, (after.phase thread).isAsleep = true) → after.data = [])) := by
  obtain ⟨state, reachable, between⟩ := System.exists_of_replay (machine threadSafeQueue [])
    twoThreads_initial (fun state => (state.phase true).isAsleep && state.data == [7])
    (show ((machine threadSafeQueue []).replay Unconditional twoThreads
      (handOver.take 6)).any _ = true by decide +kernel)
  rw [Bool.and_eq_true, beq_iff_eq] at between
  exact ⟨state, between.1, between.2, no_sleeper_beside_a_value reachable⟩

end Results

/-! ## The loop that empties the queue -/

section Draining

variable [DecidableEq θ]

/-- The answer of `empty` that says that there is a value. -/
def Result.showsValue : Result α → Bool
  | .isEmpty answer => !answer
  | _ => false

/-- Whether the last answer that a consumer has got shows a value. -/
def noteEvent (consumer : θ) (seen : Bool) : Event θ (Call α) (Result α) → Bool
  | .called _ _ => seen
  | .returned thread result => if thread = consumer then result.showsValue else seen

def sawValue (consumer : θ) (events : List (Event θ (Call α) (Result α))) : Bool :=
  events.foldl (noteEvent consumer) false

/-- Nobody else takes values out of the queue. -/
def SingleConsumer (consumer : θ) (events : List (Event θ (Call α) (Result α))) : Prop :=
  ∀ thread call, .called thread call ∈ events → call = .waitAndPop ∨ call = .tryPop →
    thread = consumer

/-- A consumer that saw a value still finds one, unless its call has taken it. -/
def Backed (queue : List α) : Status (Call α) (Result α) → Prop
  | .done (.popped _) => True
  | .done (.tried value) => value ≠ none
  | _ => queue ≠ []

/-- What the knowledge of the consumer says about the queue. -/
structure Knows (consumer : θ) (events : List (Event θ (Call α) (Result α)))
    (image : AtomicState θ (List α) (Call α) (Result α)) : Prop where
  called : ∀ thread call, image.status thread = .pending call → .called thread call ∈ events
  saw : sawValue consumer events = true → Backed image.data (image.status consumer)
  tested : image.status consumer = .done (.isEmpty false) → image.data ≠ []

private theorem effect_keeps_values {call : Call α} {queue after : List α} {result : Result α}
    (allowed : effect call queue = some (after, result))
    (keeps : ¬ (call = .waitAndPop ∨ call = .tryPop)) (nonempty : queue ≠ []) : after ≠ [] := by
  cases call with
  | push newValue => cases allowed; simp
  | waitAndPop => exact absurd (.inl rfl) keeps
  | tryPop => exact absurd (.inr rfl) keeps
  | empty => cases allowed; exact nonempty
  | size => cases allowed; exact nonempty

private theorem effect_backed {call : Call α} {queue after : List α} {result : Result α}
    (allowed : effect call queue = some (after, result)) (nonempty : queue ≠ []) :
    Backed after (.done result) := by
  obtain ⟨front, rest, rfl⟩ := List.exists_cons_of_ne_nil nonempty
  cases call <;> cases allowed <;> simp [Backed]

private theorem effect_isEmpty {call : Call α} {queue after : List α}
    (allowed : effect call queue = some (after, .isEmpty false)) : after ≠ [] := by
  cases call with
  | empty =>
      obtain ⟨rfl, isFalse⟩ := Prod.mk.inj (Option.some.inj allowed)
      rintro rfl
      cases isFalse
  | push newValue => cases allowed
  | waitAndPop => cases queue <;> cases allowed
  | tryPop => cases queue <;> cases allowed
  | size => cases allowed

private theorem Backed.mono {queue after : List α} {status : Status (Call α) (Result α)}
    (backed : Backed queue status) (keeps : queue ≠ [] → after ≠ []) : Backed after status := by
  cases status with
  | done result => cases result <;> simp_all [Backed]
  | _ => exact keeps backed

variable {consumer : θ} {events : List (Event θ (Call α) (Result α))}
variable {image next : AtomicState θ (List α) (Call α) (Result α)} {move : AtomicAction θ (Call α)}

private theorem sawValue_append (consumer : θ) (event : Event θ (Call α) (Result α)) :
    sawValue consumer (events ++ [event]) =
      noteEvent consumer (sawValue consumer events) event := by
  rw [sawValue, List.foldl_append]
  rfl

private theorem split_last {ω : Type} {earlier front back : List ω} {event last : ω}
    (split : earlier ++ [last] = front ++ event :: back) :
    (event = last ∧ front = earlier) ∨ ∃ others, earlier = front ++ event :: others := by
  rcases List.eq_nil_or_concat back with rfl | ⟨others, final, rfl⟩
  · obtain ⟨same, lasts⟩ := List.append_inj' split rfl
    cases lasts
    exact .inl ⟨rfl, same.symm⟩
  · rw [List.concat_eq_append, ← List.cons_append, ← List.append_assoc] at split
    exact .inr ⟨others, (List.append_inj' split rfl).1⟩

private theorem Knows.call {thread : θ} {call : Call α} (knows : Knows consumer events image)
    (isIdle : image.status thread = .idle) :
    Knows consumer (events ++ [.called thread call])
      { image with status := Function.update image.status thread (.pending call) } where
  called other made pending := by
    by_cases same : other = thread
    · rw [same] at pending ⊢
      simp only [Function.update_self] at pending
      cases pending
      exact List.mem_append_right _ List.mem_cons_self
    · simp only [Function.update_of_ne same] at pending
      exact List.mem_append_left _ (knows.called other made pending)
  saw seen := by
    rw [sawValue_append] at seen
    have backed := knows.saw seen
    by_cases same : consumer = thread
    · rw [same] at backed ⊢
      rw [isIdle] at backed
      simp only [Function.update_self]
      exact backed
    · simp only [Function.update_of_ne same]
      exact backed
  tested isDone := by
    by_cases same : consumer = thread
    · rw [same] at isDone
      simp only [Function.update_self] at isDone
      cases isDone
    · simp only [Function.update_of_ne same] at isDone
      exact knows.tested isDone

private theorem Knows.apply {thread : θ} {call : Call α} {queue : List α} {result : Result α}
    (knows : Knows consumer events image) (alone : SingleConsumer consumer events)
    (isPending : image.status thread = .pending call)
    (allowed : effect call image.data = some (queue, result)) :
    Knows consumer events ⟨queue, Function.update image.status thread (.done result)⟩ := by
  have keeps : consumer ≠ thread → image.data ≠ [] → queue ≠ [] := by
    intro apart
    apply effect_keeps_values allowed
    intro pops
    exact apart (alone thread call (knows.called thread call isPending) pops).symm
  constructor
  · intro other made pending
    by_cases same : other = thread
    · rw [same] at pending
      simp only [Function.update_self] at pending
      cases pending
    · simp only [Function.update_of_ne same] at pending
      exact knows.called other made pending
  · intro seen
    have backed := knows.saw seen
    by_cases same : consumer = thread
    · rw [same] at backed ⊢
      rw [isPending] at backed
      simp only [Function.update_self]
      exact effect_backed allowed backed
    · simp only [Function.update_of_ne same]
      exact backed.mono (keeps same)
  · intro isDone
    by_cases same : consumer = thread
    · rw [same] at isDone
      simp only [Function.update_self] at isDone
      cases isDone
      exact effect_isEmpty allowed
    · simp only [Function.update_of_ne same] at isDone
      exact keeps same (knows.tested isDone)

private theorem Knows.answer {thread : θ} {result : Result α} (knows : Knows consumer events image)
    (isDone : image.status thread = .done result) :
    Knows consumer (events ++ [.returned thread result])
      { image with status := Function.update image.status thread .idle } where
  called other made pending := by
    by_cases same : other = thread
    · rw [same] at pending
      simp only [Function.update_self] at pending
      cases pending
    · simp only [Function.update_of_ne same] at pending
      exact List.mem_append_left _ (knows.called other made pending)
  saw seen := by
    rw [sawValue_append] at seen
    by_cases same : thread = consumer
    · -- the answer was right when it was given, and nobody else takes values
      rw [noteEvent, if_pos same] at seen
      rw [same] at isDone ⊢
      simp only [Function.update_self]
      cases result with
      | isEmpty answer =>
          cases answer with
          | false => exact knows.tested isDone
          | true => cases seen
      | _ => cases seen
    · rw [noteEvent, if_neg same] at seen
      simp only [Function.update_of_ne (Ne.symm same)]
      exact knows.saw seen
  tested later := by
    by_cases same : consumer = thread
    · rw [same] at later
      simp only [Function.update_self] at later
      cases later
    · simp only [Function.update_of_ne same] at later
      exact knows.tested later

private theorem knows_of_emits (emitted : Emits (atomic effect []) atomicVisible image events)
    (alone : SingleConsumer consumer events) :
    Knows consumer events image ∧
      ∀ front back value, events = front ++ .returned consumer (.tried value) :: back →
        sawValue consumer front = true → value ≠ none := by
  induction emitted with
  | @start image starts =>
      obtain ⟨isEmpty, idle⟩ := starts
      refine ⟨⟨?_, ?_, ?_⟩, ?_⟩
      · intro thread call pending
        rw [idle thread] at pending
        cases pending
      · intro seen
        cases seen
      · intro isDone
        rw [idle consumer] at isDone
        cases isDone
      · intro front back value split
        simp at split
  | @next image after move events before enabled steps inductionHypothesis =>
      have earlier : SingleConsumer consumer events := by
        intro thread call member
        exact alone thread call (List.mem_append_left _ member)
      obtain ⟨knows, kept⟩ := inductionHypothesis earlier
      rcases atomicAttempt_cases (attempt_of_atomic enabled steps) with
        ⟨thread, call, rfl, isIdle, rfl⟩ |
        ⟨thread, call, queue, result, rfl, isPending, allowed, rfl⟩ |
        ⟨thread, result, rfl, isDone, rfl⟩
      · refine ⟨knows.call isIdle, ?_⟩
        intro front back value split seen
        rcases split_last split with ⟨impossible, _⟩ | ⟨others, earlier⟩
        · cases impossible
        · exact kept front others value earlier seen
      · simp only [atomicVisible, Option.toList_none, List.append_nil]
        exact ⟨knows.apply earlier isPending allowed, kept⟩
      · have shown : atomicVisible image (.answer thread) = some (.returned thread result) := by
          rw [atomicVisible, isDone]
        rw [shown]
        refine ⟨knows.answer isDone, ?_⟩
        intro front back value split seen
        rcases split_last split with ⟨same, rfl⟩ | ⟨others, earlier⟩
        · cases same
          have backed := knows.saw seen
          rw [isDone] at backed
          exact backed
        · exact kept front others value earlier seen

/-- Where one thread alone takes values out of the queue, its `try_pop` behind an
`empty` that said no always gets one, whatever the other threads do in between. -/
theorem single_consumer_never_misses [Fintype θ]
    {state : State θ (List α) (Call α) (Result α) (Line α)}
    {front back : List (Event θ (Call α) (Result α))} {value : Option α}
    (emitted : Emits (machine threadSafeQueue []) visible state
      (front ++ .returned consumer (.tried value) :: back))
    (alone : SingleConsumer consumer (front ++ .returned consumer (.tried value) :: back))
    (saw : sawValue consumer front = true) : value ≠ none := by
  obtain ⟨image, _, shows⟩ := (simulation implements_effect []).emits emitted
  exact (knows_of_emits shows alone).2 front back value rfl saw

/-- One turn of the loop in `run`, with a push between its two calls. -/
private def oneTurn : List (Action Bool (Call Nat)) :=
  [.call false (.push 7), .lock false, .run false, .notify false none, .run false, .unlock false,
    .call true .empty, .lock true, .run true, .run true, .unlock true, .call false (.push 8),
    .call true .tryPop, .lock false, .run false, .notify false none, .run false, .unlock false,
    .lock true, .run true, .run true, .run true, .run true, .unlock true]

theorem single_consumer_never_misses_oneTurn :
    ∃ value, value ≠ none ∧
      ∃ state : State Bool (List Nat) (Call Nat) (Result Nat) (Line Nat),
        Emits (machine threadSafeQueue []) visible state
          ([.called false (.push 7), .returned false .pushed, .called true .empty,
            .returned true (.isEmpty false), .called false (.push 8), .called true .tryPop,
            .returned false .pushed] ++ .returned true (.tried value) :: []) := by
  have shows : ((machine threadSafeQueue []).record visible twoThreads [] oneTurn).map Prod.snd =
      some ([.called false (.push 7), .returned false .pushed, .called true .empty,
        .returned true (.isEmpty false), .called false (.push 8), .called true .tryPop,
        .returned false .pushed] ++ .returned true (.tried (some 7)) :: []) := by decide +kernel
  obtain ⟨state, emitted⟩ := System.exists_of_record twoThreads_initial shows
  refine ⟨some 7, single_consumer_never_misses emitted ?_ (by decide), state, emitted⟩
  intro thread call member pops
  simp only [List.cons_append, List.nil_append, List.mem_cons, List.not_mem_nil,
    Event.called.injEq, reduceCtorEq, false_or, or_false] at member
  rcases member with ⟨rfl, rfl⟩ | ⟨rfl, rfl⟩ | ⟨rfl, rfl⟩ | ⟨rfl, rfl⟩ <;> simp at pops ⊢

end Draining

end Onyxup.Queue
