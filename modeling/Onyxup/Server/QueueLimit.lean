import Onyxup.Lib.Admission
import Onyxup.Response.Selection
import Onyxup.Server.Responses
import Onyxup.Server.Ownership

/-!
Contract: the limit on waiting local tasks.

Owns: the server as a desk with a test and a push, the bound on `tasksQueue` over
whole runs, and the answer to a local request that is refused.

Does not own: tasks for static resources, whose queue has no limit.

The test of `limitLocalTasks` and the push are two steps; any number of workers
may pop between them. The test is `size() > limit`, so a queue that holds as many
tasks as it may lets one more in.
-/

set_option autoImplicit false

namespace Onyxup.Server

open Onyxup.Lib.CString
open Onyxup.Lib.Memory
open Onyxup.Lib.Transition
open Onyxup.Lib.Admission
open Onyxup.Http
open Onyxup.Response

/-! ## The desk -/

/-- The loop holds a local task that has passed the test. -/
def Phase.admitsLocal : Phase → Bool
  | .admitted task => task.type == .localTask
  | _ => false

def State.desk (state : State) : Desk :=
  ⟨state.tasksQueue.length, state.phase.admitsLocal⟩

/-- A local task comes to the test. -/
def localAtTest (state : State) : Action → Bool
  | .chooseQueue _ =>
      match state.phase with
      | .dispatched task => task.type == .localTask
      | _ => false
  | _ => false

/-- The test lets a local task through. -/
def letsThrough (config : Config) (state : State) (action : Action) (waiting : Nat) : Prop :=
  localAtTest state action = true ∧ waiting = state.tasksQueue.length ∧
    ¬ toSizeT config.limitLocalTasks < state.tasksQueue.length

section Desk

variable {config : Config} {state after : State} {passes : Nat → Prop}

private theorem move_of_custody {phase : Phase} (custody : after.custody = state.custodyIn phase)
    (kept : phase.admitsLocal = true → state.phase.admitsLocal = true) :
    Desk.Move passes state.desk after.desk := by
  have place : after.phase = phase := congrArg Prod.fst custody
  have queue : after.tasksQueue = state.tasksQueue :=
    congrArg (fun custody => custody.2.1) custody
  refine .fewer ?_ ?_
  · rw [State.desk, queue]
    exact Nat.le_refl _
  · rw [State.desk, place]
    exact kept

private theorem move_of_same (custody : after.custody = state.custody) :
    Desk.Move passes state.desk after.desk :=
  move_of_custody (show after.custody = state.custodyIn state.phase from custody) id

private theorem popPerformed_move (state : State) :
    Desk.Move passes state.desk state.popPerformed.desk := by
  unfold State.popPerformed
  split
  next => exact .fewer (Nat.le_refl _) (fun held => by cases held)
  next => exact .fewer (Nat.le_refl _) (fun held => by cases held)

private theorem chooseQueue_move {answers : Answers} {task : Task}
    (dispatched : state.phase = .dispatched task)
    (chooses : state.chooseQueue config answers task = .ok after) :
    Desk.Move (letsThrough config state (.chooseQueue answers)) state.desk after.desk := by
  rcases chooseQueue_tasksKept chooses with ⟨kept, _, room⟩ | ⟨kept, _⟩
  · by_cases kind : task.type = .localTask
    · have atTest : localAtTest state (.chooseQueue answers) = true := by
        simp [localAtTest, dispatched, kind]
      have queue : after.tasksQueue = state.tasksQueue :=
        congrArg (fun custody => custody.2.1) kept.custody
      refine .test ⟨atTest, rfl, room kind⟩ ?_
      rw [State.desk, queue]
      rfl
    · apply move_of_custody kept.custody
      intro isLocal
      exact absurd (by simpa [Phase.admitsLocal] using isLocal) kind
  · apply move_of_custody kept.custody
    intro impossible
    cases impossible

private theorem addTask_move {task : Task} (admitted : state.phase = .admitted task) :
    Desk.Move passes state.desk (state.addTask task).desk := by
  unfold State.addTask
  dsimp only
  split
  next kind =>
    refine .push ?_ ?_ rfl
    · simp [State.desk, admitted, Phase.admitsLocal, kind]
    · simp [State.desk, State.addTotalNumberClientRequests]
  next => exact .fewer (Nat.le_refl _) (fun held => by cases held)
  next => exact .fewer (Nat.le_refl _) (fun held => by cases held)

private theorem workerTake_move (id : Nat) (state : State) :
    Desk.Move passes state.desk (state.workerTake id).desk := by
  unfold State.workerTake State.workerQueue
  split
  next => exact .fewer (Nat.le_refl _) (fun held => held)
  next task rest queue =>
    dsimp only
    split
    next => exact .fewer (Nat.le_refl _) (fun held => held)
    next notStatic =>
      rw [if_neg notStatic] at queue
      refine .fewer ?_ (fun held => held)
      simp [State.desk, queue]

private theorem workerFinish_move (id : Nat) (response : ResponseBase) (datetime : Bytes)
    (entries : List (Bytes × Bytes)) (state : State) :
    Desk.Move passes state.desk
      (state.workerFinish config id response datetime entries).desk := by
  unfold State.workerFinish
  split
  next => exact .fewer (Nat.le_refl _) (fun held => held)
  next => exact .fewer (Nat.le_refl _) (fun held => held)

/-- Every step of the server is a move of the desk. -/
theorem step_desk {action : Action} (allowed : enabled config state action = true)
    (steps : step config state action = .ok after) :
    Desk.Move (letsThrough config state action) state.desk after.desk := by
  cases action with
  | tick duration =>
      rw [← Except.ok.inj steps]
      exact move_of_same rfl
  | beginIteration =>
      rw [← Except.ok.inj steps]
      exact .fewer (Nat.le_refl _) (fun held => by cases held)
  | checkTimeLimit answers =>
      obtain ⟨index, scanning⟩ := situation_of_enabled allowed
      simp only [step, scanning] at steps
      rcases scanStep_tasksKept steps with ⟨_, custody, _⟩ | ⟨_, custody, _⟩
      · exact move_of_custody custody (fun held => by cases held)
      · exact move_of_custody custody (fun held => by cases held)
  | popPerformed =>
      rw [← Except.ok.inj steps]
      exact popPerformed_move state
  | deliver answers =>
      obtain ⟨task, delivering⟩ := situation_of_enabled allowed
      simp only [step, delivering] at steps
      exact move_of_custody (deliver_tasksKept steps).custody (fun held => by cases held)
  | hangUp fd =>
      rw [← Except.ok.inj steps]
      exact move_of_same rfl
  | accept result =>
      rw [← Except.ok.inj steps]
      exact move_of_same (accept_tasksKept result).custody
  | receive fd result modified allocated answers =>
      rcases receive_tasksKept steps with kept | ⟨task, _, custody, _⟩
      · exact move_of_same kept.custody
      · have place : after.phase = .dispatched task := congrArg Prod.fst custody
        have queue : after.tasksQueue = state.tasksQueue :=
          congrArg (fun custody => custody.2.1) custody
        refine .fewer (Nat.le_of_eq (congrArg List.length queue)) (fun held => ?_)
        rw [State.desk, place] at held
        cases held
  | chooseQueue answers =>
      obtain ⟨task, dispatched⟩ := situation_of_enabled allowed
      simp only [step, dispatched] at steps
      exact chooseQueue_move dispatched steps
  | addTask =>
      obtain ⟨task, admitted⟩ := situation_of_enabled allowed
      simp only [step, admitted] at steps
      rw [← Except.ok.inj steps]
      exact addTask_move admitted
  | send fd result modified => exact move_of_same (send_tasksKept steps).custody
  | workerTake id =>
      rw [← Except.ok.inj steps]
      exact workerTake_move id state
  | workerFinish id response datetime entries =>
      rw [← Except.ok.inj steps]
      exact workerFinish_move id response datetime entries state

end Desk

/-- In every run whose tests let nothing through at `bound`, the local queue stays
within it. -/
theorem desk_within {config : Config} {condition : State → Action → Prop} {bound : Nat}
    (strict : ∀ state action, condition state action → localAtTest state action = true →
      ¬ toSizeT config.limitLocalTasks < state.tasksQueue.length →
      state.tasksQueue.length < bound)
    {state : State} (reachable : Reachable (server config) condition state) :
    Within bound state.desk := by
  apply reachable.invariant
  · intro start initial
    constructor
    · simp [State.desk, initial.queues.1]
    · intro held
      rw [State.desk, initial.phase] at held
      cases held
  · intro before action next within allowed meets steps
    refine within.preserved ?_ (step_desk allowed steps)
    rintro count ⟨atTest, rfl, room⟩
    exact strict before action meets atTest room

/-! ## The output buffer of a connection that waits -/

/-- The output array has its full size, and unless the slot writes nothing has been
sent from it. -/
def Slot.Fresh (config : Config) (slot : Slot) : Prop :=
  ∀ buffer, slot.buffer = some buffer →
    buffer.outputBufferLength = config.maxOutputBufferLength ∧
      (slot.interest ≠ some .write → buffer.posOutputBuffer = 0)

section Fresh

variable {config : Config} {fd : Nat} {slot after : Slot}

private theorem fresh_of_answer {request : Option Request} (fresh : slot.Fresh config)
    (page : Answered config slot request after) : after.Fresh config := by
  obtain ⟨has, _, _, writes⟩ := page
  rintro written ⟨⟩
  refine ⟨?_, fun notWriting => absurd rfl notWriting⟩
  rw [Buffer.writeOutput_outputLength writes]
  exact (fresh _ has).1

private theorem fresh_of_read {decision : Decision} {interest : Option Interest}
    (fresh : slot.Fresh config) (read : ReadChunk config slot decision after) :
    ({ after with interest := interest } : Slot).Fresh config := by
  obtain ⟨reading, _, has, _, read⟩ := read
  obtain ⟨capacity, unsent⟩ := fresh _ has
  have start := unsent (by rw [reading]; simp)
  rintro buffer ⟨⟩
  rcases Connection.receive_buffer read with same | added
  · rw [same]
    exact ⟨capacity, fun _ => start⟩
  · obtain ⟨_, _, _, samePosition, sameLength⟩ := Buffer.addDataToInputBuffer_ok added
    rw [samePosition, sameLength]
    exact ⟨capacity, fun _ => start⟩

private theorem fresh_of_move {mayExpire mayRefuse : Slot → Bool} {clock number : Nat}
    (_ : Sound config fd slot) (fresh : slot.Fresh config)
    (move : Move config fd mayExpire mayRefuse clock number slot after) :
    after.Fresh config := by
  cases move with
  | opened _ made =>
      obtain ⟨_, _, capacity, _, start, _⟩ := bufferFactory_some made
      rintro buffer ⟨⟩
      exact ⟨capacity, fun _ => start⟩
  | closed => rintro buffer ⟨⟩
  | turnedAway => rintro buffer ⟨⟩
  | waited read => exact fresh_of_read fresh read
  | refused _ _ _ page =>
      refine fresh_of_answer ?_ page
      exact fresh
  | expired _ _ _ page =>
      have answered := fresh_of_answer fresh page
      exact answered
  | sent writing has =>
      rintro buffer ⟨⟩
      refine ⟨(fresh _ has).1, fun notWriting => absurd writing notWriting⟩
  | reset _ _ has =>
      rintro buffer ⟨⟩
      exact ⟨(fresh _ has).1, fun _ => rfl⟩

end Fresh

/-- Every output array of a run has its full size, and no slot has sent from it
without being about to write. -/
theorem fresh_of_reachable {config : Config} {state : State}
    (reachable : Reachable (server config) Unconditional state) (fd : Nat) :
    (state.slots fd).Fresh config := by
  have permitted := reachable.weaken fun state action _ => Permits.of_all config state action
  refine slotwise_of_reachable (fun none _ buffer some => ?_) fresh_of_move
    fresh_of_read (fun _ fresh _ page => fresh_of_answer fresh page) permitted fd
  rw [none] at some
  cases some

/-- A connection whose request has just been dispatched has an empty output buffer
of full size. -/
theorem output_of_dispatched {config : Config} {state : State} {task : Task}
    (reachable : Reachable (server config) Unconditional state)
    (dispatched : state.phase = .dispatched task) :
    ∃ buffer, (state.slots task.fd).buffer = some buffer ∧ buffer.numberBytesToSend = 0 ∧
      buffer.posOutputBuffer = 0 ∧
      buffer.outputBufferLength = config.maxOutputBufferLength := by
  have invariant := Invariant.of_reachable reachable
  have idle := invariant.idle_of_pending (by rw [dispatched]; rfl)
  obtain ⟨buffer, _, has, _, open_⟩ := (invariant.sound task.fd).of_interest idle
  obtain ⟨capacity, start⟩ := fresh_of_reachable reachable task.fd buffer has
  exact ⟨buffer, has, (open_.waiting rfl).1, start (by rw [idle]; simp), capacity⟩

/-! ## The refusal -/

/-- The loop refuses the task it has dispatched: the 503 page is what its connection
will be sent, and the task is deleted. -/
def RefusedWith503 (config : Config) (audited : Audited) (task : Task) (answers : Answers) :
    Prop :=
  ∃ after buffer, auditedStep config audited (.server (.chooseQueue answers)) = .ok after ∧
    (after.state.slots task.fd).buffer = some buffer ∧
    buffer.unsent = page503 config.identity answers.datetime ∧
    (after.state.slots task.fd).interest = some .write ∧
    after.ledger.deleted = audited.ledger.deleted ++ [task]

/-- The pages differ in the status that they state. -/
theorem page413_ne_page503 (identity : Identity) (datetime : Bytes) :
    page413 identity datetime ≠ page503 identity datetime := by
  intro same
  have stated : HasStatus (page413 identity datetime) 413 :=
    (hasStatus_prepareResponse identity datetime _ (by decide) (by decide) 413).mpr rfl
  rw [same] at stated
  have code : (503 : Int) = 413 :=
    (hasStatus_prepareResponse identity datetime _ (by decide) (by decide) 413).mp stated
  exact absurd code (by decide)

section Refusal

variable {config : Config} {audited : Audited} {task : Task} {answers : Answers}
  {buffer : Buffer}

private theorem refused_of_write {written : Buffer}
    (dispatched : audited.state.phase = .dispatched task) (kind : task.type = .localTask)
    (full : toSizeT config.limitLocalTasks < audited.state.tasksQueue.length)
    (has : (audited.state.slots task.fd).buffer = some buffer)
    (writes : buffer.writeOutput config.maxOutputBufferLength
      (page413 config.identity answers.datetime) (page503 config.identity answers.datetime) =
        .ok written)
    (shown : written.unsent = page503 config.identity answers.datetime)
    (registered : answers.modified = true) :
    RefusedWith503 config audited task answers := by
  unfold RefusedWith503 auditedStep
  simp only [step, dispatched, State.chooseQueue, kind, if_pos full, State.writeToOutputBuffer,
    has, writes, if_pos registered]
  refine ⟨_, written, rfl, ?_, shown, ?_, ?_⟩
  · simp only [State.addTotalNumberClientRequests, State.setSlot, Function.update_self]
  · simp only [State.addTotalNumberClientRequests, State.setSlot, Function.update_self]
  · simp only [deletedBy, dispatched, kind, if_pos full]

private theorem write_of_refused (dispatched : audited.state.phase = .dispatched task)
    (kind : task.type = .localTask)
    (full : toSizeT config.limitLocalTasks < audited.state.tasksQueue.length)
    (has : (audited.state.slots task.fd).buffer = some buffer)
    (refused : RefusedWith503 config audited task answers) :
    answers.modified = true ∧ ∃ written,
      buffer.writeOutput config.maxOutputBufferLength
        (page413 config.identity answers.datetime)
        (page503 config.identity answers.datetime) = .ok written ∧
      written.unsent = page503 config.identity answers.datetime := by
  obtain ⟨after, answer, steps, hasAnswer, shown, _, _⟩ := refused
  simp only [auditedStep, step, dispatched, State.chooseQueue, kind, if_pos full,
    State.writeToOutputBuffer, has] at steps
  cases writes : buffer.writeOutput config.maxOutputBufferLength
      (page413 config.identity answers.datetime)
      (page503 config.identity answers.datetime) with
  | error fault => simp only [writes] at steps; cases steps
  | ok written =>
      simp only [writes] at steps
      cases registered : answers.modified with
      | false => simp only [registered] at steps; cases steps
      | true =>
          simp only [registered, if_true] at steps
          rw [← Except.ok.inj steps] at hasAnswer
          simp only [State.addTotalNumberClientRequests, State.setSlot,
            Function.update_self] at hasAnswer
          cases hasAnswer
          exact ⟨rfl, answer, rfl, shown⟩

/-- A local request that is refused gets the 503 page if and only if `epoll_ctl`
agrees to it and the page is shorter than the output buffer. -/
theorem refusedWith503_iff (reachable : Reachable (auditedServer config) Unconditional audited)
    (dispatched : audited.state.phase = .dispatched task) (kind : task.type = .localTask)
    (full : toSizeT config.limitLocalTasks < audited.state.tasksQueue.length) :
    RefusedWith503 config audited task answers ↔
      answers.modified = true ∧
        (page503 config.identity answers.datetime).length < config.maxOutputBufferLength := by
  obtain ⟨buffer, has, drained, start, capacity⟩ :=
    output_of_dispatched (reachable_of_audited reachable) dispatched
  have fits := Buffer.writeOutput_unsent_iff drained start capacity
    (page413_ne_page503 config.identity answers.datetime)
  constructor
  · intro refused
    obtain ⟨registered, written⟩ := write_of_refused dispatched kind full has refused
    exact ⟨registered, fits.mp written⟩
  · rintro ⟨registered, short⟩
    obtain ⟨written, writes, shown⟩ := fits.mpr short
    exact refused_of_write dispatched kind full has writes shown registered

end Refusal

/-! ## The limit -/

/-- No local task comes to the test while exactly as many tasks wait as may. -/
def LocalTasksFindRoom (config : Config) (state : State) (action : Action) : Prop :=
  localAtTest state action = true →
    (state.tasksQueue.length : Int) ≠ config.limitLocalTasks

instance (config : Config) (state : State) (action : Action) :
    Decidable (LocalTasksFindRoom config state action) :=
  inferInstanceAs (Decidable (_ → _))

/-- **The limit on waiting local tasks.** For every number of workers and every
interleaving: while no local task comes to the test with exactly `limitLocalTasks`
tasks waiting, at most so many wait; in any run at most one more does. A local
request that finds more than `limitLocalTasks` tasks waiting is answered with 503
and its task is deleted, provided `epoll_ctl` agrees and the page fits. -/
theorem local_queue_bounded (config : Config) (natural : 0 ≤ config.limitLocalTasks)
    (isInt : config.limitLocalTasks < 2147483648) :
    (∀ state, Reachable (server config) (LocalTasksFindRoom config) state →
        (state.tasksQueue.length : Int) ≤ config.limitLocalTasks) ∧
      (∀ state, Reachable (server config) Unconditional state →
        (state.tasksQueue.length : Int) ≤ config.limitLocalTasks + 1) ∧
      ∀ audited task answers, Reachable (auditedServer config) Unconditional audited →
        audited.state.phase = .dispatched task → task.type = .localTask →
        config.limitLocalTasks < audited.state.tasksQueue.length →
        (RefusedWith503 config audited task answers ↔
          answers.modified = true ∧
            (page503 config.identity answers.datetime).length <
              config.maxOutputBufferLength) := by
  have limit : (toSizeT config.limitLocalTasks : Int) = config.limitLocalTasks :=
    toSizeT_of_small natural (by omega)
  refine ⟨fun state reachable => ?_, fun state reachable => ?_, ?_⟩
  · have within : Within (toSizeT config.limitLocalTasks) state.desk := by
      refine desk_within (fun state action finds atTest room => ?_) reachable
      have notFull := finds atTest
      omega
    have waiting : state.tasksQueue.length ≤ toSizeT config.limitLocalTasks := within.waiting
    omega
  · have within : Within (toSizeT config.limitLocalTasks + 1) state.desk :=
      desk_within (fun state action _ _ room => Nat.lt_succ_of_le (Nat.le_of_not_lt room)) reachable
    have waiting : state.tasksQueue.length ≤ toSizeT config.limitLocalTasks + 1 := within.waiting
    omega
  · intro audited task answers reachable dispatched kind full
    exact refusedWith503_iff reachable dispatched kind (by omega)

/-- A few descriptors, and one local task may wait. -/
def shortQueueConfig : Config :=
  { smallConfig with maxConnection := 8, limitLocalTasks := 1 }

/-- A client connects and its request is dispatched; no worker has woken up. -/
def requestArrives (fd : Nat) : List Action :=
  [.accept ⟨fd, true, true, List.replicate 64 0, List.replicate 1024 0, true, true⟩,
    .receive fd (.data simpleGet) true true ⟨[], true⟩]

/-- The same up to the push. -/
def requestQueued (fd : Nat) : List Action :=
  requestArrives fd ++ [.chooseQueue ⟨[], true⟩, .addTask]

/-- A test on the task that the loop has dispatched. -/
def State.dispatchedTest (state : State) (test : Task → Bool) : Bool :=
  match state.phase with
  | .dispatched task => test task
  | _ => false

theorem State.dispatchedTest_true {state : State} {test : Task → Bool}
    (passes : state.dispatchedTest test = true) :
    ∃ task, state.phase = .dispatched task ∧ test task = true := by
  unfold State.dispatchedTest at passes
  split at passes
  next task dispatched => exact ⟨task, dispatched, passes⟩
  next => cases passes

/-- One request waits, as it may. When two wait, the third is refused. -/
theorem one_request_waits_third_refused :
    (∃ state : State, state.tasksQueue.length = 1 ∧
      (state.tasksQueue.length : Int) ≤ shortQueueConfig.limitLocalTasks) ∧
    ∃ (audited : Audited) (task : Task), audited.state.phase = .dispatched task ∧
      audited.state.tasksQueue.length = 2 ∧
      RefusedWith503 shortQueueConfig audited task ⟨[], true⟩ := by
  obtain ⟨bounded, _, refused⟩ := local_queue_bounded shortQueueConfig (by decide) (by decide)
  constructor
  · obtain ⟨state, reachable, passes⟩ := (server shortQueueConfig).exists_of_replay
      (smallState_initial_of rfl) (fun state => decide (state.tasksQueue.length = 1))
      (show ((server shortQueueConfig).replay (LocalTasksFindRoom shortQueueConfig) smallState
        (requestQueued 4)).any _ = true by decide +kernel)
    exact ⟨state, of_decide_eq_true passes, bounded state reachable⟩
  · obtain ⟨audited, reachable, passes⟩ := (auditedServer shortQueueConfig).exists_of_replay
      (show (auditedServer shortQueueConfig).initial smallAudited from
        ⟨smallState_initial_of rfl, rfl⟩)
      (fun audited => decide (audited.state.tasksQueue.length = 2) &&
        audited.state.dispatchedTest fun task => decide (task.type = .localTask))
      (show ((auditedServer shortQueueConfig).replay Unconditional smallAudited
        ((requestQueued 4 ++ requestQueued 5 ++ requestArrives 6).map .server)).any _ = true by
        decide +kernel)
    rw [Bool.and_eq_true, decide_eq_true_eq] at passes
    obtain ⟨task, dispatched, kind⟩ := State.dispatchedTest_true passes.2
    have full : shortQueueConfig.limitLocalTasks < audited.state.tasksQueue.length := by
      rw [passes.1]
      decide
    refine ⟨audited, task, dispatched, passes.1, ?_⟩
    exact (refused audited task ⟨[], true⟩ reachable dispatched (of_decide_eq_true kind) full).mpr
      ⟨rfl, by decide +kernel⟩

/-- Two requests arrive before a worker wakes up: both wait, where one may. -/
theorem second_request_waits :
    ∃ state, Reachable (server shortQueueConfig) Unconditional state ∧
      ¬ (state.tasksQueue.length : Int) ≤ shortQueueConfig.limitLocalTasks := by
  obtain ⟨state, reachable, passes⟩ := (server shortQueueConfig).exists_of_replay
    (smallState_initial_of rfl) (fun state => decide (state.tasksQueue.length = 2))
    (show ((server shortQueueConfig).replay Unconditional smallState
      (requestQueued 4 ++ requestQueued 5)).any _ = true by decide +kernel)
  refine ⟨state, reachable, ?_⟩
  rw [of_decide_eq_true passes]
  decide

end Onyxup.Server
