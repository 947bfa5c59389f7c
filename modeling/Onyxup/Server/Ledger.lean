import Onyxup.Lib.Custody
import Onyxup.Server.Delivery

/-!
Contract: the server with a ledger of its tasks.

Owns: the ledger of handler calls and of deleted tasks, the places where a task can
be, and what each kind of hand-over does to these places.

Does not own: what a handler does. A handler that does not return keeps its worker
from finishing; one that throws ends the program.

A task is a raw pointer in the source. Its serial number, which no step reads,
stands for the pointer. The turn of a worker has three parts here: it takes the
task, it calls the handler, it pushes the task.
-/

set_option autoImplicit false

namespace Onyxup.Server

open Onyxup.Lib.CString
open Onyxup.Lib.Transition
open Onyxup.Lib.Custody
open Onyxup.Http
open Onyxup.Response

/-! ## The server with a ledger -/

/-- What has become of the tasks. -/
structure Ledger where
  /-- The worker has called the handler of the task it holds. -/
  called : Nat → Bool
  /-- Every call of a handler: the worker and the task. -/
  runs : List (Nat × Task)
  deleted : List Task

structure Audited where
  state : State
  ledger : Ledger

inductive AuditedAction where
  | server (action : Action)
  | callHandler (id : Nat)

/-- The tasks whose handler a worker calls. -/
def Task.runs (task : Task) : Bool :=
  task.type == .localTask || task.type == .staticResourcesTask

/-- The four places with `delete task`: delivered or stale, 503, unknown type. -/
def deletedBy (config : Config) (state : State) : Action → List Task
  | .deliver _ =>
      match state.phase with
      | .delivering task => [task]
      | _ => []
  | .chooseQueue _ =>
      match state.phase with
      | .dispatched task =>
          match task.type with
          | .localTask =>
              if Lib.Memory.toSizeT config.limitLocalTasks < state.tasksQueue.length then [task]
              else []
          | .staticResourcesTask => []
          | .jsonRpcTask => [task]
      | _ => []
  | _ => []

/-- A worker starts each turn without having called a handler. -/
def calledAfter (called : Nat → Bool) : Action → Nat → Bool
  | .workerTake id => Function.update called id false
  | _ => called

/-- A worker pushes the task only when the handler has returned, or when there was
nothing to call. -/
def mayFinish (audited : Audited) : Action → Bool
  | .workerFinish id _ _ _ =>
      match audited.state.workers[id]? with
      | some (some task) => audited.ledger.called id || !task.runs
      | _ => false
  | _ => true

def auditedEnabled (config : Config) (audited : Audited) : AuditedAction → Bool
  | .server action => enabled config audited.state action && mayFinish audited action
  | .callHandler id =>
      match audited.state.workers[id]? with
      | some (some task) => task.runs && !audited.ledger.called id
      | _ => false

def auditedStep (config : Config) (audited : Audited) : AuditedAction → Except Fault Audited
  | .server action =>
      match step config audited.state action with
      | .error fault => .error fault
      | .ok after => .ok {
          state := after
          ledger := {
            called := calledAfter audited.ledger.called action
            runs := audited.ledger.runs
            deleted := audited.ledger.deleted ++ deletedBy config audited.state action } }
  | .callHandler id =>
      match audited.state.workers[id]? with
      | some (some task) => .ok {
          state := audited.state
          ledger := { audited.ledger with
            called := Function.update audited.ledger.called id true
            runs := audited.ledger.runs ++ [(id, task)] } }
      | _ => .ok audited

/-- The server whose ledger is empty when it starts. -/
def auditedServer (config : Config) : System Audited AuditedAction Fault where
  initial audited := Initial config audited.state ∧
    audited.ledger = ⟨fun _ => false, [], []⟩
  enabled := auditedEnabled config
  step := auditedStep config

/-- The ledger does not change what the server does. -/
theorem reachable_of_audited {config : Config} {audited : Audited}
    (reachable : Reachable (auditedServer config) Unconditional audited) :
    Reachable (server config) Unconditional audited.state := by
  induction reachable with
  | start initial => exact .start initial.1
  | @next before after action _ allowed _ steps inductionHypothesis =>
      cases action with
      | server action =>
          simp only [auditedServer, auditedEnabled, Bool.and_eq_true] at allowed
          simp only [auditedServer, auditedStep] at steps
          split at steps
          next => cases steps
          next moves =>
            cases steps
            exact inductionHypothesis.next allowed.1 trivial moves
      | callHandler id =>
          simp only [auditedServer, auditedStep] at steps
          split at steps <;> cases steps <;> exact inductionHypothesis

/-! ## Places -/

/-- Where a task can be. The loop holds it in two places, before it is queued and
when it comes back; a worker holds it in two, before and after the call. -/
inductive Place where
  | dispatched
  | tasksQueue
  | staticTasksQueue
  | worker (id : Nat)
  | served (id : Nat)
  | performedTasksQueue
  | delivering
  | deleted
deriving DecidableEq

/-- The handler of the task has not been called. -/
def Place.front : Place → Prop
  | .dispatched | .tasksQueue | .staticTasksQueue | .worker _ => True
  | _ => False

/-- The handler of the task has returned. -/
def Place.behind : Place → Prop
  | .served _ | .performedTasksQueue | .delivering => True
  | _ => False

/-- The task in the hands of a worker. -/
def State.heldBy (state : State) (id : Nat) : List Task :=
  (state.workers[id]?).join.toList

def Audited.tasksAt (audited : Audited) : Place → List Task
  | .dispatched => audited.state.phase.hands.1
  | .tasksQueue => audited.state.tasksQueue
  | .staticTasksQueue => audited.state.staticTasksQueue
  | .worker id => if audited.ledger.called id then [] else audited.state.heldBy id
  | .served id => if audited.ledger.called id then audited.state.heldBy id else []
  | .performedTasksQueue => audited.state.performedTasksQueue
  | .delivering => audited.state.phase.hands.2
  | .deleted => audited.ledger.deleted

def Audited.serialsAt (audited : Audited) (place : Place) : List Nat :=
  (audited.tasksAt place).map Task.serial

def Ledger.runSerials (ledger : Ledger) : List Nat :=
  ledger.runs.map fun run => run.2.serial

/-! ## What a step does to the places -/

/-- The loop's position, the queues, the workers, and how many tasks there have
been. -/
def State.custody (state : State) :
    Phase × List Task × List Task × List Task × List (Option Task) × Nat :=
  (state.phase, state.tasksQueue, state.staticTasksQueue, state.performedTasksQueue,
    state.workers, state.tasksCreated)

/-- The same with the loop somewhere else. -/
def State.custodyIn (state : State) (phase : Phase) :
    Phase × List Task × List Task × List Task × List (Option Task) × Nat :=
  (phase, state.custody.2)

/-- The tasks and the counter of the scan are as they were, and the loop is in `phase`. -/
structure TasksKept (state : State) (phase : Phase) (after : State) : Prop where
  custody : after.custody = state.custodyIn phase
  counter : after.counterCheckLimitTimeRequest = state.counterCheckLimitTimeRequest

section Frames

variable {config : Config} {state after : State}

/-- The loop goes somewhere else. -/
theorem TasksKept.goesTo {phase : Phase} (kept : TasksKept state phase after)
    (other : Phase) : TasksKept state other { after with phase := other } :=
  ⟨congrArg (Prod.mk other) (congrArg Prod.snd kept.custody), kept.counter⟩

theorem TasksKept.place {phase : Phase} (kept : TasksKept state phase after) :
    after.phase = phase :=
  congrArg Prod.fst kept.custody

theorem writeToOutputBuffer_tasksKept {answers : Answers} {fd : Nat} {data : Bytes}
    {stillOpen : Bool}
    (writes : state.writeToOutputBuffer config answers fd data = .ok (stillOpen, after)) :
    TasksKept state state.phase after := by
  unfold State.writeToOutputBuffer at writes
  split at writes
  next => cases writes
  next =>
    split at writes
    next => cases writes
    next =>
      dsimp only at writes
      split at writes <;> cases writes <;> exact ⟨rfl, rfl⟩

theorem checkTimeLimit_tasksKept {answers : Answers} {index : Nat}
    (checks : state.checkTimeLimit config answers index = .ok after) :
    TasksKept state state.phase after := by
  unfold State.checkTimeLimit at checks
  split at checks
  next =>
    cases checks
    exact ⟨rfl, rfl⟩
  next =>
    split at checks
    next =>
      split at checks
      next =>
        cases checks
        exact ⟨rfl, rfl⟩
      next =>
        split at checks
        next => cases checks
        next writes =>
          split at checks
          next => cases checks
          next =>
            cases checks
            have kept := writeToOutputBuffer_tasksKept writes
            exact ⟨kept.custody, kept.counter⟩
    next =>
      cases checks
      exact ⟨rfl, rfl⟩

theorem refuseInput_tasksKept {answers : Answers} {fd : Nat}
    (refuses : state.refuseInput config answers fd = .ok after) :
    TasksKept state state.phase after := by
  unfold State.refuseInput at refuses
  split at refuses
  next => cases refuses
  next writes =>
    split at refuses
    next => cases refuses
    next =>
      cases refuses
      have kept := writeToOutputBuffer_tasksKept writes
      exact ⟨kept.custody, kept.counter⟩

/-- A slot is examined, or the scan ends and its counter goes on. -/
theorem scanStep_tasksKept {answers : Answers} {index : Nat}
    (scans : state.scanStep config answers index = .ok after) :
    (index < config.maxConnection ∧ index < state.counterCheckLimitTimeRequest + 100) ∧
        TasksKept state (.scan (index + 1)) after ∨
      ¬ (index < config.maxConnection ∧ index < state.counterCheckLimitTimeRequest + 100) ∧
        after.custody = state.custodyIn .drain ∧
        after.counterCheckLimitTimeRequest =
          (state.counterCheckLimitTimeRequest + 100) % config.maxConnection := by
  unfold State.scanStep at scans
  split at scans
  next inside =>
    split at scans
    next => cases scans
    next checked checks =>
      cases scans
      exact .inl ⟨inside, (checkTimeLimit_tasksKept checks).goesTo _⟩
  next outside =>
    cases scans
    exact .inr ⟨outside, rfl, rfl⟩

/-- A read step leaves the tasks alone or dispatches a new one. -/
theorem dispatch_tasksKept {modified allocated : Bool} {answers : Answers} {fd : Nat}
    {request : Request}
    (dispatches : state.dispatch config modified allocated answers fd request = .ok after) :
    TasksKept state state.phase after ∨
      ∃ task : Task, task.serial = state.tasksCreated ∧
        after.custody = (.dispatched task, state.tasksQueue, state.staticTasksQueue,
          state.performedTasksQueue, state.workers, state.tasksCreated + 1) ∧
        after.counterCheckLimitTimeRequest = state.counterCheckLimitTimeRequest := by
  unfold State.dispatch at dispatches
  split at dispatches
  next =>
    dsimp only at dispatches
    split at dispatches
    next =>
      cases dispatches
      exact .inr ⟨_, rfl, rfl, rfl⟩
    next =>
      split at dispatches
      next => cases dispatches
      next writes =>
        cases dispatches
        have kept := writeToOutputBuffer_tasksKept writes
        exact .inl ⟨kept.custody, kept.counter⟩
      next => cases dispatches
  next =>
    cases dispatches
    exact .inl ⟨rfl, rfl⟩

theorem receive_tasksKept {result : RecvResult} {modified allocated : Bool}
    {answers : Answers} {fd : Nat}
    (receives : state.receive config result modified allocated answers fd = .ok after) :
    TasksKept state state.phase after ∨
      ∃ task : Task, task.serial = state.tasksCreated ∧
        after.custody = (.dispatched task, state.tasksQueue, state.staticTasksQueue,
          state.performedTasksQueue, state.workers, state.tasksCreated + 1) ∧
        after.counterCheckLimitTimeRequest = state.counterCheckLimitTimeRequest := by
  unfold State.receive at receives
  split at receives
  next =>
    unfold State.receiveData at receives
    dsimp only at receives
    split at receives
    next =>
      split at receives
      next => cases receives
      next =>
        split at receives
        next =>
          cases receives
          exact .inl ⟨rfl, rfl⟩
        next =>
          cases receives
          exact .inl ⟨rfl, rfl⟩
        next =>
          have kept := refuseInput_tasksKept receives
          exact .inl ⟨kept.custody, kept.counter⟩
        next =>
          rcases dispatch_tasksKept receives with kept | dispatched
          · exact .inl ⟨kept.custody, kept.counter⟩
          · exact .inr dispatched
    next => cases receives
  next =>
    cases receives
    exact .inl ⟨rfl, rfl⟩
  next =>
    cases receives
    exact .inl ⟨rfl, rfl⟩
  next =>
    split at receives
    next => cases receives
    next =>
      split at receives
      next => exact .inl (refuseInput_tasksKept receives)
      next => cases receives

theorem send_tasksKept {result : Option Nat} {modified : Bool} {fd : Nat}
    (sends : state.send result modified fd = .ok after) : TasksKept state state.phase after := by
  unfold State.send at sends
  dsimp only at sends
  split at sends
  next =>
    split at sends
    next =>
      split at sends
      next =>
        cases sends
        exact ⟨rfl, rfl⟩
      next =>
        split at sends
        next =>
          cases sends
          unfold State.finishResponse
          split
          next => exact ⟨rfl, rfl⟩
          next =>
            split
            next => dsimp only; split <;> exact ⟨rfl, rfl⟩
            next => exact ⟨rfl, rfl⟩
        next =>
          cases sends
          exact ⟨rfl, rfl⟩
    next =>
      cases sends
      exact ⟨rfl, rfl⟩
  next => cases sends

/-- Delivered or stale, the task is no longer in the loop's hands. -/
theorem deliver_tasksKept {answers : Answers} {task : Task}
    (delivers : state.deliver config answers task = .ok after) :
    TasksKept state .drain after := by
  unfold State.deliver at delivers
  split at delivers
  next =>
    split at delivers
    next => cases delivers
    next writes =>
      have kept := (writeToOutputBuffer_tasksKept writes).goesTo .drain
      rw [← Except.ok.inj delivers]
      exact ⟨kept.custody, kept.counter⟩
  next =>
    rw [← Except.ok.inj delivers]
    exact ⟨rfl, rfl⟩

/-- The task goes on to its queue, or the loop goes on without it. -/
theorem chooseQueue_tasksKept {answers : Answers} {task : Task}
    (chooses : state.chooseQueue config answers task = .ok after) :
    (TasksKept state (.admitted task) after ∧ task.type ≠ .jsonRpcTask ∧
        (task.type = .localTask →
          ¬ Lib.Memory.toSizeT config.limitLocalTasks < state.tasksQueue.length)) ∨
      (TasksKept state .events after ∧
        (task.type = .localTask ∧
            Lib.Memory.toSizeT config.limitLocalTasks < state.tasksQueue.length ∨
          task.type = .jsonRpcTask)) := by
  unfold State.chooseQueue at chooses
  split at chooses
  next kind =>
    split at chooses
    next full =>
      split at chooses
      next => cases chooses
      next writes =>
        have kept := (writeToOutputBuffer_tasksKept writes).goesTo .events
        refine .inr ⟨?_, .inl ⟨kind, full⟩⟩
        rw [← Except.ok.inj chooses]
        exact ⟨kept.custody, kept.counter⟩
      next => cases chooses
    next room =>
      refine .inl ⟨?_, by simp [kind], fun _ => room⟩
      rw [← Except.ok.inj chooses]
      exact ⟨rfl, rfl⟩
  next kind =>
    refine .inl ⟨?_, by simp [kind], by simp [kind]⟩
    rw [← Except.ok.inj chooses]
    exact ⟨rfl, rfl⟩
  next kind =>
    refine .inr ⟨?_, .inr kind⟩
    rw [← Except.ok.inj chooses]
    exact ⟨rfl, rfl⟩

/-- The task that the loop has chosen a queue for is admitted, or deleted. -/
theorem chooseQueue_deletes {answers : Answers} {task : Task}
    (dispatched : state.phase = .dispatched task)
    (chooses : state.chooseQueue config answers task = .ok after) :
    (TasksKept state (.admitted task) after ∧ task.type ≠ .jsonRpcTask ∧
        deletedBy config state (.chooseQueue answers) = []) ∨
      (TasksKept state .events after ∧
        deletedBy config state (.chooseQueue answers) = [task]) := by
  simp only [deletedBy, dispatched]
  rcases chooseQueue_tasksKept chooses with ⟨kept, runs, room⟩ | ⟨kept, refused⟩
  · refine .inl ⟨kept, runs, ?_⟩
    cases kind : task.type with
    | localTask => exact if_neg (room kind)
    | staticResourcesTask => rfl
    | jsonRpcTask => exact absurd kind runs
  · refine .inr ⟨kept, ?_⟩
    rcases refused with ⟨kind, full⟩ | kind
    · simp only [kind, if_pos full]
    · simp only [kind]

/-- The task that the loop delivers, or finds stale, is deleted. -/
theorem deliver_deletes {answers : Answers} {task : Task}
    (delivering : state.phase = .delivering task)
    (delivers : state.deliver config answers task = .ok after) :
    TasksKept state .drain after ∧ deletedBy config state (.deliver answers) = [task] := by
  refine ⟨deliver_tasksKept delivers, ?_⟩
  simp only [deletedBy, delivering]

theorem accept_tasksKept (result : AcceptResult) :
    TasksKept state state.phase (state.accept config result) := by
  unfold State.accept
  split
  next => exact ⟨rfl, rfl⟩
  next =>
    dsimp only
    split
    next => exact ⟨rfl, rfl⟩
    next => split <;> exact ⟨rfl, rfl⟩

end Frames

/-- What an action of the server can do to the places: nothing, a hand-over that
stays on its side of the call, or a new task. -/
inductive Transfer (before after : Audited) : Prop where
  | same (places : after.serialsAt = before.serialsAt)
      (created : after.state.tasksCreated = before.state.tasksCreated)
  | moved {serial : Nat} {source target : Place}
      (moves : Moved before.serialsAt after.serialsAt serial source target)
      (forth : target.front → source.front) (back : target.behind → source.behind)
      (created : after.state.tasksCreated = before.state.tasksCreated)
  | added (adds : Added before.serialsAt after.serialsAt before.state.tasksCreated .dispatched)
      (created : after.state.tasksCreated = before.state.tasksCreated + 1)

section Transfers

variable {config : Config} {before after : Audited}

theorem hands_dispatched (task : Task) : (Phase.dispatched task).hands = ([task], []) := rfl

theorem hands_admitted (task : Task) : (Phase.admitted task).hands = ([task], []) := rfl

theorem hands_events : Phase.events.hands = ([], []) := rfl

theorem hands_delivering (task : Task) : (Phase.delivering task).hands = ([], [task]) := rfl

/-- Steps that leave the tasks alone. -/
theorem transfer_of_custody {phase : Phase} (hands : phase.hands = before.state.phase.hands)
    (custody : after.state.custody = before.state.custodyIn phase)
    (called : after.ledger.called = before.ledger.called)
    (deleted : after.ledger.deleted = before.ledger.deleted) : Transfer before after := by
  simp only [State.custody, State.custodyIn, Prod.mk.injEq] at custody
  obtain ⟨moves, tasks, static, performed, workers, created⟩ := custody
  refine .same ?_ created
  funext place
  cases place <;>
  simp only [Audited.serialsAt, Audited.tasksAt, State.heldBy, moves, hands, tasks, static,
    performed, workers, called, deleted]

/-- A task comes into being in the hands of the loop. -/
theorem transfer_of_dispatch {task : Task} (hands : before.state.phase.hands = ([], []))
    (serial : task.serial = before.state.tasksCreated)
    (custody : after.state.custody = (.dispatched task, before.state.tasksQueue,
      before.state.staticTasksQueue, before.state.performedTasksQueue, before.state.workers,
      before.state.tasksCreated + 1))
    (called : after.ledger.called = before.ledger.called)
    (deleted : after.ledger.deleted = before.ledger.deleted) : Transfer before after := by
  simp only [State.custody, Prod.mk.injEq] at custody
  obtain ⟨taken, tasks, static, performed, workers, created⟩ := custody
  refine .added ⟨?_, ?_⟩ created
  · simp [Audited.serialsAt, Audited.tasksAt, hands, taken, hands_dispatched, serial]
  · intro place elsewhere
    cases place with
    | dispatched => exact absurd rfl elsewhere
    | tasksQueue | staticTasksQueue | worker | served | performedTasksQueue | delivering
    | deleted =>
        simp only [Audited.serialsAt, Audited.tasksAt, State.heldBy, hands, taken,
          hands_dispatched, tasks, static, performed, workers, called, deleted]

/-- The loop takes a performed task. -/
theorem transfer_of_pop {task : Task} {rest : List Task}
    (hands : before.state.phase.hands = ([], []))
    (queue : before.state.performedTasksQueue = task :: rest)
    (custody : after.state.custody = (.delivering task, before.state.tasksQueue,
      before.state.staticTasksQueue, rest, before.state.workers, before.state.tasksCreated))
    (called : after.ledger.called = before.ledger.called)
    (deleted : after.ledger.deleted = before.ledger.deleted) : Transfer before after := by
  simp only [State.custody, Prod.mk.injEq] at custody
  obtain ⟨taken, tasks, static, performed, workers, created⟩ := custody
  refine .moved (?_ : Moved before.serialsAt after.serialsAt task.serial .performedTasksQueue
    .delivering) (fun impossible => impossible.elim) (fun _ => trivial) created
  refine ⟨by simp, ?_, ?_, ?_⟩
  · simp [Audited.serialsAt, Audited.tasksAt, queue, performed]
  · simp [Audited.serialsAt, Audited.tasksAt, taken, hands_delivering, hands]
  · intro place notSource notTarget
    cases place with
    | performedTasksQueue => exact absurd rfl notSource
    | delivering => exact absurd rfl notTarget
    | dispatched | tasksQueue | staticTasksQueue | worker | served | deleted =>
        simp only [Audited.serialsAt, Audited.tasksAt, State.heldBy, taken, hands_delivering,
          hands, tasks, static, workers, called, deleted]

/-- The loop deletes the task it holds. -/
theorem transfer_of_delete {task : Task} {phase : Phase} {source : Place}
    (holds : (source = .dispatched ∧ before.state.phase.hands = ([task], [])) ∨
      (source = .delivering ∧ before.state.phase.hands = ([], [task])))
    (empty : phase.hands = ([], []))
    (custody : after.state.custody = before.state.custodyIn phase)
    (called : after.ledger.called = before.ledger.called)
    (deleted : after.ledger.deleted = before.ledger.deleted ++ [task]) :
    Transfer before after := by
  simp only [State.custody, State.custodyIn, Prod.mk.injEq] at custody
  obtain ⟨goes, tasks, static, performed, workers, created⟩ := custody
  refine .moved (?_ : Moved before.serialsAt after.serialsAt task.serial source .deleted)
    (fun impossible => impossible.elim) (fun impossible => impossible.elim) created
  refine ⟨?_, ?_, ?_, ?_⟩
  · rcases holds with ⟨rfl, _⟩ | ⟨rfl, _⟩ <;> simp
  · rcases holds with ⟨rfl, hands⟩ | ⟨rfl, hands⟩ <;>
    simp [Audited.serialsAt, Audited.tasksAt, hands, goes, empty]
  · simp only [Audited.serialsAt, Audited.tasksAt, deleted, List.map_append, List.map_singleton]
    exact List.perm_append_singleton _ _
  · intro place notSource notTarget
    cases place with
    | deleted => exact absurd rfl notTarget
    | dispatched | delivering =>
        rcases holds with ⟨rfl, hands⟩ | ⟨rfl, hands⟩ <;>
        simp_all [Audited.serialsAt, Audited.tasksAt]
    | performedTasksQueue | tasksQueue | staticTasksQueue | worker | served =>
        simp only [Audited.serialsAt, Audited.tasksAt, State.heldBy, tasks, static, performed,
          workers, called]

/-- The loop queues the task it holds. -/
theorem transfer_of_queue {task : Task} {target : Place} {tasks static : List Task}
    (hands : before.state.phase.hands = ([task], []))
    (custody : after.state.custody = (.events, tasks, static,
      before.state.performedTasksQueue, before.state.workers, before.state.tasksCreated))
    (queued : (target = .tasksQueue ∧ tasks = before.state.tasksQueue ++ [task] ∧
        static = before.state.staticTasksQueue) ∨
      (target = .staticTasksQueue ∧ tasks = before.state.tasksQueue ∧
        static = before.state.staticTasksQueue ++ [task]))
    (called : after.ledger.called = before.ledger.called)
    (deleted : after.ledger.deleted = before.ledger.deleted) : Transfer before after := by
  simp only [State.custody, Prod.mk.injEq] at custody
  obtain ⟨goes, hasTasks, hasStatic, performed, workers, created⟩ := custody
  refine .moved (?_ : Moved before.serialsAt after.serialsAt task.serial .dispatched target)
    ?_ ?_ created
  · refine ⟨?_, ?_, ?_, ?_⟩
    · rcases queued with ⟨rfl, _⟩ | ⟨rfl, _⟩ <;> simp
    · simp [Audited.serialsAt, Audited.tasksAt, hands, goes, hands_events]
    · rcases queued with ⟨rfl, rfl, _⟩ | ⟨rfl, _, rfl⟩ <;>
      simp only [Audited.serialsAt, Audited.tasksAt, hasTasks, hasStatic, List.map_append,
        List.map_singleton] <;>
      exact List.perm_append_singleton _ _
    · intro place notSource notTarget
      cases place with
      | dispatched => exact absurd rfl notSource
      | tasksQueue =>
          rcases queued with ⟨rfl, _⟩ | ⟨_, rfl, _⟩
          · exact absurd rfl notTarget
          · simp only [Audited.serialsAt, Audited.tasksAt, hasTasks]
      | staticTasksQueue =>
          rcases queued with ⟨_, _, rfl⟩ | ⟨rfl, _⟩
          · simp only [Audited.serialsAt, Audited.tasksAt, hasStatic]
          · exact absurd rfl notTarget
      | worker | served | performedTasksQueue | delivering | deleted =>
          simp only [Audited.serialsAt, Audited.tasksAt, State.heldBy, hands, goes,
            hands_events, performed, workers, called, deleted]
  · exact fun _ => trivial
  · rcases queued with ⟨rfl, _⟩ | ⟨rfl, _⟩ <;> exact fun impossible => impossible.elim

/-- The other workers hold what they held, and are as far as they were. -/
structure OthersKept (before after : Audited) (id : Nat) : Prop where
  held : ∀ other, other ≠ id → after.state.heldBy other = before.state.heldBy other
  called : ∀ other, other ≠ id → after.ledger.called other = before.ledger.called other

theorem OthersKept.serialsAt {id : Nat} (kept : OthersKept before after id) {other : Nat}
    (different : other ≠ id) :
    after.serialsAt (.worker other) = before.serialsAt (.worker other) ∧
      after.serialsAt (.served other) = before.serialsAt (.served other) := by
  simp only [Audited.serialsAt, Audited.tasksAt, kept.held other different,
    kept.called other different, and_self]

private theorem heldBy_of_set {workers : List (Option Task)} {id : Nat} {hand : Option Task}
    {state : State} (inside : id < workers.length) (set : state.workers = workers.set id hand) :
    state.heldBy id = hand.toList := by
  rw [State.heldBy, set, List.getElem?_set_self inside]
  rfl

private theorem heldBy_of_set_ne {id other : Nat} {hand : Option Task} {state changed : State}
    (set : changed.workers = state.workers.set id hand) (different : other ≠ id) :
    changed.heldBy other = state.heldBy other := by
  rw [State.heldBy, set, List.getElem?_set_ne (Ne.symm different), State.heldBy]

/-- A worker takes a task from its queue. -/
theorem transfer_of_take {task : Task} {rest : List Task} {id : Nat}
    (idle : before.state.workers[id]? = some none)
    (queue : before.state.workerQueue id = task :: rest)
    (takes : after.state = before.state.workerTake id)
    (called : after.ledger.called = Function.update before.ledger.called id false)
    (deleted : after.ledger.deleted = before.ledger.deleted) : Transfer before after := by
  have inside : id < before.state.workers.length := (List.getElem?_eq_some_iff.mp idle).1
  have nothing : before.state.heldBy id = [] := by
    rw [State.heldBy, idle]
    rfl
  rw [State.workerTake, queue] at takes
  dsimp only at takes
  have taken : after.state.workers = before.state.workers.set id (some task) := by
    rw [takes]
    split <;> rfl
  have holds := heldBy_of_set inside taken
  have resets : after.ledger.called id = false := by
    rw [called, Function.update_self]
  have others : OthersKept before after id :=
    ⟨fun _ different => heldBy_of_set_ne taken different, fun other different => by
      rw [called, Function.update_of_ne different]⟩
  have given : (after.serialsAt (.worker id)).Perm
      (task.serial :: before.serialsAt (.worker id)) := by
    simp [Audited.serialsAt, Audited.tasksAt, holds, nothing, resets]
  have unserved : after.serialsAt (.served id) = before.serialsAt (.served id) := by
    simp [Audited.serialsAt, Audited.tasksAt, nothing, resets]
  have stays : after.state.phase = before.state.phase ∧
      after.state.performedTasksQueue = before.state.performedTasksQueue ∧
      after.state.tasksCreated = before.state.tasksCreated := by
    rw [takes]
    split <;> exact ⟨rfl, rfl, rfl⟩
  obtain ⟨phase, performed, created⟩ := stays
  -- The worker's queue loses its first task, and the other queue stays.
  obtain ⟨source, isQueue, lost, kept⟩ : ∃ source : Place,
      (source = .tasksQueue ∨ source = .staticTasksQueue) ∧
        before.serialsAt source = task.serial :: after.serialsAt source ∧
        ∀ other : Place, (other = .tasksQueue ∨ other = .staticTasksQueue) → other ≠ source →
          after.serialsAt other = before.serialsAt other := by
    unfold State.workerQueue at queue
    split at queue
    next isStatic =>
      rw [if_pos isStatic] at takes
      refine ⟨.staticTasksQueue, .inr rfl, ?_, ?_⟩
      · simp [Audited.serialsAt, Audited.tasksAt, queue, takes]
      · rintro other (rfl | rfl) different
        · simp only [Audited.serialsAt, Audited.tasksAt, takes]
        · exact absurd rfl different
    next isLocal =>
      rw [if_neg isLocal] at takes
      refine ⟨.tasksQueue, .inl rfl, ?_, ?_⟩
      · simp [Audited.serialsAt, Audited.tasksAt, queue, takes]
      · rintro other (rfl | rfl) different
        · exact absurd rfl different
        · simp only [Audited.serialsAt, Audited.tasksAt, takes]
  have front : source.front := by
    rcases isQueue with rfl | rfl <;> trivial
  refine .moved (?_ : Moved before.serialsAt after.serialsAt task.serial source (.worker id))
    (fun _ => front) (fun impossible => impossible.elim) created
  refine ⟨?_, .of_eq lost, given, ?_⟩
  · rcases isQueue with rfl | rfl <;> simp
  · intro place notSource notTarget
    cases place with
    | tasksQueue => exact kept _ (.inl rfl) notSource
    | staticTasksQueue => exact kept _ (.inr rfl) notSource
    | worker other => exact (others.serialsAt fun same => notTarget (by rw [same])).1
    | served other =>
        by_cases same : other = id
        · rw [same, unserved]
        · exact (others.serialsAt same).2
    | dispatched | performedTasksQueue | delivering | deleted =>
        simp only [Audited.serialsAt, Audited.tasksAt, phase, performed, deleted]

/-- A worker that has called the handler pushes the task. -/
theorem transfer_of_finish {task done : Task} {id : Nat}
    (busy : before.state.workers[id]? = some (some task)) (serial : done.serial = task.serial)
    (calledIt : before.ledger.called id = true)
    (custody : after.state.custody = (before.state.phase, before.state.tasksQueue,
      before.state.staticTasksQueue, before.state.performedTasksQueue ++ [done],
      before.state.workers.set id none, before.state.tasksCreated))
    (called : after.ledger.called = before.ledger.called)
    (deleted : after.ledger.deleted = before.ledger.deleted) : Transfer before after := by
  simp only [State.custody, Prod.mk.injEq] at custody
  obtain ⟨stays, tasks, static, performed, workers, created⟩ := custody
  have inside : id < before.state.workers.length := (List.getElem?_eq_some_iff.mp busy).1
  have held : before.state.heldBy id = [task] := by
    rw [State.heldBy, busy]
    rfl
  have nothing := heldBy_of_set inside workers
  have others : OthersKept before after id :=
    ⟨fun _ different => heldBy_of_set_ne workers different, fun other _ => by rw [called]⟩
  refine .moved (?_ : Moved before.serialsAt after.serialsAt task.serial (.served id)
    .performedTasksQueue) (fun impossible => impossible.elim) (fun _ => trivial) created
  refine ⟨by simp, ?_, ?_, ?_⟩
  · simp [Audited.serialsAt, Audited.tasksAt, held, nothing, called, calledIt]
  · simp only [Audited.serialsAt, Audited.tasksAt, performed, List.map_append,
      List.map_singleton, serial]
    exact List.perm_append_singleton _ _
  · intro place notSource notTarget
    cases place with
    | performedTasksQueue => exact absurd rfl notTarget
    | served other => exact (others.serialsAt fun same => notSource (by rw [same])).2
    | worker other =>
        by_cases same : other = id
        · simp [same, Audited.serialsAt, Audited.tasksAt, called, calledIt]
        · exact (others.serialsAt same).1
    | dispatched | tasksQueue | staticTasksQueue | delivering | deleted =>
        simp only [Audited.serialsAt, Audited.tasksAt, stays, tasks, static, deleted]

/-- A worker calls the handler of the task it holds. -/
theorem moved_of_call {task : Task} {id : Nat}
    (busy : before.state.workers[id]? = some (some task))
    (notYet : before.ledger.called id = false) (sameState : after.state = before.state)
    (called : after.ledger.called = Function.update before.ledger.called id true)
    (deleted : after.ledger.deleted = before.ledger.deleted) :
    Moved before.serialsAt after.serialsAt task.serial (.worker id) (.served id) := by
  have held : before.state.heldBy id = [task] := by
    rw [State.heldBy, busy]
    rfl
  have now : after.ledger.called id = true := by
    rw [called, Function.update_self]
  have others : OthersKept before after id :=
    ⟨fun _ _ => by rw [sameState], fun other different => by
      rw [called, Function.update_of_ne different]⟩
  refine ⟨by simp, ?_, ?_, ?_⟩
  · simp [Audited.serialsAt, Audited.tasksAt, held, notYet, now]
  · simp [Audited.serialsAt, Audited.tasksAt, sameState, held, notYet, now]
  · intro place notSource notTarget
    cases place with
    | worker other => exact (others.serialsAt fun same => notSource (by rw [same])).1
    | served other => exact (others.serialsAt fun same => notTarget (by rw [same])).2
    | dispatched | tasksQueue | staticTasksQueue | performedTasksQueue | delivering | deleted =>
        simp only [Audited.serialsAt, Audited.tasksAt, sameState, deleted]

end Transfers

end Onyxup.Server
