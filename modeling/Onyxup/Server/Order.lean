import Onyxup.Lib.Simulation
import Onyxup.Server.QueueLimit

/-!
Contract: the order in which tasks go through the server.

Owns: the stages between the queue of a worker and the loop that delivers, and the
theorem that no task overtakes another one of its kind on the way, as long as one
worker alone serves that kind.

Does not own: which response a task gets, and what becomes of it behind the queue of
performed tasks.

Worker 0 is the only one that takes static resources. Local tasks have one worker in a
server of two threads, and none of them is first in a larger one.
-/

set_option autoImplicit false

namespace Onyxup.Server

open Onyxup.Lib.CString
open Onyxup.Lib.Transition
open Onyxup.Http
open Onyxup.Response

/-- What a run shows of the tasks: one is put into the queue of its kind, or one comes to
the loop that delivers. -/
inductive TaskEvent where
  | queued (task : Task)
  | performed (task : Task)

def taskEvent (state : State) : Action → Option TaskEvent
  | .addTask =>
      match state.phase with
      | .admitted task => some (.queued task)
      | _ => none
  | .popPerformed => state.performedTasksQueue.head?.map .performed
  | _ => none

/-- The kind of task that a worker takes. -/
def workerKind (id : Nat) : EnumTaskType :=
  if id = 0 then .staticResourcesTask else .localTask

/-- The serial numbers of the tasks of one kind. -/
def serialsOf (kind : EnumTaskType) (tasks : List Task) : List Nat :=
  (tasks.filter fun task => task.type = kind).map Task.serial

def TaskEvent.queuedTask : TaskEvent → Option Task
  | .queued task => some task
  | .performed _ => none

def TaskEvent.performedTask : TaskEvent → Option Task
  | .queued _ => none
  | .performed task => some task

/-- The tasks of the worker's kind between its queue and the loop, the oldest first. -/
def State.pipeline (state : State) (id : Nat) : List Nat :=
  serialsOf (workerKind id) state.performedTasksQueue ++
    serialsOf (workerKind id) (state.heldBy id) ++
    serialsOf (workerKind id) (state.workerQueue id)

section Serials

variable {kind : EnumTaskType} {task : Task} {tasks : List Task}

theorem serialsOf_append (front back : List Task) :
    serialsOf kind (front ++ back) = serialsOf kind front ++ serialsOf kind back := by
  rw [serialsOf, List.filter_append, List.map_append]
  rfl

theorem serialsOf_cons_of_kind (same : task.type = kind) :
    serialsOf kind (task :: tasks) = task.serial :: serialsOf kind tasks := by
  rw [serialsOf, List.filter_cons_of_pos (by simpa using same)]
  rfl

theorem serialsOf_cons_of_other (other : task.type ≠ kind) :
    serialsOf kind (task :: tasks) = serialsOf kind tasks := by
  rw [serialsOf, List.filter_cons_of_neg (by simpa using other)]
  rfl

end Serials

/-! ## What a step does to the stages -/

/-- The stages a task goes through. -/
def State.stages (state : State) : List Task × List Task × List Task × List (Option Task) :=
  (state.tasksQueue, state.staticTasksQueue, state.performedTasksQueue, state.workers)

/-- What a step does to the stages, with the event it shows. -/
inductive Flow (state after : State) : Option TaskEvent → Prop where
  | kept (stages : after.stages = state.stages) : Flow state after none
  | queued {task : Task} (admitted : state.phase = .admitted task)
      (stages : after.stages =
        (if task.type = .localTask then state.tasksQueue ++ [task] else state.tasksQueue,
          if task.type = .staticResourcesTask then state.staticTasksQueue ++ [task]
          else state.staticTasksQueue, state.performedTasksQueue, state.workers)) :
      Flow state after (some (.queued task))
  | popped {task : Task} {rest : List Task} (was : state.performedTasksQueue = task :: rest)
      (stages : after.stages = (state.tasksQueue, state.staticTasksQueue, rest, state.workers)) :
      Flow state after (some (.performed task))
  | taken {id : Nat} {task : Task} {rest : List Task} (idle : state.workers[id]? = some none)
      (was : state.workerQueue id = task :: rest)
      (stages : after.stages = (if id = 0 then state.tasksQueue else rest,
        if id = 0 then rest else state.staticTasksQueue, state.performedTasksQueue,
        state.workers.set id (some task))) : Flow state after none
  | finished {id : Nat} {task done : Task} (busy : state.workers[id]? = some (some task))
      (serial : done.serial = task.serial) (kind : done.type = task.type)
      (stages : after.stages = (state.tasksQueue, state.staticTasksQueue,
        state.performedTasksQueue ++ [done], state.workers.set id none)) :
      Flow state after none

private theorem stages_of_custody {state after : State} {phase : Phase} {created : Nat}
    (custody : after.custody = (phase, state.tasksQueue, state.staticTasksQueue,
      state.performedTasksQueue, state.workers, created)) : after.stages = state.stages := by
  simp only [State.custody, Prod.mk.injEq] at custody
  obtain ⟨_, tasks, static, performed, workers, _⟩ := custody
  simp only [State.stages, tasks, static, performed, workers]

private theorem performTask_kept (config : Config) (response : ResponseBase) (datetime : Bytes)
    (entries : List (Bytes × Bytes)) (task : Task) :
    (State.performTask config response datetime entries task).serial = task.serial ∧
      (State.performTask config response datetime entries task).type = task.type := by
  unfold State.performTask
  split <;> exact ⟨rfl, rfl⟩

theorem step_flow {config : Config} {state after : State} {action : Action}
    (allowed : enabled config state action = true)
    (steps : step config state action = .ok after) :
    Flow state after (taskEvent state action) := by
  cases action with
  | tick duration =>
      rw [← Except.ok.inj steps]
      exact .kept rfl
  | beginIteration =>
      rw [← Except.ok.inj steps]
      exact .kept rfl
  | checkTimeLimit answers =>
      obtain ⟨index, scanning⟩ := situation_of_enabled allowed
      simp only [step, scanning] at steps
      rcases scanStep_tasksKept steps with ⟨_, custody, _⟩ | ⟨_, custody, _⟩
      · exact .kept (stages_of_custody custody)
      · exact .kept (stages_of_custody custody)
  | popPerformed =>
      rw [← Except.ok.inj steps]
      unfold State.popPerformed
      cases queue : state.performedTasksQueue with
      | nil =>
          rw [taskEvent, queue]
          exact .kept (by simp only [State.stages, queue])
      | cons task rest =>
          rw [taskEvent, queue]
          exact .popped queue rfl
  | deliver answers =>
      obtain ⟨task, delivering⟩ := situation_of_enabled allowed
      simp only [step, delivering] at steps
      exact .kept (stages_of_custody (deliver_tasksKept steps).custody)
  | hangUp fd =>
      rw [← Except.ok.inj steps]
      exact .kept rfl
  | accept result =>
      rw [← Except.ok.inj steps]
      exact .kept (stages_of_custody (accept_tasksKept result).custody)
  | receive fd result modified allocated answers =>
      rcases receive_tasksKept steps with kept | ⟨task, _, custody, _⟩
      · exact .kept (stages_of_custody kept.custody)
      · exact .kept (stages_of_custody custody)
  | chooseQueue answers =>
      obtain ⟨task, dispatched⟩ := situation_of_enabled allowed
      simp only [step, dispatched] at steps
      rcases chooseQueue_tasksKept steps with ⟨kept, _⟩ | ⟨kept, _⟩
      · exact .kept (stages_of_custody kept.custody)
      · exact .kept (stages_of_custody kept.custody)
  | addTask =>
      obtain ⟨task, admitted⟩ := situation_of_enabled allowed
      simp only [step, admitted] at steps
      rw [← Except.ok.inj steps, taskEvent, admitted]
      refine .queued admitted ?_
      unfold State.addTask
      dsimp only
      split
      next kind => simp [State.stages, State.addTotalNumberClientRequests, kind]
      next kind => simp [State.stages, State.addTotalNumberClientRequests, kind]
      next kind => simp [State.stages, State.addTotalNumberClientRequests, kind]
  | send fd result modified => exact .kept (stages_of_custody (send_tasksKept steps).custody)
  | workerTake id =>
      obtain ⟨idle, nonempty⟩ := situation_of_enabled allowed
      obtain ⟨task, rest, queue⟩ := List.exists_cons_of_ne_nil nonempty
      rw [← Except.ok.inj steps]
      refine .taken idle queue ?_
      simp only [State.workerTake, queue]
      split <;> rfl
  | workerFinish id response datetime entries =>
      obtain ⟨task, busy⟩ := situation_of_enabled allowed
      rw [← Except.ok.inj steps]
      obtain ⟨serial, kind⟩ := performTask_kept config response datetime entries task
      refine .finished busy serial kind ?_
      simp only [State.workerFinish, busy, State.stages]

/-! ## The kinds of the tasks -/

/-- Every worker has a task of its kind, and there are as many as configured. -/
structure Staffed (config : Config) (state : State) : Prop where
  kinds : ∀ (id : Nat) (task : Task), state.workers[id]? = some (some task) →
    task.type = workerKind id
  count : state.workers.length = config.numberThreads

section Kinds

variable {config : Config} {state after : State} {event : Option TaskEvent}

theorem Fit.kind_of_queue (fit : Fit state) {id : Nat} {task : Task}
    (member : task ∈ state.workerQueue id) : task.type = workerKind id := by
  unfold State.workerQueue at member
  unfold workerKind
  split at member
  next first =>
    rw [if_pos first]
    exact fit.staticKind task member
  next other =>
    rw [if_neg other]
    exact fit.localKind task member

/-- A worker takes a task of its kind, or puts its task down. -/
theorem Staffed.set (staffed : Staffed config state) {id : Nat} {hand : Option Task}
    (workers : after.workers = state.workers.set id hand)
    (kind : ∀ task, hand = some task → task.type = workerKind id) : Staffed config after where
  kinds := by
    intro other held holds
    rw [workers] at holds
    by_cases same : id = other
    · subst same
      obtain ⟨_, inHand⟩ := List.getElem?_eq_some_iff.mp holds
      rw [List.getElem_set_self] at inHand
      exact kind held inHand
    · rw [List.getElem?_set_ne same] at holds
      exact staffed.kinds other held holds
  count := by rw [workers, List.length_set, staffed.count]

theorem Flow.staffed (flow : Flow state after event) (fit : Fit state)
    (staffed : Staffed config state) : Staffed config after := by
  cases flow with
  | kept stages =>
      have workers : after.workers = state.workers := congrArg (fun stages => stages.2.2.2) stages
      exact ⟨workers ▸ staffed.kinds, workers ▸ staffed.count⟩
  | queued admitted stages =>
      have workers : after.workers = state.workers := congrArg (fun stages => stages.2.2.2) stages
      exact ⟨workers ▸ staffed.kinds, workers ▸ staffed.count⟩
  | popped was stages =>
      have workers : after.workers = state.workers := congrArg (fun stages => stages.2.2.2) stages
      exact ⟨workers ▸ staffed.kinds, workers ▸ staffed.count⟩
  | @taken id task rest idle was stages =>
      refine staffed.set (congrArg (fun stages => stages.2.2.2) stages) ?_
      rintro _ ⟨⟩
      exact fit.kind_of_queue (was ▸ List.mem_cons_self)
  | finished busy serial kind stages =>
      refine staffed.set (congrArg (fun stages => stages.2.2.2) stages) ?_
      rintro _ ⟨⟩

end Kinds

/-! ## The order -/

/-- No other worker takes tasks of this one's kind. -/
def Sole (config : Config) (id : Nat) : Prop :=
  ∀ other < config.numberThreads, workerKind other = workerKind id → other = id

section Pipeline

variable {config : Config} {state after : State} {event : Option TaskEvent} {id : Nat}

/-- What one more step adds at the end and takes off at the front. -/
def Advances (id : Nat) (state after : State) (event : Option TaskEvent) : Prop :=
  state.pipeline id ++ serialsOf (workerKind id) (event.toList.filterMap TaskEvent.queuedTask) =
    serialsOf (workerKind id) (event.toList.filterMap TaskEvent.performedTask) ++
      after.pipeline id

theorem pipeline_eq (state : State) {tasks static performed : List Task}
    {workers : List (Option Task)} (stages : state.stages = (tasks, static, performed, workers))
    (id : Nat) :
    state.pipeline id = serialsOf (workerKind id) performed ++
      serialsOf (workerKind id) (workers[id]?).join.toList ++
      serialsOf (workerKind id) (if id = 0 then static else tasks) := by
  simp only [State.stages, Prod.mk.injEq] at stages
  obtain ⟨rfl, rfl, rfl, rfl⟩ := stages
  rfl

private theorem other_kind (staffed : Staffed config state) (sole : Sole config id) {worker : Nat}
    {hand : Option Task} (present : state.workers[worker]? = some hand) (apart : worker ≠ id) :
    workerKind worker ≠ workerKind id := by
  obtain ⟨inside, _⟩ := List.getElem?_eq_some_iff.mp present
  rw [staffed.count] at inside
  exact fun same => apart (sole worker inside same)

private theorem queued_advances {task : Task} (stages : after.stages =
      (if task.type = .localTask then state.tasksQueue ++ [task] else state.tasksQueue,
        if task.type = .staticResourcesTask then state.staticTasksQueue ++ [task]
        else state.staticTasksQueue, state.performedTasksQueue, state.workers)) :
    Advances id state after (some (.queued task)) := by
  have queue : serialsOf (workerKind id) (if id = 0 then
      if task.type = .staticResourcesTask then state.staticTasksQueue ++ [task]
      else state.staticTasksQueue
      else if task.type = .localTask then state.tasksQueue ++ [task] else state.tasksQueue) =
      serialsOf (workerKind id) (if id = 0 then state.staticTasksQueue else state.tasksQueue) ++
        serialsOf (workerKind id) [task] := by
    by_cases same : task.type = workerKind id
    · rw [← serialsOf_append]
      unfold workerKind at same ⊢
      split at same
      next first => simp [first, same]
      next other => simp [other, same]
    · rw [serialsOf_cons_of_other same]
      unfold workerKind at same
      split at same
      next first => simp [first, same, serialsOf]
      next other => simp [other, same, serialsOf]
  rw [Advances, pipeline_eq after stages, pipeline_eq state rfl, queue]
  exact List.append_assoc _ _ _

private theorem taken_advances (staffed : Staffed config state) (sole : Sole config id)
    {worker : Nat} {task : Task} {rest : List Task} (idle : state.workers[worker]? = some none)
    (was : state.workerQueue worker = task :: rest)
    (stages : after.stages = (if worker = 0 then state.tasksQueue else rest,
      if worker = 0 then rest else state.staticTasksQueue, state.performedTasksQueue,
      state.workers.set worker (some task))) : Advances id state after none := by
  rw [Advances, pipeline_eq after stages, pipeline_eq state rfl]
  by_cases same : worker = id
  · subst same
    obtain ⟨inside, _⟩ := List.getElem?_eq_some_iff.mp idle
    have queue : (if worker = 0 then state.staticTasksQueue else state.tasksQueue) =
        task :: rest := was
    have left : (if worker = 0 then if worker = 0 then rest else state.staticTasksQueue
        else if worker = 0 then state.tasksQueue else rest) = rest := by
      split <;> rfl
    rw [queue, left, idle, List.getElem?_set_self inside,
      show task :: rest = [task] ++ rest from rfl, serialsOf_append]
    simp [serialsOf]
  · have other := other_kind staffed sole idle same
    have queue : (if id = 0 then if worker = 0 then rest else state.staticTasksQueue
        else if worker = 0 then state.tasksQueue else rest) =
        if id = 0 then state.staticTasksQueue else state.tasksQueue := by
      unfold workerKind at other
      by_cases first : id = 0
      · rw [if_pos first, if_pos first, if_neg (first ▸ same)]
      · rw [if_neg first, if_neg first]
        by_cases second : worker = 0
        · rw [if_pos second]
        · exact absurd (by rw [if_neg first, if_neg second]) other
    rw [queue, List.getElem?_set_ne same]
    exact List.append_nil _

private theorem finished_advances (staffed : Staffed config state) (sole : Sole config id)
    {worker : Nat} {task done : Task} (busy : state.workers[worker]? = some (some task))
    (serial : done.serial = task.serial) (kind : done.type = task.type)
    (stages : after.stages = (state.tasksQueue, state.staticTasksQueue,
      state.performedTasksQueue ++ [done], state.workers.set worker none)) :
    Advances id state after none := by
  rw [Advances, pipeline_eq after stages, pipeline_eq state rfl]
  by_cases same : worker = id
  · subst same
    obtain ⟨inside, _⟩ := List.getElem?_eq_some_iff.mp busy
    have ours : task.type = workerKind worker := staffed.kinds worker task busy
    have both : serialsOf (workerKind worker) [done] = serialsOf (workerKind worker) [task] := by
      rw [serialsOf_cons_of_kind (kind.trans ours), serialsOf_cons_of_kind ours, serial]
    rw [busy, List.getElem?_set_self inside, serialsOf_append, both]
    simp [serialsOf]
  · have other := other_kind staffed sole busy same
    rw [← staffed.kinds worker task busy, ← kind] at other
    rw [serialsOf_append, serialsOf_cons_of_other other, List.getElem?_set_ne same]
    simp [serialsOf]

theorem Flow.advances (flow : Flow state after event) (staffed : Staffed config state)
    (sole : Sole config id) : Advances id state after event := by
  cases flow with
  | kept stages =>
      rw [Advances, pipeline_eq after stages, pipeline_eq state rfl]
      exact List.append_nil _
  | queued admitted stages => exact queued_advances stages
  | @popped task rest was stages =>
      rw [Advances, pipeline_eq after stages, pipeline_eq state rfl, was,
        show task :: rest = [task] ++ rest from rfl, serialsOf_append]
      exact (List.append_nil _).trans (by simp only [List.append_assoc]; rfl)
  | taken idle was stages => exact taken_advances staffed sole idle was stages
  | finished busy serial kind stages => exact finished_advances staffed sole busy serial kind stages

end Pipeline

/-- **Tasks keep their order.** In every run, the tasks of a kind that one worker alone
serves come to the loop that delivers in the order in which they were queued: what has
been queued is what has come, followed by what is on the way, oldest first. -/
theorem tasks_keep_their_order (config : Config) (id : Nat) (sole : Sole config id)
    (state : State) (events : List TaskEvent)
    (emitted : Emits (server config) taskEvent state events) :
    serialsOf (workerKind id) (events.filterMap TaskEvent.queuedTask) =
      serialsOf (workerKind id) (events.filterMap TaskEvent.performedTask) ++
        state.pipeline id := by
  have whole : Staffed config state ∧
      serialsOf (workerKind id) (events.filterMap TaskEvent.queuedTask) =
        serialsOf (workerKind id) (events.filterMap TaskEvent.performedTask) ++
          state.pipeline id := by
    induction emitted with
    | @start state initial =>
        obtain ⟨tasks, static, performed⟩ := initial.queues
        have idle : ∀ (worker : Nat) (task : Task), state.workers[worker]? ≠ some (some task) := by
          intro worker task
          rw [initial.workers, List.getElem?_replicate]
          split <;> simp
        refine ⟨⟨fun worker task busy => absurd busy (idle worker task), ?_⟩, ?_⟩
        · rw [initial.workers, List.length_replicate]
        · have empty : state.heldBy id = [] := by
            unfold State.heldBy
            cases held : state.workers[id]? with
            | none => rfl
            | some hand =>
                cases hand with
                | none => rfl
                | some task => exact absurd held (idle id task)
          rw [State.pipeline, performed, empty, State.workerQueue, tasks, static, ite_self]
          rfl
    | @next before after action events emitted allowed steps inductionHypothesis =>
        obtain ⟨staffed, ordered⟩ := inductionHypothesis
        have flow := step_flow allowed steps
        have fit := (Invariant.of_reachable emitted.reachable).fit
        refine ⟨flow.staffed fit staffed, ?_⟩
        have advances : before.pipeline id ++ _ = _ ++ after.pipeline id :=
          flow.advances staffed sole
        rw [List.filterMap_append, List.filterMap_append, serialsOf_append, serialsOf_append,
          ordered, List.append_assoc, List.append_assoc, advances]
  exact whole.2

/-- The small server with a static resource. -/
def staticConfig : Config :=
  { smallConfig with routes := [⟨ascii "GET", fun _ => true, 0, .staticResourcesTask⟩] }

theorem sole_static (config : Config) : Sole config 0 := by
  intro other _ same
  by_contra apart
  rw [workerKind, workerKind, if_neg apart, if_pos rfl] at same
  cases same

/-- Two clients ask for it; the first request is being served. -/
theorem two_static_requests_in_order :
    ∃ state events, Emits (server staticConfig) taskEvent state events ∧
      serialsOf .staticResourcesTask (events.filterMap TaskEvent.queuedTask) =
        serialsOf .staticResourcesTask (events.filterMap TaskEvent.performedTask) ++ [0, 1] := by
  obtain ⟨state, reachable, passes⟩ := (server staticConfig).exists_of_replay
    (smallState_initial_of rfl) (fun state => decide (state.pipeline 0 = [0, 1]))
    (show ((server staticConfig).replay Unconditional smallState
      (requestQueued 0 ++ requestQueued 1 ++ [.workerTake 0])).any _ = true by decide +kernel)
  obtain ⟨events, emitted⟩ := reachable.emits taskEvent
  have ordered := tasks_keep_their_order staticConfig 0 (sole_static staticConfig) state events
    emitted
  rw [of_decide_eq_true passes] at ordered
  exact ⟨state, events, emitted, ordered⟩

end Onyxup.Server
