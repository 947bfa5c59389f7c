import Onyxup.Server.Turn

/-!
Contract: no connection waits in vain.

Owns: the fact that every connection which waits for a response has its task somewhere in
the server, a bound on the work that the tasks still need, and the theorem that the server
comes to rest only when nobody waits.

Does not own: that the workers are scheduled, and that a handler returns. A server of one
thread has no worker for local tasks.
-/

set_option autoImplicit false

namespace Onyxup.Server

open Onyxup.Lib.CString
open Onyxup.Lib.Transition
open Onyxup.Http
open Onyxup.Response

/-! ## Every waiting connection has its task -/

/-- The task of the connection as it is now. -/
def Task.Serves (task : Task) (slots : Nat → Slot) (fd : Nat) : Prop :=
  task.fd = fd ∧ task.timePoint = (slots fd).aliveSocket

/-- What holds between the connections, the tasks and the workers. -/
structure Attended (config : Config) (state : State) : Prop where
  awaited : ∀ fd, (state.slots fd).interest = some .idle →
    ∃ task ∈ state.inFlight, task.Serves state.slots fd
  admitted : ∀ task, state.phase = .admitted task → task.type ≠ .jsonRpcTask
  staff : state.workers.length = config.numberThreads

section Steps

variable {config : Config} {state after : State} {action : Action}

theorem mem_inFlight {task : Task} :
    task ∈ state.inFlight ↔ task ∈ state.phase.held ∨ task ∈ state.tasksQueue ∨
      task ∈ state.staticTasksQueue ∨ some task ∈ state.workers ∨
      task ∈ state.performedTasksQueue := by
  simp [State.inFlight]

/-- A slot gets no task by being opened, closed, read, answered or sent from. -/
theorem Move.not_idle {fd clock number : Nat} {mayExpire mayRefuse : Slot → Bool}
    {slot changed : Slot} (move : Move config fd mayExpire mayRefuse clock number slot changed) :
    changed.interest ≠ some .idle := by
  intro idle
  cases move with
  | opened => cases idle
  | closed => cases idle
  | turnedAway free => rw [free] at idle; cases idle
  | waited read =>
      obtain ⟨reading, _, _, _, _⟩ := read
      rw [reading] at idle
      cases idle
  | refused _ _ _ page => rw [page.frame.1] at idle; cases idle
  | expired _ _ _ page => rw [page.frame.1] at idle; cases idle
  | sent writing => rw [writing] at idle; cases idle
  | reset => cases idle

/-- A connection that waits after a step has waited before, or its task is new. -/
theorem Effect.waiting {mayExpire mayRefuse : Slot → Bool} {fd : Nat}
    (effect : Effect config mayExpire mayRefuse state after)
    (idle : (after.slots fd).interest = some .idle) :
    ((state.slots fd).interest = some .idle ∧
        (after.slots fd).aliveSocket = (state.slots fd).aliveSocket) ∨
      ∃ task ∈ after.inFlight, task.Serves after.slots fd := by
  have elsewhere : ∀ {other : Nat} {slot : Slot}, slot.interest ≠ some .idle →
      after.slots = Function.update state.slots other slot →
      (state.slots fd).interest = some .idle ∧
        (after.slots fd).aliveSocket = (state.slots fd).aliveSocket := by
    intro other slot busy slots
    rw [slots] at idle ⊢
    by_cases same : fd = other
    · rw [same, Function.update_self] at idle
      exact absurd idle busy
    · rw [Function.update_of_ne same] at idle ⊢
      exact ⟨idle, rfl⟩
  have answered : ∀ {slot answered : Slot} {request : Option Request},
      Answered config slot request answered → answered.interest ≠ some .idle := by
    intro slot answered request page waits
    rw [page.frame.1] at waits
    cases waits
  cases effect with
  | quiet slots => exact .inl ⟨slots ▸ idle, by rw [slots]⟩
  | queued slots => exact .inl ⟨slots ▸ idle, by rw [slots]⟩
  | moved move slots => exact .inl (elsewhere move.not_idle slots)
  | @dispatched other slot seen task read slots clock tag tags records hands =>
      by_cases same : fd = other
      · refine .inr ⟨task, ?_, ?_⟩
        · have holds : task ∈ after.phase.held := by
            cases place : after.phase <;> rw [place] at hands <;>
              simp_all [Phase.hands, Phase.held]
          exact mem_inFlight.mpr (.inl holds)
        · have here : task.fd = other := congrArg Tag.fd tag
          have stamp : task.timePoint = slot.aliveSocket := congrArg Tag.timePoint tag
          refine ⟨here.trans same.symm, ?_⟩
          rw [slots, same, Function.update_self]
          exact stamp
      · rw [slots, Function.update_of_ne same] at idle
        exact .inl ⟨idle, by rw [slots, Function.update_of_ne same]⟩
  | notFound _ page slots => exact .inl (elsewhere (answered page) slots)
  | turnedDown _ page slots => exact .inl (elsewhere (answered page) slots)
  | delivered _ _ outcome slots =>
      rcases outcome with page | rfl
      · exact .inl (elsewhere (answered page) slots)
      · exact .inl (elsewhere (by simp) slots)

/-- Another state of the same task is in the server. -/
def Survives (after : State) (task : Task) : Prop :=
  ∃ same ∈ after.inFlight, same.fd = task.fd ∧ same.timePoint = task.timePoint

theorem Survives.of_mem {task : Task} (member : task ∈ after.inFlight) : Survives after task :=
  ⟨task, member, rfl, rfl⟩

/-- The loop holds what it held, and all else stays. -/
theorem survives_of_custody {phase : Phase} (custody : after.custody = state.custodyIn phase)
    {task : Task} (held : task ∈ state.phase.held → task ∈ phase.held)
    (flying : task ∈ state.inFlight) : Survives after task := by
  simp only [State.custody, State.custodyIn, Prod.mk.injEq] at custody
  obtain ⟨place, tasks, static, performed, workers, _⟩ := custody
  refine .of_mem (mem_inFlight.mpr ?_)
  rw [place, tasks, static, performed, workers]
  rcases mem_inFlight.mp flying with holds | elsewhere
  · exact .inl (held holds)
  · exact .inr elsewhere

theorem popPerformed_survives (drain : state.phase = .drain) {task : Task}
    (flying : task ∈ state.inFlight) : Survives state.popPerformed task := by
  unfold State.popPerformed
  split
  next =>
    have custody : ({ state with phase := .events } : State).custody =
        state.custodyIn .events := rfl
    refine survives_of_custody custody (fun holds => ?_) flying
    rw [drain] at holds
    cases holds
  next first rest queue =>
    refine .of_mem (mem_inFlight.mpr ?_)
    rcases mem_inFlight.mp flying with holds | queued | static | working | performed
    · rw [drain] at holds
      cases holds
    · exact .inr (.inl queued)
    · exact .inr (.inr (.inl static))
    · exact .inr (.inr (.inr (.inl working)))
    · rw [queue] at performed
      rcases List.mem_cons.mp performed with rfl | later
      · exact .inl (List.mem_singleton_self _)
      · exact .inr (.inr (.inr (.inr later)))

theorem addTask_survives {held task : Task} (admitted : state.phase = .admitted held)
    (kind : held.type ≠ .jsonRpcTask) (flying : task ∈ state.inFlight) :
    Survives (state.addTask held) task := by
  refine .of_mem (mem_inFlight.mpr ?_)
  unfold State.addTask
  dsimp only
  rcases mem_inFlight.mp flying with holds | queued | static | working | performed
  · rw [admitted] at holds
    obtain rfl := List.mem_singleton.mp holds
    split
    next => exact .inr (.inl (List.mem_append_right _ (List.mem_singleton_self _)))
    next => exact .inr (.inr (.inl (List.mem_append_right _ (List.mem_singleton_self _))))
    next isJson => exact absurd isJson kind
  · split
    next => exact .inr (.inl (List.mem_append_left _ queued))
    next => exact .inr (.inl queued)
    next => exact .inr (.inl queued)
  · split
    next => exact .inr (.inr (.inl static))
    next => exact .inr (.inr (.inl (List.mem_append_left _ static)))
    next => exact .inr (.inr (.inl static))
  · split <;> exact .inr (.inr (.inr (.inl working)))
  · split <;> exact .inr (.inr (.inr (.inr performed)))

private theorem mem_set_of_other {workers : List (Option Task)} {id : Nat}
    {old hand : Option Task} {task : Task} (present : workers[id]? = some old)
    (apart : old ≠ some task) (holds : some task ∈ workers) :
    some task ∈ workers.set id hand := by
  obtain ⟨place, there⟩ := List.mem_iff_getElem?.mp holds
  have elsewhere : id ≠ place := by
    intro same
    rw [same, there] at present
    exact apart (Option.some.inj present).symm
  refine List.mem_of_getElem? (i := place) ?_
  rw [List.getElem?_set_ne elsewhere, there]

theorem workerTake_survives {id : Nat} (idle : state.workers[id]? = some none) {task : Task}
    (flying : task ∈ state.inFlight) : Survives (state.workerTake id) task := by
  refine .of_mem (mem_inFlight.mpr ?_)
  unfold State.workerTake
  split
  next => exact mem_inFlight.mp flying
  next first rest queue =>
    obtain ⟨inside, _⟩ := List.getElem?_eq_some_iff.mp idle
    have takes : some first ∈ state.workers.set id (some first) := List.mem_set inside _
    unfold State.workerQueue at queue
    dsimp only
    rcases mem_inFlight.mp flying with holds | queued | static | works | performed
    · split <;> exact .inl holds
    · split
      next => exact .inr (.inl queued)
      next notFirst =>
        rw [if_neg notFirst] at queue
        rw [queue] at queued
        rcases List.mem_cons.mp queued with rfl | later
        · exact .inr (.inr (.inr (.inl takes)))
        · exact .inr (.inl later)
    · split
      next isFirst =>
        rw [if_pos isFirst] at queue
        rw [queue] at static
        rcases List.mem_cons.mp static with rfl | later
        · exact .inr (.inr (.inr (.inl takes)))
        · exact .inr (.inr (.inl later))
      next => exact .inr (.inr (.inl static))
    · have still : some task ∈ state.workers.set id (some first) :=
        mem_set_of_other idle (by simp) works
      split <;> exact .inr (.inr (.inr (.inl still)))
    · split <;> exact .inr (.inr (.inr (.inr performed)))

theorem workerFinish_survives {id : Nat} {busyWith : Task} {response : ResponseBase}
    {datetime : Bytes} {entries : List (Bytes × Bytes)}
    (busy : state.workers[id]? = some (some busyWith)) {task : Task}
    (flying : task ∈ state.inFlight) :
    Survives (state.workerFinish config id response datetime entries) task := by
  simp only [State.workerFinish, busy]
  by_cases same : task = busyWith
  · refine ⟨State.performTask config response datetime entries busyWith, ?_, ?_⟩
    · exact mem_inFlight.mpr (.inr (.inr (.inr (.inr
        (List.mem_append_right _ (List.mem_singleton_self _))))))
    · rw [same]
      unfold State.performTask
      split <;> exact ⟨rfl, rfl⟩
  · refine .of_mem (mem_inFlight.mpr ?_)
    rcases mem_inFlight.mp flying with holds | queued | static | works | performed
    · exact .inl holds
    · exact .inr (.inl queued)
    · exact .inr (.inr (.inl static))
    · have apart : some busyWith ≠ some task := fun equal => same (Option.some.inj equal).symm
      exact .inr (.inr (.inr (.inl (mem_set_of_other busy apart works))))
    · exact .inr (.inr (.inr (.inr (List.mem_append_left _ performed))))

/-- A task that is delivered, or comes too late, was the last that its connection waited
for. -/
theorem deliver_not_awaited {answers : Answers} {task : Task} (nonempty : task.responseData ≠ [])
    (delivers : state.deliver config answers task = .ok after)
    (idle : (after.slots task.fd).interest = some .idle) :
    task.timePoint ≠ (after.slots task.fd).aliveSocket := by
  unfold State.deliver at delivers
  split at delivers
  next =>
    split at delivers
    next => cases delivers
    next stillOpen written writes =>
      rw [← Except.ok.inj delivers] at idle
      rcases writeToOutputBuffer_cases nonempty writes with
        ⟨_, answered, page, rfl⟩ | ⟨_, rfl⟩
      · have interest : (Function.update state.slots task.fd answered task.fd).interest =
            some .idle := idle
        rw [Function.update_self, page.frame.1] at interest
        cases interest
      · simp [State.closeAllSocketsAndClearData] at idle
  next stale =>
    rw [← Except.ok.inj delivers]
    exact stale

/-- A connection whose task is not queued has been answered or closed. -/
theorem chooseQueue_not_awaited {answers : Answers} {task : Task}
    (chooses : state.chooseQueue config answers task = .ok after)
    (dropped : after.phase = .events) : (after.slots task.fd).interest ≠ some .idle := by
  intro idle
  unfold State.chooseQueue at chooses
  split at chooses
  next =>
    split at chooses
    next =>
      split at chooses
      next => cases chooses
      next written writes =>
        rw [← Except.ok.inj chooses] at idle
        rcases writeToOutputBuffer_cases (page_ne_nil _ _ _ _ _) writes with
          ⟨_, answered, page, rfl⟩ | ⟨closed, _⟩
        · have interest : (Function.update state.slots task.fd answered task.fd).interest =
              some .idle := idle
          rw [Function.update_self, page.frame.1] at interest
          cases interest
        · cases closed
      next => cases chooses
    next =>
      rw [← Except.ok.inj chooses] at dropped
      cases dropped
  next =>
    rw [← Except.ok.inj chooses] at dropped
    cases dropped
  next =>
    rw [← Except.ok.inj chooses] at idle
    simp [State.addTotalNumberClientRequests, State.closeAllSocketsAndClearData] at idle

/-- The task of a connection that still waits is still in the server. -/
theorem step_survives (invariant : Invariant config state) (attended : Attended config state)
    (allowed : enabled config state action = true)
    (steps : step config state action = .ok after) {task : Task}
    (flying : task ∈ state.inFlight) {fd : Nat}
    (idle : (after.slots fd).interest = some .idle) (serves : task.Serves after.slots fd) :
    Survives after task := by
  obtain ⟨rfl, stamp⟩ := serves
  -- Where the loop holds no task before, it has none to keep.
  have nothingHeld : ∀ {phase : Phase}, after.custody = state.custodyIn phase →
      state.phase.held = [] → Survives after task := by
    intro phase custody nothing
    refine survives_of_custody custody (fun holds => ?_) flying
    rw [nothing] at holds
    cases holds
  cases action with
  | tick duration =>
      have custody : after.custody = state.custodyIn state.phase := by
        rw [← Except.ok.inj steps]
        rfl
      exact survives_of_custody custody id flying
  | beginIteration =>
      have events : state.phase = .events := situation_of_enabled allowed
      have custody : after.custody =
          state.custodyIn (.scan state.counterCheckLimitTimeRequest) := by
        rw [← Except.ok.inj steps]
        rfl
      exact nothingHeld custody (by rw [events]; rfl)
  | checkTimeLimit answers =>
      obtain ⟨index, scanning⟩ := situation_of_enabled allowed
      simp only [step, scanning] at steps
      rcases scanStep_tasksKept steps with ⟨_, kept⟩ | ⟨_, custody, _⟩
      · exact nothingHeld kept.custody (by rw [scanning]; rfl)
      · exact nothingHeld custody (by rw [scanning]; rfl)
  | popPerformed =>
      rw [← Except.ok.inj steps]
      exact popPerformed_survives (situation_of_enabled allowed) flying
  | deliver answers =>
      obtain ⟨held, delivering⟩ := situation_of_enabled allowed
      simp only [step, delivering] at steps
      refine survives_of_custody (deliver_tasksKept steps).custody (fun holds => ?_) flying
      rw [delivering] at holds
      obtain rfl := List.mem_singleton.mp holds
      have nonempty := invariant.fit.delivering task (by rw [delivering]; exact holds)
      exact absurd stamp (deliver_not_awaited nonempty steps idle)
  | hangUp fd =>
      have custody : after.custody = state.custodyIn state.phase := by
        rw [← Except.ok.inj steps]
        rfl
      exact survives_of_custody custody id flying
  | accept result =>
      rw [← Except.ok.inj steps]
      exact survives_of_custody (accept_tasksKept result).custody id flying
  | receive fd result modified allocated answers =>
      have events := (situation_of_enabled allowed).1
      rcases receive_tasksKept steps with kept | ⟨new, _, custody, _⟩
      · exact survives_of_custody kept.custody id flying
      · simp only [State.custody, Prod.mk.injEq] at custody
        obtain ⟨_, tasks, static, performed, workers, _⟩ := custody
        refine .of_mem (mem_inFlight.mpr (.inr ?_))
        rw [tasks, static, performed, workers]
        rcases mem_inFlight.mp flying with holds | elsewhere
        · rw [events] at holds
          cases holds
        · exact elsewhere
  | chooseQueue answers =>
      obtain ⟨held, dispatched⟩ := situation_of_enabled allowed
      simp only [step, dispatched] at steps
      rcases chooseQueue_tasksKept steps with ⟨kept, _⟩ | ⟨kept, _⟩
      · refine survives_of_custody kept.custody (fun holds => ?_) flying
        rw [dispatched] at holds
        exact holds
      · refine survives_of_custody kept.custody (fun holds => ?_) flying
        rw [dispatched] at holds
        obtain rfl := List.mem_singleton.mp holds
        exact absurd idle (chooseQueue_not_awaited steps kept.place)
  | addTask =>
      obtain ⟨held, admitted⟩ := situation_of_enabled allowed
      simp only [step, admitted] at steps
      rw [← Except.ok.inj steps]
      exact addTask_survives admitted (attended.admitted held admitted) flying
  | send fd result modified =>
      exact survives_of_custody (send_tasksKept steps).custody id flying
  | workerTake worker =>
      rw [← Except.ok.inj steps]
      exact workerTake_survives (situation_of_enabled allowed).1 flying
  | workerFinish worker response datetime entries =>
      obtain ⟨held, busy⟩ := situation_of_enabled allowed
      rw [← Except.ok.inj steps]
      exact workerFinish_survives busy flying

theorem step_workers (allowed : enabled config state action = true)
    (steps : step config state action = .ok after) :
    after.workers.length = state.workers.length := by
  have flow := step_flow allowed steps
  generalize taskEvent state action = event at flow
  cases flow with
  | kept stages => exact congrArg (fun stages => stages.2.2.2.length) stages
  | queued _ stages => exact congrArg (fun stages => stages.2.2.2.length) stages
  | popped _ stages => exact congrArg (fun stages => stages.2.2.2.length) stages
  | taken _ _ stages =>
      have workers := congrArg (fun stages => stages.2.2.2.length) stages
      exact workers.trans List.length_set
  | finished _ _ _ stages =>
      have workers := congrArg (fun stages => stages.2.2.2.length) stages
      exact workers.trans List.length_set

/-- Only a task that has a queue is admitted. -/
theorem step_admitted (allowed : enabled config state action = true)
    (before : ∀ task, state.phase = .admitted task → task.type ≠ .jsonRpcTask)
    (steps : step config state action = .ok after) {task : Task}
    (admitted : after.phase = .admitted task) : task.type ≠ .jsonRpcTask := by
  cases action with
  | tick duration =>
      rw [← Except.ok.inj steps] at admitted
      exact before task admitted
  | beginIteration =>
      rw [← Except.ok.inj steps] at admitted
      cases admitted
  | checkTimeLimit answers =>
      obtain ⟨index, scanning⟩ := situation_of_enabled allowed
      simp only [step, scanning] at steps
      rcases scanStep_tasksKept steps with ⟨_, kept⟩ | ⟨_, custody, _⟩
      · rw [kept.place] at admitted
        cases admitted
      · have place : after.phase = .drain := congrArg Prod.fst custody
        rw [place] at admitted
        cases admitted
  | popPerformed =>
      rw [← Except.ok.inj steps, State.popPerformed] at admitted
      split at admitted <;> cases admitted
  | deliver answers =>
      obtain ⟨held, delivering⟩ := situation_of_enabled allowed
      simp only [step, delivering] at steps
      rw [(deliver_tasksKept steps).place] at admitted
      cases admitted
  | hangUp fd =>
      rw [← Except.ok.inj steps] at admitted
      exact before task admitted
  | accept result =>
      rw [← Except.ok.inj steps, (accept_tasksKept result).place] at admitted
      exact before task admitted
  | receive fd result modified allocated answers =>
      rcases receive_tasksKept steps with kept | ⟨new, _, custody, _⟩
      · rw [kept.place] at admitted
        exact before task admitted
      · have place : after.phase = .dispatched new := congrArg Prod.fst custody
        rw [place] at admitted
        cases admitted
  | chooseQueue answers =>
      obtain ⟨held, dispatched⟩ := situation_of_enabled allowed
      simp only [step, dispatched] at steps
      rcases chooseQueue_tasksKept steps with ⟨kept, kind, _⟩ | ⟨kept, _⟩
      · rw [kept.place] at admitted
        cases admitted
        exact kind
      · rw [kept.place] at admitted
        cases admitted
  | addTask =>
      obtain ⟨held, was⟩ := situation_of_enabled allowed
      simp only [step, was] at steps
      rw [← Except.ok.inj steps, State.addTask] at admitted
      dsimp only at admitted
      split at admitted <;> cases admitted
  | send fd result modified =>
      rw [(send_tasksKept steps).place] at admitted
      exact before task admitted
  | workerTake worker =>
      rw [← Except.ok.inj steps, State.workerTake] at admitted
      split at admitted
      next => exact before task admitted
      next =>
        dsimp only at admitted
        split at admitted <;> exact before task admitted
  | workerFinish worker response datetime entries =>
      rw [← Except.ok.inj steps, State.workerFinish] at admitted
      split at admitted <;> exact before task admitted

theorem Attended.preserved (attended : Attended config state) (invariant : Invariant config state)
    (allowed : enabled config state action = true)
    (steps : step config state action = .ok after) : Attended config after where
  awaited := by
    intro fd idle
    have effect := step_effect invariant.owned invariant.stocked allowed
      (Permits.of_all config state action) steps
    rcases effect.waiting idle with ⟨waited, stamp⟩ | new
    · obtain ⟨task, flying, owner, current⟩ := attended.awaited fd waited
      have serves : task.Serves after.slots fd := ⟨owner, current.trans stamp.symm⟩
      obtain ⟨same, there, sameFd, sameStamp⟩ :=
        step_survives invariant attended allowed steps flying idle serves
      exact ⟨same, there, sameFd.trans serves.1, sameStamp.trans serves.2⟩
    · exact new
  admitted := fun _ place => step_admitted allowed attended.admitted steps place
  staff := (step_workers allowed steps).trans attended.staff

theorem Attended.of_reachable (reachable : Reachable (server config) Unconditional state) :
    Attended config state := by
  induction reachable with
  | @start state initial =>
      refine ⟨fun fd idle => ?_, fun task place => ?_, ?_⟩
      · rw [(initial.free fd).2.2] at idle
        cases idle
      · rw [initial.phase] at place
        cases place
      · rw [initial.workers, List.length_replicate]
  | next before allowed _ steps inductionHypothesis =>
      exact inductionHypothesis.preserved (Invariant.of_reachable before) allowed steps

end Steps

/-! ## The work that is left -/

/-- The steps that bring a task on. -/
def Action.isWork : Action → Bool
  | .chooseQueue _ | .addTask | .workerTake _ | .workerFinish _ _ _ _ | .deliver _ => true
  | _ => false

/-- The steps that the task in the hands of the loop still needs. -/
def Phase.workLeft : Phase → Nat
  | .dispatched _ => 5
  | .admitted _ => 4
  | .delivering _ => 1
  | _ => 0

/-- The steps that the tasks elsewhere still need. -/
def State.queuedWork (state : State) : Nat :=
  3 * (state.tasksQueue.length + state.staticTasksQueue.length) +
    2 * state.workers.countP Option.isSome + state.performedTasksQueue.length

def State.workLeft (state : State) : Nat :=
  state.phase.workLeft + state.queuedWork

def Action.bringsData : Action → Bool
  | .receive _ (.data _) _ _ _ => true
  | _ => false

/-- The server while no client sends anything. Clients may still connect, close, and be read in
vain. -/
def unasked (config : Config) : System State Action Fault :=
  { server config with
    enabled := fun state action => enabled config state action && !action.bringsData }

section Work

variable {config : Config} {state after : State} {action : Action}

theorem workLeft_le : state.workLeft ≤ 5 * state.inFlight.length := by
  have held : state.phase.workLeft ≤ 5 * state.phase.held.length := by
    cases state.phase <;> simp [Phase.workLeft, Phase.held]
  have working : (state.workers.filterMap id).length = state.workers.countP Option.isSome :=
    List.length_filterMap_eq_countP
  simp only [State.workLeft, State.queuedWork, State.inFlight, List.length_append, working]
  omega

theorem workLeft_of_custody {phase : Phase} (custody : after.custody = state.custodyIn phase) :
    after.workLeft = phase.workLeft + state.queuedWork := by
  simp only [State.custody, State.custodyIn, Prod.mk.injEq] at custody
  obtain ⟨place, tasks, static, performed, workers, _⟩ := custody
  rw [State.workLeft, State.queuedWork, place, tasks, static, performed, workers]
  rfl

private theorem addTask_workLeft {task : Task} (admitted : state.phase = .admitted task) :
    (state.addTask task).workLeft < state.workLeft := by
  unfold State.addTask
  dsimp only
  split <;> simp only [State.workLeft, State.queuedWork, State.addTotalNumberClientRequests,
    Phase.workLeft, admitted, List.length_append, List.length_singleton] <;> omega

private theorem workerTake_workLeft {worker : Nat} (idle : state.workers[worker]? = some none)
    (nonempty : state.workerQueue worker ≠ []) :
    (state.workerTake worker).workLeft < state.workLeft := by
  obtain ⟨task, rest, queue⟩ := List.exists_cons_of_ne_nil nonempty
  have hands : (state.workers.set worker (some task)).countP Option.isSome =
      state.workers.countP Option.isSome + 1 := busy_set idle (some task)
  simp only [State.workerTake, queue]
  unfold State.workerQueue at queue
  split
  next first =>
    rw [if_pos first] at queue
    simp only [State.workLeft, State.queuedWork, hands, queue, List.length_cons]
    omega
  next notFirst =>
    rw [if_neg notFirst] at queue
    simp only [State.workLeft, State.queuedWork, hands, queue, List.length_cons]
    omega

private theorem workerFinish_workLeft {worker : Nat} {task : Task} {response : ResponseBase}
    {datetime : Bytes} {entries : List (Bytes × Bytes)}
    (busy : state.workers[worker]? = some (some task)) :
    (state.workerFinish config worker response datetime entries).workLeft < state.workLeft := by
  have hands : (state.workers.set worker none).countP Option.isSome + 1 =
      state.workers.countP Option.isSome := busy_set busy none
  simp only [State.workerFinish, busy, State.workLeft, State.queuedWork, List.length_append,
    List.length_singleton]
  omega

theorem work_lowers (allowed : enabled config state action = true)
    (steps : step config state action = .ok after) (ours : action.isWork = true) :
    after.workLeft < state.workLeft := by
  cases action with
  | chooseQueue answers =>
      obtain ⟨task, dispatched⟩ := situation_of_enabled allowed
      simp only [step, dispatched] at steps
      rcases chooseQueue_tasksKept steps with ⟨kept, _⟩ | ⟨kept, _⟩
      · rw [workLeft_of_custody kept.custody, State.workLeft, dispatched]
        simp only [Phase.workLeft]
        omega
      · rw [workLeft_of_custody kept.custody, State.workLeft, dispatched]
        simp only [Phase.workLeft]
        omega
  | addTask =>
      obtain ⟨task, admitted⟩ := situation_of_enabled allowed
      simp only [step, admitted] at steps
      rw [← Except.ok.inj steps]
      exact addTask_workLeft admitted
  | workerTake worker =>
      obtain ⟨idle, nonempty⟩ := situation_of_enabled allowed
      rw [← Except.ok.inj steps]
      exact workerTake_workLeft idle nonempty
  | workerFinish worker response datetime entries =>
      obtain ⟨task, busy⟩ := situation_of_enabled allowed
      rw [← Except.ok.inj steps]
      exact workerFinish_workLeft busy
  | deliver answers =>
      obtain ⟨task, delivering⟩ := situation_of_enabled allowed
      simp only [step, delivering] at steps
      rw [workLeft_of_custody (deliver_tasksKept steps).custody, State.workLeft, delivering]
      simp only [Phase.workLeft]
      omega
  | tick | beginIteration | checkTimeLimit | popPerformed | hangUp | accept | receive | send =>
      cases ours

private theorem receive_unread {fd : Nat} {result : RecvResult} {modified allocated : Bool}
    {answers : Answers} (unread : ∀ bytes, result ≠ .data bytes)
    (steps : state.receive config result modified allocated answers fd = .ok after) :
    after.custody = state.custodyIn state.phase := by
  cases result with
  | data bytes => exact absurd rfl (unread bytes)
  | endOfStream | fatal =>
      cases steps
      rfl
  | wouldBlock =>
      simp only [State.receive] at steps
      split at steps
      next => cases steps
      next =>
        split at steps
        next => exact (refuseInput_tasksKept steps).custody
        next => cases steps

/-- Nothing else makes work, unless a request arrives. -/
theorem others_keep_work (allowed : enabled config state action = true)
    (steps : step config state action = .ok after) (theirs : action.isWork = false)
    (unread : action.bringsData = false) : after.workLeft ≤ state.workLeft := by
  have kept : after.custody = state.custodyIn state.phase → after.workLeft ≤ state.workLeft :=
    fun custody => Nat.le_of_eq (workLeft_of_custody custody)
  have idle : ∀ {phase : Phase}, after.custody = state.custodyIn phase → phase.workLeft = 0 →
      after.workLeft ≤ state.workLeft := by
    intro phase custody nothing
    rw [workLeft_of_custody custody, nothing, State.workLeft]
    omega
  cases action with
  | tick duration =>
      apply kept
      rw [← Except.ok.inj steps]
      rfl
  | beginIteration =>
      have custody : after.custody =
          state.custodyIn (.scan state.counterCheckLimitTimeRequest) := by
        rw [← Except.ok.inj steps]
        rfl
      exact idle custody rfl
  | checkTimeLimit answers =>
      obtain ⟨index, scanning⟩ := situation_of_enabled allowed
      simp only [step, scanning] at steps
      rcases scanStep_tasksKept steps with ⟨_, scans⟩ | ⟨_, custody, _⟩
      · exact idle scans.custody rfl
      · exact idle custody rfl
  | popPerformed =>
      have draining : state.phase = .drain := situation_of_enabled allowed
      rw [← Except.ok.inj steps, State.popPerformed]
      cases queue : state.performedTasksQueue with
      | nil => simp [State.workLeft, State.queuedWork, Phase.workLeft, draining]
      | cons task rest =>
          simp only [State.workLeft, State.queuedWork, Phase.workLeft, draining, queue,
            List.length_cons]
          omega
  | hangUp fd =>
      apply kept
      rw [← Except.ok.inj steps]
      rfl
  | accept result =>
      apply kept
      rw [← Except.ok.inj steps]
      exact (accept_tasksKept result).custody
  | receive fd result modified allocated answers =>
      refine kept (receive_unread (fun bytes brings => ?_) steps)
      rw [brings] at unread
      cases unread
  | send fd result modified => exact kept (send_tasksKept steps).custody
  | chooseQueue | addTask | workerTake | workerFinish | deliver => cases theirs

theorem measures_workLeft (config : Config) :
    Measures (unasked config) (fun _ => True) Action.isWork State.workLeft where
  lowers _ _ _ _ allowed steps ours := work_lowers (Bool.and_eq_true_iff.mp allowed).1 steps ours
  keeps _ _ _ _ allowed steps theirs := by
    obtain ⟨possible, unread⟩ := Bool.and_eq_true_iff.mp allowed
    exact others_keep_work possible steps theirs (by simpa using unread)

theorem reachable_of_unasked {count : Nat}
    (reachable : Reachable (server config) Unconditional state)
    (stretch : Stretch (unasked config) (fun _ => True) Action.isWork state count after) :
    Reachable (server config) Unconditional after := by
  induction stretch with
  | refl => exact reachable
  | next _ _ allowed steps inductionHypothesis =>
      exact inductionHypothesis.next (Bool.and_eq_true_iff.mp allowed).1 trivial steps

end Work

/-! ## The server at rest -/

/-- The loop waits for events and has delivered everything, and nobody has work to do. -/
structure Resting (config : Config) (state : State) : Prop where
  events : state.phase = .events
  drained : state.performedTasksQueue = []
  idle : ∀ action, action.isWork = true → enabled config state action = false

/-- The server is seen to rest. -/
def State.quiet (state : State) : Bool :=
  (match state.phase with | .events => true | _ => false) &&
    state.tasksQueue.isEmpty && state.staticTasksQueue.isEmpty &&
    state.performedTasksQueue.isEmpty && state.workers.all Option.isNone

section Rest

variable {config : Config} {state : State}

theorem Resting.of_quiet (quiet : state.quiet = true) : Resting config state := by
  simp only [State.quiet, Bool.and_eq_true, List.isEmpty_iff] at quiet
  obtain ⟨⟨⟨⟨isEvents, tasks⟩, static⟩, performed⟩, free⟩ := quiet
  have events : state.phase = .events := by
    split at isEvents
    next events => exact events
    next => cases isEvents
  refine ⟨events, performed, fun action ours => ?_⟩
  cases action with
  | chooseQueue | addTask | deliver => simp only [enabled, events]
  | workerTake worker =>
      have nothing : state.workerQueue worker = [] := by
        unfold State.workerQueue
        split
        next => exact static
        next => exact tasks
      simp only [enabled, nothing]
      split <;> rfl
  | workerFinish worker response datetime entries =>
      simp only [enabled]
      split
      next task busy =>
        cases List.all_eq_true.mp free _ (List.mem_of_getElem? busy)
      next => rfl
  | tick | beginIteration | checkTimeLimit | popPerformed | hangUp | accept | receive | send =>
      cases ours

/-- A worker at rest holds nothing and finds nothing in its queue. -/
theorem Resting.worker (resting : Resting config state) {worker : Nat} {hand : Option Task}
    (present : state.workers[worker]? = some hand) :
    hand = none ∧ state.workerQueue worker = [] := by
  cases hand with
  | some task =>
      have finishes := resting.idle (.workerFinish worker (.make 200 [] [] []) [] []) rfl
      have listed : (ResponseBase.make 200 [] [] []).lists [] = true := by decide
      simp [enabled, present, listed] at finishes
  | none =>
      have takes := resting.idle (.workerTake worker) rfl
      simp only [enabled, present] at takes
      exact ⟨rfl, by simpa using takes⟩

theorem Resting.nothing_inFlight (resting : Resting config state)
    (attended : Attended config state) (threads : 2 ≤ config.numberThreads) :
    state.inFlight = [] := by
  have staff := attended.staff
  have present : ∀ worker < 2, ∃ hand, state.workers[worker]? = some hand := by
    intro worker small
    exact ⟨_, List.getElem?_eq_getElem (by omega)⟩
  obtain ⟨_, first⟩ := present 0 (by decide)
  obtain ⟨_, second⟩ := present 1 (by decide)
  have static : state.staticTasksQueue = [] := (resting.worker first).2
  have tasks : state.tasksQueue = [] := (resting.worker second).2
  refine List.eq_nil_iff_forall_not_mem.mpr fun task flying => ?_
  rcases mem_inFlight.mp flying with holds | queued | inStatic | working | performed
  · rw [resting.events] at holds
    cases holds
  · rw [tasks] at queued
    cases queued
  · rw [static] at inStatic
    cases inStatic
  · obtain ⟨worker, busy⟩ := List.mem_iff_getElem?.mp working
    cases (resting.worker busy).1
  · rw [resting.drained] at performed
    cases performed

end Rest

/-- **No connection waits in vain.** From any state of any run of a server with its two
threads or more, while no `recv` brings data: the loop and the workers take at most five
steps for each task, whatever else happens in between, and when they have nothing left to
do there is no task and no connection that waits for a response. -/
theorem no_connection_waits_in_vain (config : Config) (threads : 2 ≤ config.numberThreads)
    (state after : State) (reachable : Reachable (server config) Unconditional state)
    (count : Nat)
    (stretch : Stretch (unasked config) (fun _ => True) Action.isWork state count after) :
    count ≤ 5 * state.inFlight.length ∧
      (Resting config after →
        after.inFlight = [] ∧ ∀ fd, (after.slots fd).interest ≠ some .idle) := by
  have bounded := stretch.bounded (measures_workLeft config)
  have most := @workLeft_le state
  refine ⟨by omega, fun resting => ?_⟩
  have attended := Attended.of_reachable (reachable_of_unasked reachable stretch)
  have nothing := resting.nothing_inFlight attended threads
  refine ⟨nothing, fun fd idle => ?_⟩
  obtain ⟨task, flying, _⟩ := attended.awaited fd idle
  rw [nothing] at flying
  cases flying

/-- The turns of the worker and of the loop that finish one queued request. -/
def finishOne : List Action :=
  [.workerTake 1, .workerFinish 1 (.make 200 (ascii "OK") [] []) [] [], .beginIteration,
    .checkTimeLimit ⟨[], true⟩, .checkTimeLimit ⟨[], true⟩, .checkTimeLimit ⟨[], true⟩,
    .popPerformed, .deliver ⟨[], true⟩, .popPerformed]

/-- One request is queued, and the server comes to rest after three steps of work. -/
theorem queued_request_does_not_wait_in_vain :
    ∃ state after : State, state.inFlight.length = 1 ∧
      Stretch (unasked smallConfig) (fun _ => True) Action.isWork state 3 after ∧
      3 ≤ 5 * state.inFlight.length ∧ Resting smallConfig after ∧ after.inFlight = [] ∧
      ∀ fd, (after.slots fd).interest ≠ some .idle := by
  obtain ⟨state, reachable, passes⟩ := (server smallConfig).exists_of_replay
    smallState_initial
    (fun state => decide (state.inFlight.length = 1) &&
      ((unasked smallConfig).pace (fun _ => True) Action.isWork state 0 finishOne).any
        fun ends => ends.2 == 3 && ends.1.quiet)
    (show ((server smallConfig).replay Unconditional smallState (requestQueued 0)).any _ = true by
      decide +kernel)
  rw [Bool.and_eq_true, decide_eq_true_eq] at passes
  cases paced : (unasked smallConfig).pace (fun _ => True) Action.isWork state 0 finishOne with
  | none =>
      rw [paced] at passes
      cases passes.2
  | some ends =>
      rw [paced] at passes
      obtain ⟨three, quiet⟩ := Bool.and_eq_true_iff.mp passes.2
      have stretch := System.stretch_of_pace .refl paced
      rw [show ends.2 = 3 from eq_of_beq three] at stretch
      obtain ⟨bounded, atRest⟩ :=
        no_connection_waits_in_vain smallConfig (by decide) state ends.1 reachable 3 stretch
      have resting : Resting smallConfig ends.1 := .of_quiet quiet
      exact ⟨state, ends.1, passes.1, stretch, bounded, resting, atRest resting⟩

end Onyxup.Server
