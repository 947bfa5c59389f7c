import Onyxup.Server.Ledger

/-!
Contract: who owns a task.

Owns: what every action of the server does to the places of the tasks, and the
theorem that every task that was dispatched is in one of them, is run once and by
the right kind of worker, and is deleted once.

Does not own: the places and the ledger.

The order is that of the proof: an action is a hand-over, a hand-over keeps the
invariant, and so does a call of a handler.
-/

set_option autoImplicit false

namespace Onyxup.Server

open Onyxup.Lib.CString
open Onyxup.Lib.Transition
open Onyxup.Lib.Custody
open Onyxup.Http
open Onyxup.Response

/-- Every task is in exactly one place and once there, has been run at most once,
and exactly once when it is in the queue of performed tasks; static resources are
run by worker 0 and local tasks by the others. -/
structure Accounted (audited : Audited) : Prop where
  place : ∀ serial < audited.state.tasksCreated, ∃! place, serial ∈ audited.serialsAt place
  once : ∀ place, (audited.serialsAt place).Nodup
  runsOnce : audited.ledger.runSerials.Nodup
  performed : ∀ task ∈ audited.state.performedTasksQueue,
    audited.ledger.runSerials.count task.serial = 1
  kinds : ∀ run ∈ audited.ledger.runs,
    (run.2.type = .staticResourcesTask ∧ run.1 = 0) ∨ (run.2.type = .localTask ∧ run.1 ≠ 0)

/-! ## Every action -/

/-- Only tasks that are run are queued, and every worker has a task of its kind. -/
structure Employed (state : State) : Prop where
  admitted : ∀ task, state.phase = .admitted task → task.type ≠ .jsonRpcTask
  staffed : ∀ (id : Nat) (task : Task), state.workers[id]? = some (some task) →
    (task.type = .staticResourcesTask ∧ id = 0) ∨ (task.type = .localTask ∧ id ≠ 0)

section Actions

variable {config : Config} {before after : Audited}

/-- The loop goes somewhere else, and the workers stay as they are. -/
theorem Employed.of_custody {state changed : State} {phase : Phase} {created : Nat}
    {tasks static performed : List Task} (employed : Employed state)
    (admitted : ∀ task, phase = .admitted task → task.type ≠ .jsonRpcTask)
    (custody : changed.custody = (phase, tasks, static, performed, state.workers, created)) :
    Employed changed := by
  simp only [State.custody, Prod.mk.injEq] at custody
  obtain ⟨goes, _, _, _, workers, _⟩ := custody
  exact ⟨goes ▸ admitted, workers ▸ employed.staffed⟩

/-- A worker takes a task of its kind, or puts its task down. -/
theorem Employed.of_set {state changed : State} {id : Nat} {hand : Option Task}
    (employed : Employed state) (phase : changed.phase = state.phase)
    (workers : changed.workers = state.workers.set id hand)
    (kind : ∀ task, hand = some task →
      (task.type = .staticResourcesTask ∧ id = 0) ∨ (task.type = .localTask ∧ id ≠ 0)) :
    Employed changed := by
  refine ⟨phase ▸ employed.admitted, ?_⟩
  intro other held holds
  rw [workers] at holds
  by_cases same : id = other
  · subst same
    obtain ⟨_, inHand⟩ := List.getElem?_eq_some_iff.mp holds
    rw [List.getElem_set_self] at inHand
    exact kind held inHand
  · rw [List.getElem?_set_ne same] at holds
    exact employed.staffed other held holds

private theorem not_admitted_of_hands {phase : Phase} (hands : phase.hands.1 = []) :
    ∀ task, phase = .admitted task → task.type ≠ .jsonRpcTask := by
  rintro task rfl
  cases hands

private theorem idle_transfer {phase : Phase} (employed : Employed before.state)
    (hands : before.state.phase.hands = ([], [])) (empty : phase.hands = ([], []))
    (custody : after.state.custody = before.state.custodyIn phase)
    (called : after.ledger.called = before.ledger.called)
    (deleted : after.ledger.deleted = before.ledger.deleted) :
    Transfer before after ∧ Employed after.state :=
  ⟨transfer_of_custody (empty.trans hands.symm) custody called deleted,
    employed.of_custody (not_admitted_of_hands (congrArg Prod.fst empty)) custody⟩

private theorem still_transfer (employed : Employed before.state)
    (custody : after.state.custody = before.state.custody)
    (called : after.ledger.called = before.ledger.called)
    (deleted : after.ledger.deleted = before.ledger.deleted) :
    Transfer before after ∧ Employed after.state :=
  ⟨transfer_of_custody rfl custody called deleted,
    employed.of_custody employed.admitted custody⟩

private theorem popPerformed_transfer (employed : Employed before.state)
    (draining : before.state.phase = .drain) (pops : before.state.popPerformed = after.state)
    (called : after.ledger.called = before.ledger.called)
    (deleted : after.ledger.deleted = before.ledger.deleted) :
    Transfer before after ∧ Employed after.state := by
  have hands : before.state.phase.hands = ([], []) := by
    rw [draining]
    rfl
  unfold State.popPerformed at pops
  split at pops
  next =>
    have custody : after.state.custody = before.state.custodyIn .events := by
      rw [← pops]
      rfl
    exact idle_transfer employed hands rfl custody called deleted
  next task rest queue =>
    have custody : after.state.custody = (.delivering task, before.state.tasksQueue,
        before.state.staticTasksQueue, rest, before.state.workers,
        before.state.tasksCreated) := by
      rw [← pops]
      rfl
    exact ⟨transfer_of_pop hands queue custody called deleted,
      employed.of_custody (not_admitted_of_hands rfl) custody⟩

private theorem deliver_transfer {answers : Answers} {task : Task}
    (employed : Employed before.state) (delivering : before.state.phase = .delivering task)
    (delivers : before.state.deliver config answers task = .ok after.state)
    (called : after.ledger.called = before.ledger.called)
    (deleted : after.ledger.deleted =
      before.ledger.deleted ++ deletedBy config before.state (.deliver answers)) :
    Transfer before after ∧ Employed after.state := by
  have hands : before.state.phase.hands = ([], [task]) := by
    rw [delivering]
    rfl
  obtain ⟨⟨custody, _⟩, deletes⟩ := deliver_deletes delivering delivers
  rw [deletes] at deleted
  exact ⟨transfer_of_delete (.inr ⟨rfl, hands⟩) rfl custody called deleted,
    employed.of_custody (not_admitted_of_hands rfl) custody⟩

private theorem chooseQueue_transfer {answers : Answers} {task : Task}
    (employed : Employed before.state) (dispatched : before.state.phase = .dispatched task)
    (chooses : before.state.chooseQueue config answers task = .ok after.state)
    (called : after.ledger.called = before.ledger.called)
    (deleted : after.ledger.deleted =
      before.ledger.deleted ++ deletedBy config before.state (.chooseQueue answers)) :
    Transfer before after ∧ Employed after.state := by
  have hands : before.state.phase.hands = ([task], []) := by
    rw [dispatched]
    rfl
  rcases chooseQueue_deletes dispatched chooses with
    ⟨⟨custody, _⟩, runs, deletes⟩ | ⟨⟨custody, _⟩, deletes⟩
  · rw [deletes, List.append_nil] at deleted
    refine ⟨transfer_of_custody ((hands_admitted task).trans hands.symm) custody called deleted,
      employed.of_custody ?_ custody⟩
    rintro other ⟨⟩
    exact runs
  · rw [deletes] at deleted
    exact ⟨transfer_of_delete (.inl ⟨rfl, hands⟩) rfl custody called deleted,
      employed.of_custody (not_admitted_of_hands rfl) custody⟩

private theorem addTask_transfer {task : Task} (employed : Employed before.state)
    (admitted : before.state.phase = .admitted task)
    (adds : before.state.addTask task = after.state)
    (called : after.ledger.called = before.ledger.called)
    (deleted : after.ledger.deleted = before.ledger.deleted) :
    Transfer before after ∧ Employed after.state := by
  have hands : before.state.phase.hands = ([task], []) := by
    rw [admitted]
    rfl
  unfold State.addTask at adds
  dsimp only at adds
  split at adds
  next =>
    have custody : after.state.custody = (.events, before.state.tasksQueue ++ [task],
        before.state.staticTasksQueue, before.state.performedTasksQueue, before.state.workers,
        before.state.tasksCreated) := by
      rw [← adds]
      rfl
    exact ⟨transfer_of_queue hands custody (.inl ⟨rfl, rfl, rfl⟩) called deleted,
      employed.of_custody (not_admitted_of_hands rfl) custody⟩
  next =>
    have custody : after.state.custody = (.events, before.state.tasksQueue,
        before.state.staticTasksQueue ++ [task], before.state.performedTasksQueue,
        before.state.workers, before.state.tasksCreated) := by
      rw [← adds]
      rfl
    exact ⟨transfer_of_queue hands custody (.inr ⟨rfl, rfl, rfl⟩) called deleted,
      employed.of_custody (not_admitted_of_hands rfl) custody⟩
  next kind => exact absurd kind (employed.admitted task admitted)

private theorem workerTake_transfer {id : Nat} (fit : Fit before.state)
    (employed : Employed before.state) (idle : before.state.workers[id]? = some none)
    (nonempty : before.state.workerQueue id ≠ [])
    (takes : before.state.workerTake id = after.state)
    (called : after.ledger.called = Function.update before.ledger.called id false)
    (deleted : after.ledger.deleted = before.ledger.deleted) :
    Transfer before after ∧ Employed after.state := by
  obtain ⟨task, rest, queue⟩ := List.exists_cons_of_ne_nil nonempty
  refine ⟨transfer_of_take idle queue takes.symm called deleted, ?_⟩
  have kind : (task.type = .staticResourcesTask ∧ id = 0) ∨
      (task.type = .localTask ∧ id ≠ 0) := by
    unfold State.workerQueue at queue
    split at queue
    next isStatic => exact .inl ⟨fit.staticKind task (by rw [queue]; simp), isStatic⟩
    next isLocal => exact .inr ⟨fit.localKind task (by rw [queue]; simp), isLocal⟩
  rw [State.workerTake, queue] at takes
  dsimp only at takes
  have workers : after.state.workers = before.state.workers.set id (some task) := by
    rw [← takes]
    split <;> rfl
  have phase : after.state.phase = before.state.phase := by
    rw [← takes]
    split <;> rfl
  apply employed.of_set phase workers
  rintro held ⟨⟩
  exact kind

private theorem workerFinish_transfer {id : Nat} {response : ResponseBase} {datetime : Bytes}
    {entries : List (Bytes × Bytes)} {task : Task} (employed : Employed before.state)
    (busy : before.state.workers[id]? = some (some task))
    (mayPush : (before.ledger.called id || !task.runs) = true)
    (finishes : before.state.workerFinish config id response datetime entries = after.state)
    (called : after.ledger.called = before.ledger.called)
    (deleted : after.ledger.deleted = before.ledger.deleted) :
    Transfer before after ∧ Employed after.state := by
  have runs : task.runs = true := by
    rcases employed.staffed id task busy with ⟨kind, _⟩ | ⟨kind, _⟩ <;> simp [Task.runs, kind]
  have calledIt : before.ledger.called id = true := by
    simpa [runs] using mayPush
  have serial : (State.performTask config response datetime entries task).serial =
      task.serial := by
    unfold State.performTask
    split <;> rfl
  rw [State.workerFinish, busy] at finishes
  dsimp only at finishes
  have custody : after.state.custody = (before.state.phase, before.state.tasksQueue,
      before.state.staticTasksQueue,
      before.state.performedTasksQueue ++
        [State.performTask config response datetime entries task],
      before.state.workers.set id none, before.state.tasksCreated) := by
    rw [← finishes]
    rfl
  refine ⟨transfer_of_finish busy serial calledIt custody called deleted, ?_⟩
  have workers : after.state.workers = before.state.workers.set id none :=
    congrArg (fun kept => kept.2.2.2.2.1) custody
  have phase : after.state.phase = before.state.phase := congrArg Prod.fst custody
  apply employed.of_set phase workers
  intro held impossible
  cases impossible

/-- What an action of the server does to the places. -/
theorem server_transfer {action : Action} (fit : Fit before.state)
    (employed : Employed before.state)
    (allowed : enabled config before.state action = true)
    (mayPush : mayFinish before action = true)
    (steps : step config before.state action = .ok after.state)
    (called : after.ledger.called = calledAfter before.ledger.called action)
    (deleted : after.ledger.deleted =
      before.ledger.deleted ++ deletedBy config before.state action) :
    Transfer before after ∧ Employed after.state := by
  cases action with
  | tick duration =>
      have custody : after.state.custody = before.state.custody := by
        rw [← Except.ok.inj steps]
        rfl
      exact still_transfer employed custody called (deleted.trans (List.append_nil _))
  | beginIteration =>
      have events : before.state.phase = .events := situation_of_enabled allowed
      have hands := hands_of_events events
      have custody : after.state.custody =
          before.state.custodyIn (.scan before.state.counterCheckLimitTimeRequest) := by
        rw [← Except.ok.inj steps]
        rfl
      exact idle_transfer employed hands rfl custody called (deleted.trans (List.append_nil _))
  | checkTimeLimit answers =>
      obtain ⟨index, scanning⟩ := situation_of_enabled allowed
      have hands : before.state.phase.hands = ([], []) := by
        rw [scanning]
        rfl
      simp only [step, scanning] at steps
      rcases scanStep_tasksKept steps with ⟨_, custody, _⟩ | ⟨_, custody, _⟩
      · exact idle_transfer employed hands rfl custody called
          (deleted.trans (List.append_nil _))
      · exact idle_transfer employed hands rfl custody called
          (deleted.trans (List.append_nil _))
  | popPerformed =>
      have draining : before.state.phase = .drain := situation_of_enabled allowed
      exact popPerformed_transfer employed draining (Except.ok.inj steps) called
        (deleted.trans (List.append_nil _))
  | deliver answers =>
      obtain ⟨task, delivering⟩ := situation_of_enabled allowed
      simp only [step, delivering] at steps
      exact deliver_transfer employed delivering steps called deleted
  | hangUp fd =>
      have custody : after.state.custody = before.state.custody := by
        rw [← Except.ok.inj steps]
        rfl
      exact still_transfer employed custody called (deleted.trans (List.append_nil _))
  | accept result =>
      have custody : after.state.custody = before.state.custody := by
        rw [← Except.ok.inj steps]
        exact (accept_tasksKept result).custody
      exact still_transfer employed custody called (deleted.trans (List.append_nil _))
  | receive fd result modified allocated answers =>
      obtain ⟨events, _⟩ := situation_of_enabled allowed
      have hands := hands_of_events events
      rcases receive_tasksKept steps with ⟨custody, _⟩ | ⟨task, serial, custody, _⟩
      · exact still_transfer employed custody called (deleted.trans (List.append_nil _))
      · refine ⟨transfer_of_dispatch hands serial custody called
          (deleted.trans (List.append_nil _)), employed.of_custody ?_ custody⟩
        intro other impossible
        cases impossible
  | chooseQueue answers =>
      obtain ⟨task, dispatched⟩ := situation_of_enabled allowed
      simp only [step, dispatched] at steps
      exact chooseQueue_transfer employed dispatched steps called deleted
  | addTask =>
      obtain ⟨task, admitted⟩ := situation_of_enabled allowed
      simp only [step, admitted] at steps
      exact addTask_transfer employed admitted (Except.ok.inj steps) called
        (deleted.trans (List.append_nil _))
  | send fd result modified =>
      exact still_transfer employed (send_tasksKept steps).custody called
        (deleted.trans (List.append_nil _))
  | workerTake id =>
      obtain ⟨idle, nonempty⟩ := situation_of_enabled allowed
      exact workerTake_transfer fit employed idle nonempty (Except.ok.inj steps) called
        (deleted.trans (List.append_nil _))
  | workerFinish id response datetime entries =>
      simp only [mayFinish] at mayPush
      split at mayPush
      next task busy =>
        exact workerFinish_transfer employed busy mayPush (Except.ok.inj steps) called
          (deleted.trans (List.append_nil _))
      next => cases mayPush

end Actions

/-! ## Whole runs -/

/-- The invariant of the audited server. -/
structure Audit (audited : Audited) : Prop where
  kept : Kept audited.serialsAt fun serial => serial < audited.state.tasksCreated
  marked : Marked audited.serialsAt (fun serial => serial < audited.state.tasksCreated)
    (fun serial => serial ∈ audited.ledger.runSerials) Place.front Place.behind
  runsOnce : audited.ledger.runSerials.Nodup
  kinds : ∀ run ∈ audited.ledger.runs,
    (run.2.type = .staticResourcesTask ∧ run.1 = 0) ∨ (run.2.type = .localTask ∧ run.1 ≠ 0)
  employed : Employed audited.state

namespace Audit

variable {config : Config} {before after : Audited}

/-- A hand-over that does not call a handler, or a new task. -/
theorem transferred (audit : Audit before)
    (both : Transfer before after ∧ Employed after.state)
    (runs : after.ledger.runs = before.ledger.runs) : Audit after := by
  obtain ⟨transfer, employed⟩ := both
  have sameRuns : after.ledger.runSerials = before.ledger.runSerials := by
    rw [Ledger.runSerials, runs]
    rfl
  have kinds := audit.kinds
  rw [← runs] at kinds
  cases transfer with
  | same places created =>
      refine ⟨?_, ?_, sameRuns ▸ audit.runsOnce, kinds, employed⟩
      · rw [places, created]
        exact audit.kept
      · rw [places, created, sameRuns]
        exact audit.marked
  | moved moves forth back created =>
      refine ⟨?_, ?_, sameRuns ▸ audit.runsOnce, kinds, employed⟩
      · rw [created]
        exact audit.kept.moved moves
      · rw [created, sameRuns]
        exact audit.marked.moved moves forth back
  | added adds created =>
      have fresh : ¬ before.state.tasksCreated < before.state.tasksCreated := Nat.lt_irrefl _
      refine ⟨?_, ?_, sameRuns ▸ audit.runsOnce, kinds, employed⟩
      · apply audit.kept.added adds fresh
        intro other
        rw [created]
        omega
      · rw [sameRuns]
        apply audit.marked.added adds fresh (fun impossible => impossible.elim)
        intro other earlier
        rw [created]
        omega

/-- A worker calls a handler. -/
theorem called {id : Nat} {task : Task} (audit : Audit before)
    (busy : before.state.workers[id]? = some (some task))
    (notYet : before.ledger.called id = false) (sameState : after.state = before.state)
    (calls : after.ledger.called = Function.update before.ledger.called id true)
    (runs : after.ledger.runs = before.ledger.runs ++ [(id, task)])
    (deleted : after.ledger.deleted = before.ledger.deleted) : Audit after := by
  have moves := moved_of_call busy notYet sameState calls deleted
  have unrun : task.serial ∉ before.ledger.runSerials :=
    audit.marked.without (by trivial : (Place.worker id).front) moves.mem_source
  have serials : after.ledger.runSerials = before.ledger.runSerials ++ [task.serial] := by
    rw [Ledger.runSerials, runs, List.map_append]
    rfl
  refine ⟨?_, ?_, ?_, ?_, ?_⟩
  · rw [sameState]
    exact audit.kept.moved moves
  · have passed := audit.marked.passed audit.kept moves fun impossible => impossible.elim
    rw [sameState]
    convert passed using 2
    rw [serials, List.mem_append, List.mem_singleton, or_comm]
  · rw [serials, List.nodup_append]
    refine ⟨audit.runsOnce, List.nodup_singleton _, ?_⟩
    intro serial member other isOther
    rw [List.mem_singleton.mp isOther]
    rintro rfl
    exact unrun member
  · rw [runs]
    intro run member
    rcases List.mem_append.mp member with old | new
    · exact audit.kinds run old
    · rw [List.mem_singleton.mp new]
      exact audit.employed.staffed id task busy
  · rw [sameState]
    exact audit.employed

theorem initially (initial : (auditedServer config).initial before) : Audit before := by
  obtain ⟨server, ledger⟩ := initial
  obtain ⟨tasks, static, performed⟩ := server.queues
  have noWorker : ∀ id, before.state.heldBy id = [] := by
    intro id
    rw [State.heldBy, server.workers, List.getElem?_replicate]
    split <;> rfl
  have empty : ∀ place, before.serialsAt place = [] := by
    intro place
    cases place with
    | dispatched | delivering =>
        simp [Audited.serialsAt, Audited.tasksAt, server.phase, Phase.hands]
    | tasksQueue | staticTasksQueue | performedTasksQueue =>
        simp [Audited.serialsAt, Audited.tasksAt, tasks, static, performed]
    | worker | served => simp [Audited.serialsAt, Audited.tasksAt, noWorker]
    | deleted => simp [Audited.serialsAt, Audited.tasksAt, ledger]
  have noRun : before.ledger.runSerials = [] := by
    rw [Ledger.runSerials, ledger]
    rfl
  refine ⟨⟨?_, ?_, ?_⟩, ⟨?_, ?_, ?_⟩, ?_, ?_, ⟨?_, ?_⟩⟩
  · intro place
    rw [empty]
    exact List.nodup_nil
  · intro first second serial member
    rw [empty] at member
    cases member
  · intro serial
    simp [empty, server.history.1]
  · intro place serial _ member
    rw [empty] at member
    cases member
  · intro place serial _ member
    rw [empty] at member
    cases member
  · simp [noRun]
  · rw [noRun]
    exact List.nodup_nil
  · simp [ledger]
  · intro task admitted
    rw [server.phase] at admitted
    cases admitted
  · intro id task busy
    rw [server.workers, List.getElem?_replicate] at busy
    split at busy <;> cases busy

/-- Every state of every run. -/
theorem of_reachable (reachable : Reachable (auditedServer config) Unconditional after) :
    Audit after := by
  induction reachable with
  | start initial => exact initially initial
  | @next state next action earlier allowed _ steps audit =>
      have invariant := Invariant.of_reachable (reachable_of_audited earlier)
      cases action with
      | server action =>
          simp only [auditedServer, auditedEnabled, Bool.and_eq_true] at allowed
          simp only [auditedServer, auditedStep] at steps
          split at steps
          next => cases steps
          next moves =>
            cases steps
            exact audit.transferred (server_transfer invariant.fit audit.employed allowed.1
              allowed.2 moves rfl rfl) rfl
      | callHandler id =>
          simp only [auditedServer, auditedEnabled] at allowed
          split at allowed
          next task busy =>
            simp only [auditedServer, auditedStep, busy] at steps
            cases steps
            rw [Bool.and_eq_true, Bool.not_eq_true'] at allowed
            exact audit.called busy allowed.2 rfl rfl rfl rfl
          next => cases allowed

end Audit

/-- **No task is lost, duplicated or run in the wrong place.** For every number of
workers and every interleaving of the loop with them. -/
theorem tasks_accounted (config : Config) (audited : Audited)
    (reachable : Reachable (auditedServer config) Unconditional audited) :
    Accounted audited := by
  have audit := Audit.of_reachable reachable
  refine ⟨?_, audit.kept.once, audit.runsOnce, ?_, audit.kinds⟩
  · intro serial created
    exact audit.kept.existsUnique created
  · intro task member
    apply List.count_eq_one_of_mem audit.runsOnce
    exact audit.marked.within (by trivial : Place.performedTasksQueue.behind)
      (List.mem_map_of_mem member)

/-- The small server with an empty ledger. -/
def smallAudited : Audited :=
  ⟨smallState, ⟨fun _ => false, [], []⟩⟩

theorem smallAudited_initial : (auditedServer smallConfig).initial smallAudited :=
  ⟨smallState_initial, rfl⟩

/-- One request through a worker, up to the queue of performed tasks. -/
def performedOnce : List AuditedAction :=
  [.server clientConnects, .server (clientSends simpleGet), .server (.chooseQueue ⟨[], true⟩),
    .server .addTask, .server (.workerTake 1), .callHandler 1,
    .server (.workerFinish 1 (.make 200 (ascii "OK") [] []) [] [])]

theorem accounted_when_performed :
    ∃ audited : Audited, audited.state.performedTasksQueue.length = 1 ∧ Accounted audited := by
  obtain ⟨audited, reachable, passes⟩ := (auditedServer smallConfig).exists_of_replay
    smallAudited_initial
    (fun audited => decide (audited.state.performedTasksQueue.length = 1))
    (show ((auditedServer smallConfig).replay Unconditional smallAudited performedOnce).any _ =
      true by decide +kernel)
  exact ⟨audited, of_decide_eq_true passes, tasks_accounted smallConfig audited reachable⟩

end Onyxup.Server
