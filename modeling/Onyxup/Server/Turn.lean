import Onyxup.Lib.Progress
import Onyxup.Server.Order

/-!
Contract: one turn of the event loop.

Owns: a bound on the steps of the loop between two calls of `epoll_wait`, whatever the
workers do meanwhile, and the fact that nothing but a fault stops it on the way.

Does not own: how long a step takes.

The time-out scan looks at a hundred slots. The loop over `performedTasksQueue` runs
while workers push into it, so it is not the length of the queue that bounds it: it is
the number of tasks that exist, and no task is made before `epoll_wait` has returned.
-/

set_option autoImplicit false

namespace Onyxup.Server

open Onyxup.Lib.Transition
open Onyxup.Http
open Onyxup.Response

/-- The actions of the loop itself. -/
def Action.isLoop : Action → Bool
  | .tick _ | .workerTake _ | .workerFinish _ _ _ _ => false
  | _ => true

/-- The loop is not waiting for events. -/
def UnderWay (state : State) : Prop :=
  state.phase ≠ .events

instance (state : State) : Decidable (UnderWay state) :=
  match place : state.phase with
  | .events => isFalse fun underWay => underWay place
  | .scan _ | .drain | .delivering _ | .dispatched _ | .admitted _ =>
      isTrue fun events => by rw [place] at events; cases events

/-- The tasks that have been queued and not yet come to the loop again. -/
def State.backlog (state : State) : Nat :=
  state.tasksQueue.length + state.staticTasksQueue.length +
    state.workers.countP Option.isSome + state.performedTasksQueue.length

/-- The steps of the loop that are still to come in this turn. -/
def State.toGo (state : State) : Nat :=
  match state.phase with
  | .scan index => state.counterCheckLimitTimeRequest + 100 - index + 2 + 2 * state.backlog
  | .drain => 1 + 2 * state.backlog
  | .delivering _ => 2 + 2 * state.backlog
  | .dispatched _ => 2
  | .admitted _ => 1
  | .events => 0

section Steps

variable {config : Config} {state after : State} {action : Action}

private theorem backlog_of_custody {phase : Phase}
    (custody : after.custody = state.custodyIn phase) : after.backlog = state.backlog := by
  simp only [State.custody, State.custodyIn, Prod.mk.injEq] at custody
  obtain ⟨_, tasks, static, performed, workers, _⟩ := custody
  rw [State.backlog, tasks, static, performed, workers]
  rfl

/-- Every step of the loop brings it closer to `epoll_wait`. -/
theorem loop_lowers (underWay : UnderWay state) (allowed : enabled config state action = true)
    (steps : step config state action = .ok after) (ours : action.isLoop = true) :
    after.toGo < state.toGo := by
  cases action with
  | tick duration => cases ours
  | workerTake worker => cases ours
  | workerFinish worker response datetime entries => cases ours
  | beginIteration => exact absurd (situation_of_enabled allowed) underWay
  | hangUp fd => exact absurd (situation_of_enabled allowed).1 underWay
  | accept result => exact absurd (situation_of_enabled allowed).1 underWay
  | receive fd result modified allocated answers =>
      exact absurd (situation_of_enabled allowed).1 underWay
  | send fd result modified => exact absurd (situation_of_enabled allowed).1 underWay
  | checkTimeLimit answers =>
      obtain ⟨index, scanning⟩ := situation_of_enabled allowed
      simp only [step, scanning] at steps
      rcases scanStep_tasksKept steps with ⟨inside, kept⟩ | ⟨_, custody, _⟩
      · rw [State.toGo, kept.place, State.toGo, scanning, backlog_of_custody kept.custody,
          kept.counter]
        dsimp only
        omega
      · have place : after.phase = .drain := congrArg Prod.fst custody
        rw [State.toGo, place, State.toGo, scanning, backlog_of_custody custody]
        dsimp only
        omega
  | popPerformed =>
      have draining : state.phase = .drain := situation_of_enabled allowed
      rw [← Except.ok.inj steps, State.popPerformed]
      cases queue : state.performedTasksQueue with
      | nil =>
          simp only [State.toGo, draining]
          omega
      | cons task rest =>
          simp only [State.toGo, draining, State.backlog, queue, List.length_cons]
          omega
  | deliver answers =>
      obtain ⟨task, delivering⟩ := situation_of_enabled allowed
      simp only [step, delivering] at steps
      have kept := deliver_tasksKept steps
      rw [State.toGo, kept.place, State.toGo, delivering, backlog_of_custody kept.custody]
      dsimp only
      omega
  | chooseQueue answers =>
      obtain ⟨task, dispatched⟩ := situation_of_enabled allowed
      simp only [step, dispatched] at steps
      rcases chooseQueue_tasksKept steps with ⟨kept, _⟩ | ⟨kept, _⟩
      · rw [State.toGo, kept.place, State.toGo, dispatched]
        exact Nat.lt_succ_self 1
      · rw [State.toGo, kept.place, State.toGo, dispatched]
        exact Nat.succ_pos 1
  | addTask =>
      obtain ⟨task, admitted⟩ := situation_of_enabled allowed
      simp only [step, admitted] at steps
      have place : after.phase = .events := by
        rw [← Except.ok.inj steps, State.addTask]
        dsimp only
        split <;> rfl
      rw [State.toGo, place, State.toGo, admitted]
      exact Nat.one_pos

/-- One worker takes a task or puts it down. -/
theorem busy_set {workers : List (Option Task)} {worker : Nat} {old : Option Task}
    (present : workers[worker]? = some old) (new : Option Task) :
    (workers.set worker new).countP Option.isSome + (if old.isSome then 1 else 0) =
      workers.countP Option.isSome + if new.isSome then 1 else 0 := by
  obtain ⟨inside, same⟩ := List.getElem?_eq_some_iff.mp present
  have counted := List.boole_getElem_le_countP (p := Option.isSome) inside
  rw [List.countP_set inside, same]
  rw [same] at counted
  omega

private theorem toGo_congr (phase : after.phase = state.phase)
    (counter : after.counterCheckLimitTimeRequest = state.counterCheckLimitTimeRequest)
    (backlog : after.backlog = state.backlog) : after.toGo = state.toGo := by
  rw [State.toGo, State.toGo, phase, counter, backlog]

private theorem workerTake_toGo {worker : Nat} (idle : state.workers[worker]? = some none) :
    (state.workerTake worker).toGo = state.toGo := by
  have hands : ∀ task, (state.workers.set worker (some task)).countP Option.isSome =
      state.workers.countP Option.isSome + 1 := fun task => busy_set idle (some task)
  unfold State.workerTake
  cases queue : state.workerQueue worker with
  | nil => rfl
  | cons task rest =>
      unfold State.workerQueue at queue
      dsimp only
      by_cases first : worker = 0
      · rw [if_pos first] at queue ⊢
        refine toGo_congr rfl rfl ?_
        simp only [State.backlog, hands task, queue, List.length_cons]
        omega
      · rw [if_neg first] at queue ⊢
        refine toGo_congr rfl rfl ?_
        simp only [State.backlog, hands task, queue, List.length_cons]
        omega

private theorem workerFinish_toGo {worker : Nat} {task : Task} {response : ResponseBase}
    {datetime : Lib.CString.Bytes} {entries : List (Lib.CString.Bytes × Lib.CString.Bytes)}
    (busy : state.workers[worker]? = some (some task)) :
    (state.workerFinish config worker response datetime entries).toGo = state.toGo := by
  have hands : (state.workers.set worker none).countP Option.isSome + 1 =
      state.workers.countP Option.isSome := busy_set busy none
  simp only [State.workerFinish, busy]
  refine toGo_congr rfl rfl ?_
  simp only [State.backlog, List.length_append, List.length_singleton]
  omega

/-- Nobody else keeps it from getting there. -/
theorem others_keep (allowed : enabled config state action = true)
    (steps : step config state action = .ok after) (theirs : action.isLoop = false) :
    after.toGo ≤ state.toGo := by
  cases action with
  | tick duration =>
      rw [← Except.ok.inj steps]
      exact Nat.le_refl _
  | workerTake worker =>
      obtain ⟨idle, _⟩ := situation_of_enabled allowed
      rw [← Except.ok.inj steps]
      exact Nat.le_of_eq (workerTake_toGo idle)
  | workerFinish worker response datetime entries =>
      obtain ⟨task, busy⟩ := situation_of_enabled allowed
      rw [← Except.ok.inj steps]
      exact Nat.le_of_eq (workerFinish_toGo busy)
  | beginIteration | checkTimeLimit | popPerformed | deliver | hangUp | accept | receive
  | chooseQueue | addTask | send => cases theirs

theorem measures_toGo (config : Config) :
    Measures (server config) UnderWay Action.isLoop State.toGo where
  lowers _ _ _ underWay allowed steps ours := loop_lowers underWay allowed steps ours
  keeps _ _ _ _ allowed steps theirs := others_keep allowed steps theirs

/-- On the way there is always a next step of the loop. -/
theorem loop_enabled (underWay : UnderWay state) :
    ∃ action, action.isLoop = true ∧ enabled config state action = true := by
  cases place : state.phase with
  | events => exact absurd place underWay
  | scan index => exact ⟨.checkTimeLimit ⟨[], true⟩, rfl, by rw [enabled, place]⟩
  | drain => exact ⟨.popPerformed, rfl, by rw [enabled, place]⟩
  | delivering task => exact ⟨.deliver ⟨[], true⟩, rfl, by rw [enabled, place]⟩
  | dispatched task => exact ⟨.chooseQueue ⟨[], true⟩, rfl, by rw [enabled, place]⟩
  | admitted task => exact ⟨.addTask, rfl, by rw [enabled, place]⟩

/-- The loop is between the scan and the next `epoll_wait`, or has just come there and
found nothing more to deliver. -/
def Turning (state : State) : Prop :=
  match state.phase with
  | .scan _ | .drain | .delivering _ => True
  | .events => state.performedTasksQueue = []
  | .dispatched _ | .admitted _ => False

theorem turning_preserved (underWay : UnderWay state) (turning : Turning state)
    (allowed : enabled config state action = true)
    (steps : step config state action = .ok after) : Turning after := by
  have elsewhere : ∀ task, state.phase ≠ .dispatched task ∧ state.phase ≠ .admitted task := by
    intro task
    constructor <;> (intro place; rw [Turning, place] at turning; exact turning)
  have unmoved : after.phase = state.phase → Turning after := by
    intro place
    unfold Turning at turning ⊢
    rw [place]
    split at turning
    next => trivial
    next => trivial
    next => trivial
    next events => exact absurd events underWay
    next => exact turning.elim
    next => exact turning.elim
  cases action with
  | tick duration =>
      rw [← Except.ok.inj steps] at unmoved ⊢
      exact unmoved rfl
  | beginIteration => exact absurd (situation_of_enabled allowed) underWay
  | hangUp fd => exact absurd (situation_of_enabled allowed).1 underWay
  | accept result => exact absurd (situation_of_enabled allowed).1 underWay
  | receive fd result modified allocated answers =>
      exact absurd (situation_of_enabled allowed).1 underWay
  | send fd result modified => exact absurd (situation_of_enabled allowed).1 underWay
  | chooseQueue answers =>
      obtain ⟨task, dispatched⟩ := situation_of_enabled allowed
      exact absurd dispatched (elsewhere task).1
  | addTask =>
      obtain ⟨task, admitted⟩ := situation_of_enabled allowed
      exact absurd admitted (elsewhere task).2
  | checkTimeLimit answers =>
      obtain ⟨index, scanning⟩ := situation_of_enabled allowed
      simp only [step, scanning] at steps
      rcases scanStep_tasksKept steps with ⟨_, kept⟩ | ⟨_, custody, _⟩
      · rw [Turning, kept.place]
        trivial
      · have place : after.phase = .drain := congrArg Prod.fst custody
        rw [Turning, place]
        trivial
  | popPerformed =>
      rw [← Except.ok.inj steps, State.popPerformed]
      cases queue : state.performedTasksQueue with
      | nil => rfl
      | cons task rest => trivial
  | deliver answers =>
      obtain ⟨task, delivering⟩ := situation_of_enabled allowed
      simp only [step, delivering] at steps
      rw [Turning, (deliver_tasksKept steps).place]
      trivial
  | workerTake worker =>
      apply unmoved
      rw [← Except.ok.inj steps, State.workerTake]
      split
      next => rfl
      next =>
        dsimp only
        split <;> rfl
  | workerFinish worker response datetime entries =>
      apply unmoved
      rw [← Except.ok.inj steps, State.workerFinish]
      split <;> rfl

theorem turning_of_stretch {begun : State} {count : Nat} (turning : Turning begun)
    (stretch : Stretch (server config) UnderWay Action.isLoop begun count after) :
    Turning after := by
  induction stretch with
  | refl => exact turning
  | next _ underWay allowed steps inductionHypothesis =>
      exact turning_preserved underWay inductionHypothesis allowed steps

end Steps

/-- **The event loop comes back to `epoll_wait`.** Whatever the workers do and whatever
the system calls answer, a turn of the loop that begins with `backlog` tasks in the server
takes at most `102 + 2 * backlog` steps. Until it is over a step of the loop is enabled,
which may still fail, and when it is over no performed task is left waiting. -/
theorem loop_returns_to_epoll_wait (config : Config) (state begun after : State)
    (begins : step config state .beginIteration = .ok begun) (count : Nat)
    (stretch : Stretch (server config) UnderWay Action.isLoop begun count after) :
    count ≤ 102 + 2 * state.backlog ∧
      (after.phase = .events ∧ after.performedTasksQueue = [] ∨
        ∃ action, action.isLoop = true ∧ enabled config after action = true) := by
  have bounded := stretch.bounded (measures_toGo config)
  have start : begun.toGo = 102 + 2 * state.backlog := by
    rw [← Except.ok.inj begins]
    simp only [State.toGo, State.backlog]
    omega
  have turning : Turning after := by
    refine turning_of_stretch ?_ stretch
    rw [← Except.ok.inj begins]
    trivial
  refine ⟨by omega, ?_⟩
  by_cases returned : after.phase = .events
  · rw [Turning, returned] at turning
    exact .inl ⟨returned, turning⟩
  · exact .inr (loop_enabled returned)

/-- A turn in which a worker takes a task and finishes it. -/
def busyTurn : List Action :=
  [.workerTake 1, .checkTimeLimit ⟨[], true⟩, .checkTimeLimit ⟨[], true⟩,
    .checkTimeLimit ⟨[], true⟩, .workerFinish 1 (.make 200 [] [] []) [] [], .popPerformed,
    .deliver ⟨[], true⟩, .popPerformed]

/-- It is over after six steps of the loop. -/
theorem busy_turn_comes_back :
    ∃ state after : State, Stretch (server smallConfig) UnderWay Action.isLoop
        { state with
          now := state.clock
          clock := state.clock + 1
          phase := .scan state.counterCheckLimitTimeRequest } 6 after ∧
      6 ≤ 102 + 2 * state.backlog := by
  obtain ⟨state, _, passes⟩ := (server smallConfig).exists_of_replay smallState_initial
    (fun state => (((server smallConfig).pace UnderWay Action.isLoop
      { state with
        now := state.clock
        clock := state.clock + 1
        phase := .scan state.counterCheckLimitTimeRequest } 0 busyTurn).map Prod.snd) == some 6)
    (show ((server smallConfig).replay Unconditional smallState (requestQueued 0)).any _ = true by
      decide +kernel)
  obtain ⟨⟨after, count⟩, paced, same⟩ := Option.map_eq_some_iff.mp (beq_iff_eq.mp passes)
  cases same
  have stretch := System.stretch_of_pace .refl paced
  exact ⟨state, after, stretch, (loop_returns_to_epoll_wait smallConfig state _ after rfl 6
    stretch).1⟩

end Onyxup.Server
