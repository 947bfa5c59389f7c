import Mathlib.Data.List.Perm.Subperm
import Onyxup.Server.Protocol

/-!
Contract: what one step of the server can do.

Owns: the tasks in flight and their tags, the two conditions on answers that the
loop gives by itself, and `step_effect`, which says once for all actions how a
step moves one slot and the tasks.

Does not own: invariants over runs. They are derived from `step_effect`, without
another look at `step`.
-/

set_option autoImplicit false

namespace Onyxup.Server

open Onyxup.Lib.CString
open Onyxup.Lib.Memory
open Onyxup.Http
open Onyxup.Response

/-! ## Tasks in flight -/

/-- What identifies the cycle a task was dispatched from. -/
structure Tag where
  fd : Nat
  timePoint : Nat
  cycle : Nat
deriving DecidableEq

def Task.tag (task : Task) : Tag :=
  ⟨task.fd, task.timePoint, task.cycle⟩

/-- The task the loop holds. -/
def Phase.held : Phase → List Task
  | .delivering task => [task]
  | .dispatched task => [task]
  | .admitted task => [task]
  | _ => []

/-- The task the loop has dispatched and not yet queued, and the one it is about
to deliver. -/
def Phase.hands : Phase → List Task × List Task
  | .delivering task => ([], [task])
  | .dispatched task => ([task], [])
  | .admitted task => ([task], [])
  | _ => ([], [])

namespace State

/-- Every task that exists. -/
def inFlight (state : State) : List Task :=
  state.phase.held ++ (state.tasksQueue ++ (state.staticTasksQueue ++
    (state.workers.filterMap id ++ state.performedTasksQueue)))

def tags (state : State) : List Tag :=
  state.inFlight.map Task.tag

def deliveredTags (state : State) : List Tag :=
  state.delivered.map Task.tag

/-- Where tasks are kept, apart from the loop's own hands, and the tasks that
have been delivered. -/
def records (state : State) :
    List Task × List Task × List Task × List (Option Task) × List Task :=
  (state.tasksQueue, state.staticTasksQueue, state.performedTasksQueue, state.workers,
    state.delivered)

end State

/-! ## The answers the loop gives by itself -/

/-- The slot that an action of the loop answers with 408. -/
def timeOutAnswered (config : Config) (state : State) : Action → Option Slot
  | .checkTimeLimit _ =>
      match state.phase with
      | .scan index =>
          match (state.slots index).request with
          | some request =>
              if index < config.maxConnection ∧
                  index < state.counterCheckLimitTimeRequest + 100 ∧
                  state.expired config index = true ∧ request.fullUri ≠ [] then
                some (state.slots index)
              else none
          | none => none
      | _ => none
  | _ => none

/-- The slot that an action of the loop answers with 413 while it reads. -/
def inputRefused (config : Config) (state : State) : Action → Option Slot
  | .receive fd (.data bytes) _ _ _ =>
      match (state.slots fd).buffer with
      | some buffer =>
          if config.maxInputBufferLength ≤ buffer.posInputBuffer + bytes.length then
            some (state.slots fd)
          else none
      | none => none
  | .receive fd .wouldBlock _ _ _ =>
      match (state.slots fd).buffer with
      | some buffer =>
          if config.maxInputBufferLength ≤ toSizeT ((buffer.posInputBuffer : Int) - 1) then
            some (state.slots fd)
          else none
      | none => none
  | _ => none

/-- The steps that answer only slots with `mayExpire` and `mayRefuse`. -/
def Permits (config : Config) (mayExpire mayRefuse : Slot → Bool) (state : State)
    (action : Action) : Prop :=
  (timeOutAnswered config state action).all mayExpire = true ∧
    (inputRefused config state action).all mayRefuse = true

instance (config : Config) (mayExpire mayRefuse : Slot → Bool) (state : State)
    (action : Action) : Decidable (Permits config mayExpire mayRefuse state action) :=
  inferInstanceAs (Decidable (_ ∧ _))

theorem Permits.of_all (config : Config) (state : State) (action : Action) :
    Permits config (fun _ => true) (fun _ => true) state action :=
  ⟨by cases timeOutAnswered config state action <;> rfl,
    by cases inputRefused config state action <;> rfl⟩

/-! ## Effects -/

/-- What a step can do to the queues. -/
inductive QueueMove (config : Config) (state after : State) : Prop where
  | popped {task : Task} {rest : List Task} (was : state.performedTasksQueue = task :: rest)
      (phase : after.phase = .delivering task)
      (records : after.records =
        (state.tasksQueue, state.staticTasksQueue, rest, state.workers, state.delivered))
  | pushedLocal {task : Task} (kind : task.type = .localTask)
      (was : state.phase = .admitted task) (phase : after.phase = .events)
      (records : after.records = (state.tasksQueue ++ [task], state.staticTasksQueue,
        state.performedTasksQueue, state.workers, state.delivered))
  | pushedStatic {task : Task} (kind : task.type = .staticResourcesTask)
      (was : state.phase = .admitted task) (phase : after.phase = .events)
      (records : after.records = (state.tasksQueue, state.staticTasksQueue ++ [task],
        state.performedTasksQueue, state.workers, state.delivered))
  | takenLocal {task : Task} {rest : List Task} {index : Nat} (worker : index ≠ 0)
      (idle : state.workers[index]? = some none) (was : state.tasksQueue = task :: rest)
      (phase : after.phase = state.phase)
      (records : after.records = (rest, state.staticTasksQueue, state.performedTasksQueue,
        state.workers.set index (some task), state.delivered))
  | takenStatic {task : Task} {rest : List Task}
      (idle : state.workers[0]? = some none) (was : state.staticTasksQueue = task :: rest)
      (phase : after.phase = state.phase)
      (records : after.records = (state.tasksQueue, rest, state.performedTasksQueue,
        state.workers.set 0 (some task), state.delivered))
  | finished {task : Task} {index : Nat} {response : ResponseBase} {datetime : Bytes}
      {entries : List (Bytes × Bytes)} (busy : state.workers[index]? = some (some task))
      (phase : after.phase = state.phase)
      (records : after.records = (state.tasksQueue, state.staticTasksQueue,
        state.performedTasksQueue ++ [State.performTask config response datetime entries task],
        state.workers.set index none, state.delivered))

/-- What a step can do to the slots, the tasks and the clock. -/
inductive Effect (config : Config) (mayExpire mayRefuse : Slot → Bool) (state after : State) :
    Prop where
  | quiet (slots : after.slots = state.slots) (clock : state.clock ≤ after.clock)
      (tags : after.tags.Subperm state.tags) (records : after.records = state.records)
      (hands : after.phase.hands = ([], []) ∨ after.phase.hands = state.phase.hands)
  | queued (slots : after.slots = state.slots) (clock : after.clock = state.clock)
      (tags : after.tags.Subperm state.tags) (queues : QueueMove config state after)
  | moved {fd : Nat} {slot : Slot}
      (move : Move config fd mayExpire mayRefuse state.clock state.cyclesStarted
        (state.slots fd) slot)
      (slots : after.slots = Function.update state.slots fd slot)
      (clock : state.clock ≤ after.clock ∧
        (slot.aliveSocket = (state.slots fd).aliveSocket ∨ state.clock < after.clock))
      (tags : after.tags.Subperm state.tags) (records : after.records = state.records)
      (hands : after.phase.hands = ([], []))
  | dispatched {fd : Nat} {slot : Slot} {seen : Content} {task : Task}
      (read : ReadChunk config (state.slots fd) (.dispatch seen) slot)
      (slots : after.slots = Function.update state.slots fd { slot with interest := some .idle })
      (clock : after.clock = state.clock)
      (tag : task.tag = ⟨fd, slot.aliveSocket, slot.cycle.number⟩)
      (tags : after.tags.Subperm (task.tag :: state.tags))
      (records : after.records = state.records)
      (hands : after.phase.hands = ([task], []))
  | notFound {fd : Nat} {slot answered : Slot} {seen : Content}
      (read : ReadChunk config (state.slots fd) (.dispatch seen) slot)
      (page : Answered config { slot with interest := some .idle } slot.request answered)
      (slots : after.slots = Function.update state.slots fd answered)
      (clock : after.clock = state.clock)
      (tags : after.tags.Subperm state.tags) (records : after.records = state.records)
      (hands : after.phase.hands = ([], []))
  | turnedDown {task : Task} {answered : Slot}
      (held : state.phase.hands = ([task], []))
      (page : Answered config (state.slots task.fd) (state.slots task.fd).request answered)
      (slots : after.slots = Function.update state.slots task.fd answered)
      (clock : after.clock = state.clock)
      (tags : (task.tag :: after.tags).Subperm state.tags)
      (records : after.records = state.records)
      (hands : after.phase.hands = ([], []))
  | delivered {task : Task} {answered : Slot}
      (held : state.phase.hands = ([], [task]))
      (current : task.timePoint = (state.slots task.fd).aliveSocket)
      (outcome : Answered config (state.slots task.fd) (state.slots task.fd).request answered ∨
        answered = ⟨none, none, state.clock, none, ⟨state.cyclesStarted, [], 0⟩⟩)
      (slots : after.slots = Function.update state.slots task.fd answered)
      (clock : state.clock ≤ after.clock ∧
        (answered.aliveSocket = (state.slots task.fd).aliveSocket ∨ state.clock < after.clock))
      (tags : (task.tag :: after.tags).Subperm state.tags)
      (records : after.records = (state.tasksQueue, state.staticTasksQueue,
        state.performedTasksQueue, state.workers, task :: state.delivered))
      (hands : after.phase.hands = ([], []))

/-! ## The parts of a step -/

section Parts

variable {config : Config} {state after : State}

/-- The request of an answered slot is exchanged. -/
theorem Answered.exchange {slot answered : Slot} {request : Option Request}
    (page : Answered config slot request answered) (other : Option Request) :
    Answered config slot other { answered with request := other } := by
  obtain ⟨has, dataNonempty, pageNonempty, writes⟩ := page
  exact .intro has dataNonempty pageNonempty writes

/-- A descriptor that is closed is closed, whatever was done to its slot before. -/
theorem setSlot_close (state : State) (fd : Nat) (slot : Slot) :
    (state.setSlot fd slot).closeAllSocketsAndClearData fd =
      state.closeAllSocketsAndClearData fd := by
  simp only [State.setSlot, State.closeAllSocketsAndClearData, Function.update_idem]

/-- `writeToOutputBuffer` answers the descriptor or closes it. -/
theorem writeToOutputBuffer_cases {answers : Answers} {fd : Nat} {data : Bytes}
    {stillOpen : Bool} (dataNonempty : data ≠ [])
    (writes : state.writeToOutputBuffer config answers fd data = .ok (stillOpen, after)) :
    (stillOpen = true ∧ ∃ answered,
        Answered config (state.slots fd) (state.slots fd).request answered ∧
        after = state.setSlot fd answered) ∨
      (stillOpen = false ∧ after = state.closeAllSocketsAndClearData fd) := by
  unfold State.writeToOutputBuffer at writes
  split at writes
  next => cases writes
  next buffer has =>
    split at writes
    next => cases writes
    next written fits =>
      dsimp only at writes
      split at writes
      next =>
        cases writes
        exact .inl ⟨rfl, _, .intro has dataNonempty (page_ne_nil _ _ _ _ _) fits, rfl⟩
      next =>
        cases writes
        exact .inr ⟨rfl, setSlot_close _ _ _⟩

/-- One index of the scan: nothing, a silent close, or 408. -/
theorem checkTimeLimit_cases {answers : Answers} {index : Nat}
    (owner : ∀ request, (state.slots index).request = some request → request.fd = index)
    (checked : state.checkTimeLimit config answers index = .ok after) :
    after = state ∨ after = state.closeAllSocketsAndClearData index ∨
      ∃ request answered, (state.slots index).request = some request ∧
        state.expired config index = true ∧ request.fullUri ≠ [] ∧
        Answered config (state.slots index) (some { request with closingConnect := true })
          answered ∧
        after = { state with
          slots := Function.update state.slots index { answered with aliveSocket := state.clock }
          clock := state.clock + 1 } := by
  unfold State.checkTimeLimit at checked
  split at checked
  next =>
    cases checked
    exact .inl rfl
  next request asked =>
    obtain rfl := owner request asked
    split at checked
    next late =>
      split at checked
      next =>
        cases checked
        exact .inr (.inl rfl)
      next named =>
        split at checked
        next => cases checked
        next stillOpen written writes =>
          rcases writeToOutputBuffer_cases (page_ne_nil _ _ _ _ _) writes with
            ⟨_, answered, page, rfl⟩ | ⟨_, rfl⟩
          · have kept : answered.request = some request := page.frame.2.2.1.trans asked
            simp only [State.setSlot, Function.update_self, kept, Function.update_idem]
              at checked
            cases checked
            exact .inr (.inr ⟨request, _, asked, late, named, page.exchange _, rfl⟩)
          · simp only [State.closeAllSocketsAndClearData, Function.update_self] at checked
            cases checked
    next =>
      cases checked
      exact .inl rfl

/-- The 413 answer to input. -/
theorem refuseInput_cases {answers : Answers} {fd : Nat}
    (refused : state.refuseInput config answers fd = .ok after) :
    ∃ request answered, (state.slots fd).request = some request ∧
      Answered config (state.slots fd)
        (some { request with closingConnect := true, headerAccept := true }) answered ∧
      after = state.setSlot fd answered := by
  unfold State.refuseInput at refused
  split at refused
  next => cases refused
  next stillOpen written writes =>
    rcases writeToOutputBuffer_cases (page_ne_nil _ _ _ _ _) writes with
      ⟨_, answered, page, rfl⟩ | ⟨_, rfl⟩
    · have kept : answered.request = (state.slots fd).request := page.frame.2.2.1
      simp only [State.setSlot, Function.update_self, Function.update_idem, kept] at refused
      split at refused
      next => cases refused
      next request asked =>
        cases refused
        exact ⟨request, _, asked, page.exchange _, rfl⟩
    · simp only [State.closeAllSocketsAndClearData, Function.update_self] at refused
      cases refused

variable {mayExpire mayRefuse : Slot → Bool}

/-- Closing a descriptor between two steps. -/
theorem close_effect (fd : Nat) {processed : State}
    (hands : processed.phase.hands = ([], []))
    (tags : processed.tags.Subperm state.tags)
    (records : processed.records = state.records)
    (slots : processed.slots = (state.closeAllSocketsAndClearData fd).slots)
    (clock : processed.clock = state.clock + 1) :
    Effect config mayExpire mayRefuse state processed := by
  refine .moved .closed slots ⟨?_, .inr ?_⟩ tags records hands
  · rw [clock]
    exact Nat.le_succ _
  · rw [clock]
    exact Nat.lt_succ_self _

theorem hands_of_events (events : state.phase = .events) :
    state.phase.hands = ([], []) := by
  rw [events]
  rfl

/-- The read step from the change of the epoll interest on. -/
theorem dispatch_effect {modified allocated : Bool} {answers : Answers} {fd : Nat}
    {slot : Slot} {request : Request} {seen : Content} (events : state.phase = .events)
    (read : ReadChunk config (state.slots fd) (.dispatch seen) slot)
    (dispatches : (state.setSlot fd slot).dispatch config modified allocated answers fd request =
      .ok after) :
    Effect config mayExpire mayRefuse state after := by
  unfold State.dispatch at dispatches
  split at dispatches
  next =>
    simp only [State.setSlot, Function.update_self, Function.update_idem] at dispatches
    split at dispatches
    next route found =>
      cases dispatches
      refine .dispatched read rfl rfl rfl ?_ rfl rfl
      simp only [State.tags, State.inFlight, events, Phase.held, List.nil_append,
        List.singleton_append, List.map_cons]
      exact .refl _
    next =>
      split at dispatches
      next => cases dispatches
      next written writes =>
        cases dispatches
        rcases writeToOutputBuffer_cases (page_ne_nil _ _ _ _ _) writes with
          ⟨_, answered, page, rfl⟩ | ⟨impossible, _⟩
        · simp only [Function.update_self] at page
          refine .notFound read page ?_ rfl ?_ rfl (hands_of_events events)
          · simp only [State.setSlot, State.addTotalNumberClientRequests, Function.update_idem]
          · exact .refl _
        · cases impossible
      next => cases dispatches
  next =>
    cases dispatches
    refine close_effect fd (hands_of_events events) (.refl _) rfl ?_ rfl
    rw [setSlot_close]

/-- The read step on data: one of the decisions, with its consequences. -/
theorem receiveData_effect {modified allocated : Bool}
    {answers : Answers} {fd : Nat} {bytes : Bytes} (events : state.phase = .events)
    (reading : (state.slots fd).interest = some .read) (nonempty : bytes ≠ [])
    (permits : ∀ buffer, (state.slots fd).buffer = some buffer →
      config.maxInputBufferLength ≤ buffer.posInputBuffer + bytes.length →
      mayRefuse (state.slots fd) = true)
    (received : state.receiveData config modified allocated answers fd bytes = .ok after) :
    Effect config mayExpire mayRefuse state after := by
  unfold State.receiveData at received
  dsimp only at received
  split at received
  next buffer request has asked =>
    split at received
    next => cases received
    next decision connection read =>
      have chunk := ReadChunk.intro reading nonempty has asked read
      cases decision with
      | wait =>
          cases received
          exact .moved (.waited chunk) rfl ⟨Nat.le_refl _, .inl rfl⟩ (.refl _) rfl
            (hands_of_events events)
      | close =>
          cases received
          refine close_effect fd (hands_of_events events) (.refl _) rfl ?_ rfl
          rw [setSlot_close]
      | tooLarge =>
          rcases Connection.receive_cases read with ⟨_, rfl, exceeds⟩ | ⟨_, _, _, digested⟩
          · obtain ⟨same, answered, hasRequest, page, rfl⟩ := refuseInput_cases received
            simp only [State.setSlot, Function.update_self] at hasRequest page
            cases hasRequest
            rw [← has, ← asked] at page
            refine .moved (.refused reading (permits buffer has exceeds) asked page) ?_
              ⟨Nat.le_refl _, .inl page.frame.2.1⟩ (.refl _) rfl (hands_of_events events)
            simp only [State.setSlot, Function.update_idem]
          · exact absurd rfl (Connection.digest_ne_tooLarge digested)
      | dispatch seen => exact dispatch_effect events chunk received
  next => cases received

/-- The whole `EPOLLIN` branch. -/
theorem receive_effect {result : RecvResult} {modified allocated : Bool} {answers : Answers}
    {fd : Nat}
    (allowed : enabled config state (.receive fd result modified allocated answers) = true)
    (permits : Permits config mayExpire mayRefuse state
      (.receive fd result modified allocated answers))
    (received : state.receive config result modified allocated answers fd = .ok after) :
    Effect config mayExpire mayRefuse state after := by
  obtain ⟨events, reading, sized⟩ := situation_of_enabled allowed
  cases result with
  | data bytes =>
      refine receiveData_effect events reading (sized bytes rfl) ?_ received
      intro buffer has exceeds
      have refused := permits.2
      simpa only [inputRefused, has, if_pos exceeds, Option.all_some] using refused
  | endOfStream =>
      cases received
      exact close_effect fd (hands_of_events events) (.refl _) rfl rfl rfl
  | fatal =>
      cases received
      exact close_effect fd (hands_of_events events) (.refl _) rfl rfl rfl
  | wouldBlock =>
      unfold State.receive at received
      dsimp only at received
      split at received
      next => cases received
      next buffer has =>
        split at received
        next exceeds =>
          obtain ⟨request, answered, asked, page, rfl⟩ := refuseInput_cases received
          have refused := permits.2
          simp only [inputRefused, has, if_pos exceeds, Option.all_some] at refused
          exact .moved (.refused reading refused asked page) rfl
            ⟨Nat.le_refl _, .inl page.frame.2.1⟩ (.refl _) rfl (hands_of_events events)
        next => cases received

/-- The `EPOLLOUT` branch: nothing, a part of the response, or all of it with
what follows. -/
theorem send_effect {fd : Nat} {result : Option Nat} {modified : Bool}
    (allowed : enabled config state (.send fd result modified) = true)
    (sends : state.send result modified fd = .ok after) :
    Effect config mayExpire mayRefuse state after := by
  obtain ⟨events, writing⟩ := situation_of_enabled allowed
  have free := hands_of_events events
  unfold State.send at sends
  dsimp only at sends
  split at sends
  next buffer request has asked =>
    split at sends
    next =>
      split at sends
      next =>
        cases sends
        exact close_effect fd free (.refl _) rfl rfl rfl
      next count =>
        split at sends
        next finished =>
          unfold State.finishResponse at sends
          split at sends
          next =>
            cases sends
            refine close_effect fd free (.refl _) rfl ?_ rfl
            rw [setSlot_close]
          next staysOpen =>
            split at sends
            next =>
              split at sends
              next =>
                cases sends
                refine .moved (.reset count writing has asked (by simpa using staysOpen)) ?_
                  ⟨Nat.le_succ _, .inr (Nat.lt_succ_self _)⟩ (.refl _) rfl free
                simp only [State.setSlot, Function.update_idem]
              next =>
                cases sends
                refine close_effect fd free (.refl _) rfl ?_ rfl
                rw [setSlot_close, setSlot_close]
            next =>
              cases sends
              refine close_effect fd free (.refl _) rfl ?_ rfl
              rw [setSlot_close]
        next unfinished =>
          cases sends
          exact .moved (.sent writing has unfinished) rfl ⟨Nat.le_refl _, .inl rfl⟩ (.refl _)
            rfl free
    next =>
      cases sends
      exact .quiet rfl (Nat.le_refl _) (.refl _) rfl (.inl free)
  next => cases sends

/-- The accept branch: a new connection, or none. -/
theorem accept_effect {result : AcceptResult}
    (allowed : enabled config state (.accept result) = true) :
    Effect config mayExpire mayRefuse state (state.accept config result) := by
  obtain ⟨events, connected⟩ := situation_of_enabled allowed
  have hands := hands_of_events events
  unfold State.accept
  split
  next => exact .quiet rfl (Nat.le_refl _) (.refl _) rfl (.inl hands)
  next open_ =>
    simp only [not_or] at open_
    have free := (connected (Int.not_lt.mp open_.2.1)).1
    have time : state.clock ≤ state.clock + 1 ∧ ∀ before : Nat,
        (state.clock = before ∨ state.clock < state.clock + 1) :=
      ⟨Nat.le_succ _, fun _ => .inr (Nat.lt_succ_self _)⟩
    dsimp only
    split
    next => exact .moved (.turnedAway free (.inl rfl)) rfl ⟨time.1, time.2 _⟩ (.refl _) rfl hands
    next buffer made =>
      split
      next => exact .moved (.opened free made) rfl ⟨time.1, time.2 _⟩ (.refl _) rfl hands
      next =>
        exact .moved (.turnedAway free (.inr rfl)) rfl ⟨time.1, time.2 _⟩ (.refl _) rfl hands

/-- One turn of the scan. -/
theorem scan_effect {answers : Answers} {index : Nat} (scanning : state.phase = .scan index)
    (owner : ∀ request, (state.slots index).request = some request → request.fd = index)
    (permits : Permits config mayExpire mayRefuse state (.checkTimeLimit answers))
    (scans : state.scanStep config answers index = .ok after) :
    Effect config mayExpire mayRefuse state after := by
  have sameTags : ∀ phase : Phase, phase.held = [] →
      (State.tags { state with phase := phase }).Subperm state.tags := by
    intro phase nothing
    simp only [State.tags, State.inFlight, nothing, scanning]
    exact .refl _
  unfold State.scanStep at scans
  split at scans
  next inside =>
    split at scans
    next => cases scans
    next checked checks =>
      cases scans
      rcases checkTimeLimit_cases owner checks with rfl | rfl |
        ⟨request, answered, asked, late, named, page, rfl⟩
      · exact .quiet rfl (Nat.le_refl _) (sameTags (.scan (index + 1)) rfl) rfl (.inl rfl)
      · exact close_effect index rfl (sameTags (.scan (index + 1)) rfl) rfl rfl rfl
      · have answers408 : timeOutAnswered config state (.checkTimeLimit answers) =
            some (state.slots index) := by
          simp only [timeOutAnswered, scanning, asked]
          exact if_pos ⟨inside.1, inside.2, late, named⟩
        have permitted := permits.1
        rw [answers408, Option.all_some] at permitted
        exact .moved (.expired permitted asked named page) rfl
          ⟨Nat.le_succ _, .inr (Nat.lt_succ_self _)⟩ (sameTags (.scan (index + 1)) rfl) rfl rfl
  next =>
    cases scans
    exact .quiet rfl (Nat.le_refl _) (sameTags .drain rfl) rfl (.inl rfl)

/-- The end of a task: its response is written, or it is too late for it. -/
theorem deliver_effect {answers : Answers} {task : Task}
    (delivering : state.phase = .delivering task) (nonempty : task.responseData ≠ [])
    (delivers : state.deliver config answers task = .ok after) :
    Effect config mayExpire mayRefuse state after := by
  have removed : state.tags = task.tag :: State.tags { state with phase := .drain } := by
    simp only [State.tags, State.inFlight, delivering, Phase.held, List.singleton_append,
      List.map_cons, List.nil_append]
  have hands : state.phase.hands = ([], [task]) := by
    rw [delivering]
    rfl
  unfold State.deliver at delivers
  split at delivers
  next current =>
    split at delivers
    next => cases delivers
    next stillOpen written writes =>
      cases delivers
      rcases writeToOutputBuffer_cases nonempty writes with ⟨_, answered, page, rfl⟩ | ⟨_, rfl⟩
      · exact .delivered hands current (.inl page) rfl ⟨Nat.le_refl _, .inl page.frame.2.1⟩
          (removed ▸ .refl _) rfl rfl
      · exact .delivered hands current (.inr rfl) rfl ⟨Nat.le_succ _, .inr (Nat.lt_succ_self _)⟩
          (removed ▸ .refl _) rfl rfl
  next =>
    cases delivers
    refine .quiet rfl (Nat.le_refl _) ?_ rfl (.inl rfl)
    rw [removed]
    exact (List.sublist_cons_self _ _).subperm

/-- The choice of the queue. -/
theorem chooseQueue_effect {answers : Answers} {task : Task}
    (dispatched : state.phase = .dispatched task)
    (admits : state.chooseQueue config answers task = .ok after) :
    Effect config mayExpire mayRefuse state after := by
  have removed : state.tags = task.tag :: State.tags { state with phase := .events } := by
    simp only [State.tags, State.inFlight, dispatched, Phase.held, List.singleton_append,
      List.map_cons, List.nil_append]
  have kept : State.tags { state with phase := .admitted task } = state.tags := by
    simp only [State.tags, State.inFlight, dispatched, Phase.held]
  have hands : state.phase.hands = ([task], []) := by
    rw [dispatched]
    rfl
  unfold State.chooseQueue at admits
  split at admits
  next =>
    split at admits
    next =>
      split at admits
      next => cases admits
      next written writes =>
        cases admits
        rcases writeToOutputBuffer_cases (page_ne_nil _ _ _ _ _) writes with
          ⟨_, answered, page, rfl⟩ | ⟨impossible, _⟩
        · exact .turnedDown hands page rfl rfl (removed ▸ .refl _) rfl rfl
        · cases impossible
      next => cases admits
    next =>
      cases admits
      exact .quiet rfl (Nat.le_refl _) (kept ▸ .refl _) rfl (.inr hands.symm)
  next =>
    cases admits
    exact .quiet rfl (Nat.le_refl _) (kept ▸ .refl _) rfl (.inr hands.symm)
  next =>
    cases admits
    refine close_effect task.fd rfl ?_ rfl rfl rfl
    rw [removed]
    exact (List.sublist_cons_self _ _).subperm

/-- The tags of all tasks, counted place by place. -/
theorem count_tags (state : State) (tag : Tag) :
    state.tags.count tag = (state.phase.held.map Task.tag).count tag +
      ((state.tasksQueue.map Task.tag).count tag +
        ((state.staticTasksQueue.map Task.tag).count tag +
          (((state.workers.filterMap id).map Task.tag).count tag +
            (state.performedTasksQueue.map Task.tag).count tag))) := by
  simp only [State.tags, State.inFlight, List.map_append, List.count_append]

private theorem subperm_of_count {left right : List Tag}
    (same : ∀ tag, left.count tag = right.count tag) : left.Subperm right :=
  (List.perm_iff_count.mpr same).subperm

/-- The push of a task that is not of the third kind, and the loss of one that
is. -/
theorem addTask_effect {task : Task} (admitted : state.phase = .admitted task) :
    Effect config mayExpire mayRefuse state (state.addTask task) := by
  unfold State.addTask
  dsimp only
  split
  · refine .queued rfl rfl (subperm_of_count fun tag => ?_) (.pushedLocal ‹_› admitted rfl rfl)
    simp only [count_tags, admitted, Phase.held, List.map_append, List.count_append,
      State.addTotalNumberClientRequests, List.map_nil, List.count_nil, List.map_cons]
    omega
  · refine .queued rfl rfl (subperm_of_count fun tag => ?_) (.pushedStatic ‹_› admitted rfl rfl)
    simp only [count_tags, admitted, Phase.held, List.map_append, List.count_append,
      State.addTotalNumberClientRequests, List.map_nil, List.count_nil, List.map_cons]
    omega
  · refine .quiet rfl (Nat.le_refl _) ?_ rfl (.inl rfl)
    simp only [State.tags, State.inFlight, admitted, Phase.held, List.singleton_append,
      List.map_cons]
    exact (List.sublist_cons_self _ _).subperm

theorem popPerformed_effect (draining : state.phase = .drain) :
    Effect config mayExpire mayRefuse state state.popPerformed := by
  unfold State.popPerformed
  split
  next empty =>
    refine .quiet rfl (Nat.le_refl _) (subperm_of_count fun tag => ?_) rfl (.inl rfl)
    simp only [count_tags, draining, Phase.held]
  next task rest queue =>
    refine .queued rfl rfl (subperm_of_count fun tag => ?_) (.popped queue rfl rfl)
    simp only [count_tags, draining, Phase.held, queue, List.map_cons, List.map_nil,
      List.count_cons, List.count_nil]
    omega

/-! ## Workers -/

private def workerTags (workers : List (Option Task)) : List Tag :=
  (workers.filterMap id).map Task.tag

private theorem workerTags_cons (head : Option Task) (tail : List (Option Task)) :
    workerTags (head :: tail) = (head.map Task.tag).toList ++ workerTags tail := by
  cases head <;> simp [workerTags]

private theorem count_workerTags_take (task : Task) (tag : Tag) :
    ∀ {workers : List (Option Task)} {index : Nat}, workers[index]? = some none →
      (workerTags (workers.set index (some task))).count tag =
        [task.tag].count tag + (workerTags workers).count tag := by
  intro workers
  induction workers with
  | nil =>
      intro index idle
      cases idle
  | cons head tail inductionHypothesis =>
      intro index idle
      cases index with
      | zero =>
          cases idle
          simp only [List.set_cons_zero, workerTags_cons, Option.map_some, Option.map_none,
            Option.toList_some, Option.toList_none, List.count_append, List.nil_append]
      | succ index =>
          have later := inductionHypothesis idle
          simp only [List.set_cons_succ, workerTags_cons, List.count_append, later]
          omega

private theorem count_workerTags_finish (task : Task) (tag : Tag) :
    ∀ {workers : List (Option Task)} {index : Nat}, workers[index]? = some (some task) →
      (workerTags workers).count tag =
        [task.tag].count tag + (workerTags (workers.set index none)).count tag := by
  intro workers
  induction workers with
  | nil =>
      intro index busy
      cases busy
  | cons head tail inductionHypothesis =>
      intro index busy
      cases index with
      | zero =>
          cases busy
          simp only [List.set_cons_zero, workerTags_cons, Option.map_some, Option.map_none,
            Option.toList_some, Option.toList_none, List.count_append, List.nil_append]
      | succ index =>
          have later := inductionHypothesis busy
          simp only [List.set_cons_succ, workerTags_cons, List.count_append, later]
          omega

theorem workerTake_effect {index : Nat}
    (allowed : enabled config state (.workerTake index) = true) :
    Effect config mayExpire mayRefuse state (state.workerTake index) := by
  obtain ⟨idle, _⟩ := situation_of_enabled allowed
  unfold State.workerTake
  split
  next => exact .quiet rfl (Nat.le_refl _) (.refl _) rfl (.inr rfl)
  next task rest queue =>
    have taken := fun tag => count_workerTags_take task tag idle
    simp only [workerTags] at taken
    unfold State.workerQueue at queue
    dsimp only
    by_cases isStatic : index = 0
    · rw [if_pos isStatic] at queue ⊢
      cases isStatic
      refine .queued rfl rfl (subperm_of_count fun tag => ?_)
        (.takenStatic idle queue rfl rfl)
      simp only [count_tags, taken, queue, List.map_cons, List.count_cons, List.count_nil]
      omega
    · rw [if_neg isStatic] at queue ⊢
      refine .queued rfl rfl (subperm_of_count fun tag => ?_)
        (.takenLocal isStatic idle queue rfl rfl)
      simp only [count_tags, taken, queue, List.map_cons, List.count_cons, List.count_nil]
      omega

private theorem performTask_tag (config : Config) (response : ResponseBase) (datetime : Bytes)
    (entries : List (Bytes × Bytes)) (task : Task) :
    (State.performTask config response datetime entries task).tag = task.tag := by
  unfold State.performTask
  split <;> rfl

theorem workerFinish_effect {index : Nat} {response : ResponseBase} {datetime : Bytes}
    {entries : List (Bytes × Bytes)} :
    Effect config mayExpire mayRefuse state
      (state.workerFinish config index response datetime entries) := by
  unfold State.workerFinish
  split
  next task busy =>
    have finished := fun tag => count_workerTags_finish task tag busy
    simp only [workerTags] at finished
    refine .queued rfl rfl (subperm_of_count fun tag => ?_) (.finished busy rfl rfl)
    simp only [count_tags, finished, List.map_append, List.map_cons, List.map_nil,
      List.count_append, performTask_tag]
    omega
  next => exact .quiet rfl (Nat.le_refl _) (.refl _) rfl (.inr rfl)

end Parts

/-! ## All actions -/

/-- Every request belongs to the slot it is stored in. -/
def Owned (state : State) : Prop :=
  ∀ fd request, (state.slots fd).request = some request → request.fd = fd

/-- Every task that is about to be delivered has a response. -/
def Stocked (state : State) : Prop :=
  ∀ task, state.phase = .delivering task → task.responseData ≠ []

/-- What a step can do, for every action. -/
theorem step_effect {config : Config} {mayExpire mayRefuse : Slot → Bool}
    {state after : State} {action : Action} (owned : Owned state) (stocked : Stocked state)
    (allowed : enabled config state action = true)
    (permits : Permits config mayExpire mayRefuse state action)
    (steps : step config state action = .ok after) :
    Effect config mayExpire mayRefuse state after := by
  cases action with
  | tick duration =>
      cases steps
      exact .quiet rfl (Nat.le_add_right _ _) (.refl _) rfl (.inr rfl)
  | beginIteration =>
      cases steps
      have events : state.phase = .events := situation_of_enabled allowed
      refine .quiet rfl (Nat.le_succ _) ?_ rfl (.inl rfl)
      simp only [State.tags, State.inFlight, events, Phase.held]
      exact .refl _
  | checkTimeLimit answers =>
      simp only [step] at steps
      obtain ⟨index, scanning⟩ := situation_of_enabled allowed
      rw [scanning] at steps
      exact scan_effect scanning (owned index) permits steps
  | popPerformed =>
      cases steps
      have draining : state.phase = .drain := situation_of_enabled allowed
      exact popPerformed_effect draining
  | deliver answers =>
      simp only [step] at steps
      obtain ⟨task, delivering⟩ := situation_of_enabled allowed
      rw [delivering] at steps
      exact deliver_effect delivering (stocked task delivering) steps
  | hangUp fd =>
      cases steps
      obtain ⟨events, _⟩ := situation_of_enabled allowed
      exact close_effect fd (hands_of_events events) (.refl _) rfl rfl rfl
  | accept result =>
      cases steps
      exact accept_effect allowed
  | receive fd result modified allocated answers => exact receive_effect allowed permits steps
  | chooseQueue answers =>
      simp only [step] at steps
      obtain ⟨task, dispatched⟩ := situation_of_enabled allowed
      rw [dispatched] at steps
      exact chooseQueue_effect dispatched steps
  | addTask =>
      simp only [step] at steps
      obtain ⟨task, admitted⟩ := situation_of_enabled allowed
      rw [admitted] at steps
      cases steps
      exact addTask_effect admitted
  | send fd result modified => exact send_effect allowed steps
  | workerTake index =>
      cases steps
      exact workerTake_effect allowed
  | workerFinish index response datetime entries =>
      cases steps
      exact workerFinish_effect

end Onyxup.Server
