import Onyxup.Lib.Simulation
import Onyxup.Server.Accounting
import Onyxup.Server.Isolation
import Onyxup.Server.Pipelining
import Onyxup.Server.QueueLimit

/-!
Contract: the numbers on the statistics page.

Owns: `StatisticsService` with its three loops over the tables and its unsigned
subtraction, what the numbers count in every state of a run, and the balance between
them and the counters.

Does not own: the HTML around the numbers.

A worker computes the page between two steps of the event loop. A loop that sees the
tables at different moments is not covered: the subtraction can wrap around then.
-/

set_option autoImplicit false

namespace Onyxup.Server

open Onyxup.Lib.CString
open Onyxup.Lib.Transition
open Onyxup.Http
open Onyxup.Response

/-! ## The service -/

/-- The common body of the three loops: an `unsigned long long` that is raised for every
slot below `length` that passes. -/
def countSlots (passes : Slot → Bool) (slots : Nat → Slot) (length : Nat) : UInt64 :=
  (List.range length).foldl (fun count index =>
    if passes (slots index) then count + 1 else count) 0

/-- The test of `computeCurrentNumberReadRequests`. -/
def Slot.reads (slot : Slot) : Bool :=
  match slot.request, slot.buffer with
  | some request, some buffer => !request.headerAccept && decide (0 < buffer.posInputBuffer)
  | _, _ => false

/-- The test of `computeCurrentNumberWriteRequests`. -/
def Slot.writes (slot : Slot) : Bool :=
  match slot.request, slot.buffer with
  | some request, some buffer => request.headerAccept && decide (0 < buffer.posOutputBuffer)
  | _, _ => false

def computeCurrentNumberReadRequests (slots : Nat → Slot) (length : Nat) : UInt64 :=
  countSlots Slot.reads slots length

def computeCurrentNumberWriteRequests (slots : Nat → Slot) (length : Nat) : UInt64 :=
  countSlots Slot.writes slots length

/-- The requests that are there, less the two numbers computed before. -/
def computeCurrentNumberWaitRequests (slots : Nat → Slot) (length : Nat)
    (currentNumberReadRequests currentNumberWriteRequests : UInt64) : UInt64 :=
  countSlots (fun slot => slot.request.isSome) slots length - currentNumberReadRequests -
    currentNumberWriteRequests

/-- The numbers that `callback` prints. -/
structure StatisticsPage where
  totalNumberConnectionsAccepted : Nat
  totalNumberConnectionsProcessed : Nat
  totalNumberClientRequests : Nat
  currentNumberReadRequests : UInt64
  currentNumberWriteRequests : UInt64
  currentNumberWaitRequests : UInt64

/-- `StatisticsService::callback`. -/
def State.statisticsPage (config : Config) (state : State) : StatisticsPage :=
  let reading := computeCurrentNumberReadRequests state.slots config.maxConnection
  let writing := computeCurrentNumberWriteRequests state.slots config.maxConnection
  { totalNumberConnectionsAccepted := state.totalNumberConnectionsAccepted
    totalNumberConnectionsProcessed := state.totalNumberConnectionsProcessed
    totalNumberClientRequests := state.totalNumberClientRequests
    currentNumberReadRequests := reading
    currentNumberWriteRequests := writing
    currentNumberWaitRequests :=
      computeCurrentNumberWaitRequests state.slots config.maxConnection reading writing }

/-! ## The loops -/

/-- What `dispatcher` is called with in this step. -/
def requestEvent (config : Config) (state : State) : Action → Option Content
  | .receive fd result modified allocated answers =>
      dispatchedBy config fd state (.receive fd result modified allocated answers)
  | _ => none

section Requests

variable {config : Config} {state after : State} {answers : Answers} {fd : Nat}

theorem writeToOutputBuffer_requests {data : Bytes} {stillOpen : Bool}
    (writes : state.writeToOutputBuffer config answers fd data = .ok (stillOpen, after)) :
    after.totalNumberClientRequests = state.totalNumberClientRequests := by
  unfold State.writeToOutputBuffer at writes
  split at writes
  next => cases writes
  next =>
    split at writes
    next => cases writes
    next =>
      dsimp only at writes
      split at writes <;> cases writes <;> rfl

theorem checkTimeLimit_requests {index : Nat}
    (checks : state.checkTimeLimit config answers index = .ok after) :
    after.totalNumberClientRequests = state.totalNumberClientRequests := by
  unfold State.checkTimeLimit at checks
  split at checks
  next =>
    cases checks
    rfl
  next =>
    split at checks
    next =>
      split at checks
      next =>
        cases checks
        rfl
      next =>
        split at checks
        next => cases checks
        next writes =>
          split at checks
          next => cases checks
          next =>
            cases checks
            exact (writeToOutputBuffer_requests writes :)
    next =>
      cases checks
      rfl

theorem scanStep_requests {index : Nat}
    (scans : state.scanStep config answers index = .ok after) :
    after.totalNumberClientRequests = state.totalNumberClientRequests := by
  unfold State.scanStep at scans
  split at scans
  next =>
    split at scans
    next => cases scans
    next checks =>
      cases scans
      exact (checkTimeLimit_requests checks :)
  next =>
    cases scans
    rfl

theorem refuseInput_requests (refuses : state.refuseInput config answers fd = .ok after) :
    after.totalNumberClientRequests = state.totalNumberClientRequests := by
  unfold State.refuseInput at refuses
  split at refuses
  next => cases refuses
  next writes =>
    split at refuses
    next => cases refuses
    next =>
      cases refuses
      exact (writeToOutputBuffer_requests writes :)

theorem deliver_requests {task : Task}
    (delivers : state.deliver config answers task = .ok after) :
    after.totalNumberClientRequests = state.totalNumberClientRequests := by
  unfold State.deliver at delivers
  split at delivers
  next =>
    split at delivers
    next => cases delivers
    next writes =>
      cases delivers
      exact (writeToOutputBuffer_requests writes :)
  next =>
    cases delivers
    rfl

theorem accept_requests (result : AcceptResult) :
    (state.accept config result).totalNumberClientRequests = state.totalNumberClientRequests := by
  unfold State.accept
  split
  next => rfl
  next =>
    dsimp only
    split
    next => rfl
    next => split <;> rfl

theorem send_requests {result : Option Nat} {modified : Bool}
    (sends : state.send result modified fd = .ok after) :
    after.totalNumberClientRequests = state.totalNumberClientRequests := by
  unfold State.send at sends
  dsimp only at sends
  split at sends
  next =>
    split at sends
    next =>
      split at sends
      next =>
        cases sends
        rfl
      next =>
        split at sends
        next =>
          cases sends
          unfold State.finishResponse
          split
          next => rfl
          next =>
            split
            next => dsimp only; split <;> rfl
            next => rfl
        next =>
          cases sends
          rfl
    next =>
      cases sends
      rfl
  next => cases sends

/-- The requests that have been counted, and the one in the hands of the loop. -/
def State.requestsSeen (state : State) : Nat :=
  state.totalNumberClientRequests + state.phase.hands.1.length

private theorem receiveData_seen {modified allocated : Bool} {bytes : Bytes}
    (events : state.phase = .events)
    (receives : state.receiveData config modified allocated answers fd bytes = .ok after) :
    after.requestsSeen = state.requestsSeen +
      (dispatchedBy config fd state
        (.receive fd (.data bytes) modified allocated answers)).toList.length := by
  unfold State.receiveData at receives
  dsimp only at receives
  split at receives
  next buffer request has asked =>
    split at receives
    next => cases receives
    next decision connection received =>
      simp only [dispatchedBy, has, asked, received, true_and]
      split at receives
      next =>
        cases receives
        simp only [ite_self]
        rfl
      next =>
        cases receives
        simp only [ite_self]
        rfl
      next =>
        have total := refuseInput_requests receives
        have place := (refuseInput_tasksKept receives).place
        simp only [ite_self]
        rw [State.requestsSeen, total, place]
        rfl
      next =>
        unfold State.dispatch at receives
        split at receives
        next changed =>
          dsimp only at receives
          simp only [changed, if_true, Option.toList_some, List.length_singleton]
          split at receives
          next =>
            cases receives
            simp only [State.requestsSeen, events]
            rfl
          next =>
            split at receives
            next => cases receives
            next written writes =>
              have total := writeToOutputBuffer_requests writes
              have place := (writeToOutputBuffer_tasksKept writes).place
              cases receives
              change written.totalNumberClientRequests + 1 + written.phase.hands.1.length = _
              rw [total, place]
              simp only [State.requestsSeen, State.setSlot, events, hands_events]
              rfl
            next => cases receives
        next unchanged =>
          cases receives
          simp only [unchanged]
          rfl
  next => cases receives

private theorem receive_seen {result : RecvResult} {modified allocated : Bool}
    (events : state.phase = .events)
    (receives : state.receive config result modified allocated answers fd = .ok after) :
    after.requestsSeen = state.requestsSeen +
      (dispatchedBy config fd state
        (.receive fd result modified allocated answers)).toList.length := by
  unfold State.receive at receives
  split at receives
  next => exact receiveData_seen events receives
  next =>
    cases receives
    rfl
  next =>
    cases receives
    rfl
  next =>
    split at receives
    next => cases receives
    next =>
      split at receives
      next =>
        rw [State.requestsSeen, refuseInput_requests receives,
          (refuseInput_tasksKept receives).place]
        rfl
      next => cases receives

private theorem chooseQueue_seen {task : Task} (dispatched : state.phase = .dispatched task)
    (chooses : state.chooseQueue config answers task = .ok after) :
    after.requestsSeen = state.requestsSeen := by
  unfold State.chooseQueue at chooses
  split at chooses
  next =>
    split at chooses
    next =>
      split at chooses
      next => cases chooses
      next written writes =>
        have total := writeToOutputBuffer_requests writes
        cases chooses
        change written.totalNumberClientRequests + 1 + 0 = _
        rw [total, State.requestsSeen, dispatched]
        rfl
      next => cases chooses
    next =>
      cases chooses
      rw [State.requestsSeen, State.requestsSeen, dispatched]
      rfl
  next =>
    cases chooses
    rw [State.requestsSeen, State.requestsSeen, dispatched]
    rfl
  next =>
    cases chooses
    rw [State.requestsSeen, State.requestsSeen, dispatched]
    rfl

private theorem addTask_seen {task : Task} (admitted : state.phase = .admitted task) :
    (state.addTask task).requestsSeen = state.requestsSeen := by
  rw [State.requestsSeen, State.requestsSeen, admitted, State.addTask]
  split <;> rfl

private theorem step_seen {action : Action} (may : enabled config state action = true)
    (steps : step config state action = .ok after) :
    after.requestsSeen = state.requestsSeen +
      (requestEvent config state action).toList.length := by
  have situation := situation_of_enabled may
  cases action with
  | tick duration =>
      cases steps
      rfl
  | beginIteration =>
      have events : state.phase = .events := situation
      cases steps
      simp only [State.requestsSeen, events]
      rfl
  | checkTimeLimit answers =>
      obtain ⟨index, scanning⟩ := situation
      simp only [step, scanning] at steps
      rw [State.requestsSeen, State.requestsSeen, scanStep_requests steps, scanning]
      rcases scanStep_tasksKept steps with ⟨_, kept⟩ | ⟨_, custody, _⟩
      · rw [kept.place]
        rfl
      · have place : after.phase = .drain := congrArg Prod.fst custody
        rw [place]
        rfl
  | popPerformed =>
      have draining : state.phase = .drain := situation
      cases steps
      rw [State.requestsSeen, State.requestsSeen, draining, State.popPerformed]
      split <;> rfl
  | deliver answers =>
      obtain ⟨task, delivering⟩ := situation
      simp only [step, delivering] at steps
      rw [State.requestsSeen, State.requestsSeen, deliver_requests steps,
        (deliver_tasksKept steps).place, delivering]
      rfl
  | hangUp fd =>
      cases steps
      rfl
  | accept result =>
      cases steps
      rw [State.requestsSeen, State.requestsSeen, accept_requests,
        (accept_tasksKept result).place]
      rfl
  | receive fd result modified allocated answers => exact receive_seen situation.1 steps
  | chooseQueue answers =>
      obtain ⟨task, dispatched⟩ := situation
      simp only [step, dispatched] at steps
      exact chooseQueue_seen dispatched steps
  | addTask =>
      obtain ⟨task, admitted⟩ := situation
      simp only [step, admitted] at steps
      cases steps
      exact addTask_seen admitted
  | send fd result modified =>
      rw [State.requestsSeen, State.requestsSeen, send_requests steps,
        (send_tasksKept steps).place]
      rfl
  | workerTake id =>
      cases steps
      unfold State.workerTake
      split
      next => rfl
      next => dsimp only; split <;> rfl
  | workerFinish id response datetime entries =>
      cases steps
      unfold State.workerFinish
      split <;> rfl

end Requests

/-- **Requests are counted once.** In every run, the requests that were shown to the
dispatcher are those the page counts and the one whose task the loop has in hand. -/
theorem requests_counted_once (config : Config) (state : State) (requests : List Content)
    (emitted : Emits (server config) (requestEvent config) state requests) :
    requests.length = (state.statisticsPage config).totalNumberClientRequests +
      state.phase.hands.1.length := by
  change requests.length = state.requestsSeen
  induction emitted with
  | start initial =>
      rw [State.requestsSeen, initial.totals.2.2, initial.phase]
      rfl
  | next before allowed steps inductionHypothesis =>
      rw [List.length_append, inductionHypothesis, step_seen allowed steps]

/-- One request is counted; the second is in the hands of the loop. -/
theorem two_requests_counted :
    ∃ state requests, Emits (server smallConfig) (requestEvent smallConfig) state requests ∧
      (state.statisticsPage smallConfig).totalNumberClientRequests = 1 ∧ requests.length = 2 := by
  obtain ⟨state, reachable, passes⟩ := (server smallConfig).exists_of_replay
    (smallState_initial_of rfl)
    (fun state => decide (state.totalNumberClientRequests = 1 ∧ state.phase.hands.1.length = 1))
    (show ((server smallConfig).replay Unconditional smallState
      (requestQueued 0 ++ requestArrives 1)).any _ = true by decide +kernel)
  obtain ⟨one, held⟩ := of_decide_eq_true passes
  obtain ⟨requests, emitted⟩ := reachable.emits (requestEvent smallConfig)
  have counted := requests_counted_once smallConfig state requests emitted
  rw [held] at counted
  exact ⟨state, requests, emitted, one, counted.trans (congrArg (· + 1) one)⟩

end Onyxup.Server
