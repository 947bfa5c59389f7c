import Mathlib.Logic.Function.Basic
import Onyxup.Server.Connection

/-!
Contract: `HttpServer::run` and `tasksHandler` as one transition system.

Owns: the state of the server (descriptor tables, the three queues, the
workers, the loop's position), the actions that move it, and `step`, which does
what the code does with each of them, faults included.

Does not own: the kernel, the network, the clients and the handlers. What they
answer is part of an action; `enabled` says which answers they can give. The
order in which `epoll_wait` reports events is left open. Errors on the listening
socket, and tables of more connections than an `int` can count, are left out.

A `steady_clock` reading returns `clock` and advances it, so readings strictly
increase. `cycle`, `delivered`, `cyclesStarted` and `serial` are history: they
are written and never read by a step.
-/

set_option autoImplicit false

namespace Onyxup.Server

open Onyxup.Lib.CString
open Onyxup.Lib.Memory
open Onyxup.Lib.Transition
open Onyxup.Http
open Onyxup.Response

/-- `class Route`. The compiled regular expression is the set of strings it
matches; the handler is known by its number. -/
structure Route where
  method : Bytes
  pregex : Bytes → Bool
  handler : Nat
  taskType : EnumTaskType

/-- What does not change while `run` runs. -/
structure Config where
  maxConnection : Nat
  maxInputBufferLength : Nat
  maxOutputBufferLength : Nat
  timeLimitRequestSeconds : Int
  limitLocalTasks : Int
  numberThreads : Nat
  routes : List Route
  isStatisticsEnable : Bool
  listenFd : Nat
  identity : Identity
  body404 : Bytes

/-- What a descriptor is registered for with `epoll`, besides errors and
hang-ups. -/
inductive Interest where
  | read
  | write
  | idle
deriving DecidableEq, Repr

/-- The history of one request cycle: its number, the bytes received in it and
the responses placed in the output buffer. -/
structure Cycle where
  number : Nat
  received : Bytes
  responses : Nat
deriving DecidableEq

/-- One index of `buffers`, `requests` and `aliveSockets`, and what the kernel
knows about the descriptor. -/
structure Slot where
  buffer : Option Buffer
  request : Option Request
  aliveSocket : Nat
  interest : Option Interest
  cycle : Cycle

/-- `class Task`. -/
structure Task where
  serial : Nat
  fd : Nat
  request : Request
  handler : Nat
  type : EnumTaskType
  responseData : Bytes
  timePoint : Nat
  cycle : Nat

/-- Where the loop stands, and the task it holds there. -/
inductive Phase where
  | scan (index : Nat)
  | drain
  | delivering (task : Task)
  | events
  | dispatched (task : Task)
  | admitted (task : Task)

structure State where
  slots : Nat → Slot
  clock : Nat
  now : Nat
  counterCheckLimitTimeRequest : Nat
  phase : Phase
  tasksQueue : List Task
  staticTasksQueue : List Task
  performedTasksQueue : List Task
  workers : List (Option Task)
  totalNumberConnectionsAccepted : Nat
  totalNumberConnectionsProcessed : Nat
  totalNumberClientRequests : Nat
  tasksCreated : Nat
  cyclesStarted : Nat
  delivered : List Task

/-- What the environment answers while a page is written: the time of day and
whether `epoll_ctl` succeeds. -/
structure Answers where
  datetime : Bytes
  modified : Bool

/-- What `recv` returns. -/
inductive RecvResult where
  | data (bytes : Bytes)
  | endOfStream
  | fatal
  | wouldBlock

/-- What the calls of the accept branch return. -/
structure AcceptResult where
  connSock : Int
  nonBlocking : Bool
  registered : Bool
  inputMemory : Bytes
  outputMemory : Bytes
  bufferGranted : Bool
  requestGranted : Bool

inductive Action where
  | tick (duration : Nat)
  | beginIteration
  | checkTimeLimit (answers : Answers)
  | popPerformed
  | deliver (answers : Answers)
  | hangUp (fd : Nat)
  | accept (result : AcceptResult)
  | receive (fd : Nat) (result : RecvResult) (modified allocated : Bool) (answers : Answers)
  | chooseQueue (answers : Answers)
  | addTask
  | send (fd : Nat) (result : Option Nat) (modified : Bool)
  | workerTake (id : Nat)
  | workerFinish (id : Nat) (response : ResponseBase) (datetime : Bytes)
      (entries : List (Bytes × Bytes))

namespace State

def setSlot (state : State) (fd : Nat) (slot : Slot) : State :=
  { state with slots := Function.update state.slots fd slot }

/-- `closeAllSocketsAndClearData`. -/
def closeAllSocketsAndClearData (state : State) (fd : Nat) : State :=
  { state with
    slots := Function.update state.slots fd
      ⟨none, none, state.clock, none, ⟨state.cyclesStarted, [], 0⟩⟩
    clock := state.clock + 1
    cyclesStarted := state.cyclesStarted + 1
    totalNumberConnectionsProcessed := state.totalNumberConnectionsProcessed + 1 }

def addTotalNumberClientRequests (state : State) : State :=
  { state with totalNumberClientRequests := state.totalNumberClientRequests + 1 }

def addTotalNumberConnectionsAccepted (config : Config) (state : State) : State :=
  { state with
    totalNumberConnectionsAccepted :=
      if config.isStatisticsEnable then state.totalNumberConnectionsAccepted + 1
      else state.totalNumberConnectionsAccepted }

/-- `writeToOutputBuffer`. The result is whether the descriptor is still open;
the code that is logged is not kept. -/
def writeToOutputBuffer (config : Config) (answers : Answers) (fd : Nat) (data : Bytes)
    (state : State) : Except Fault (Bool × State) :=
  match (state.slots fd).buffer with
  | none => .error .nullPointer
  | some buffer =>
      match buffer.writeOutput config.maxOutputBufferLength
          (page413 config.identity answers.datetime) data with
      | .error fault => .error fault
      | .ok written =>
          let slot := state.slots fd
          let queued := { slot with
            buffer := some written
            cycle := { slot.cycle with responses := slot.cycle.responses + 1 } }
          if answers.modified then
            .ok (true, state.setSlot fd { queued with interest := some .write })
          else .ok (false, (state.setSlot fd queued).closeAllSocketsAndClearData fd)

/-- `now - aliveSockets[i]` in whole seconds is above the limit; the clock
counts nanoseconds. -/
def expired (config : Config) (state : State) (index : Nat) : Bool :=
  config.timeLimitRequestSeconds <
    ((state.now : Int) - (state.slots index).aliveSocket).tdiv 1000000000

/-- The body of the time-out scan for one index. -/
def checkTimeLimit (config : Config) (answers : Answers) (index : Nat) (state : State) :
    Except Fault State :=
  match (state.slots index).request with
  | none => .ok state
  | some request =>
      if state.expired config index then
        if request.fullUri = [] then .ok (state.closeAllSocketsAndClearData request.fd)
        else
          match state.writeToOutputBuffer config answers request.fd
              (page408 config.identity answers.datetime) with
          | .error fault => .error fault
          | .ok (_, written) =>
              match (written.slots index).request with
              | none => .error .nullPointer
              | some pending =>
                  let closing := written.setSlot index { written.slots index with
                    request := some { pending with closingConnect := true } }
                  .ok { closing.setSlot pending.fd { closing.slots pending.fd with
                      aliveSocket := closing.clock } with
                    clock := closing.clock + 1 }
      else .ok state

/-- One turn of the `for` loop of the scan, or its end. -/
def scanStep (config : Config) (answers : Answers) (index : Nat) (state : State) :
    Except Fault State :=
  if index < config.maxConnection ∧ index < state.counterCheckLimitTimeRequest + 100 then
    match state.checkTimeLimit config answers index with
    | .error fault => .error fault
    | .ok checked => .ok { checked with phase := .scan (index + 1) }
  else .ok { state with
    counterCheckLimitTimeRequest :=
      (state.counterCheckLimitTimeRequest + 100) % config.maxConnection
    phase := .drain }

/-- The `while` test on `performedTasksQueue` with its `try_pop`. -/
def popPerformed (state : State) : State :=
  match state.performedTasksQueue with
  | [] => { state with phase := .events }
  | task :: rest => { state with performedTasksQueue := rest, phase := .delivering task }

/-- The rest of the `while` body: the response of a task whose time point is
still that of its descriptor is written; the task is deleted. -/
def deliver (config : Config) (answers : Answers) (task : Task) (state : State) :
    Except Fault State :=
  if task.timePoint = (state.slots task.fd).aliveSocket then
    match state.writeToOutputBuffer config answers task.fd task.responseData with
    | .error fault => .error fault
    | .ok (_, written) =>
        .ok { written with phase := .drain, delivered := task :: written.delivered }
  else .ok { state with phase := .drain }

/-- The accept branch. -/
def accept (config : Config) (result : AcceptResult) (state : State) : State :=
  if (config.maxConnection : Int) - 1 < result.connSock ∨ result.connSock < 0 ∨
      result.nonBlocking = false ∨ result.registered = false then state
  else
    let fd := result.connSock.toNat
    let state := state.addTotalNumberConnectionsAccepted config
    let slot := { state.slots fd with aliveSocket := state.clock }
    let state := { state with clock := state.clock + 1 }
    match bufferFactory config.maxInputBufferLength config.maxOutputBufferLength
        result.inputMemory result.outputMemory result.bufferGranted with
    | none => state.setSlot fd { slot with buffer := none }
    | some buffer =>
        if result.requestGranted then
          { state.setSlot fd { slot with
              buffer := some buffer
              request := some (requestFactory fd config.maxOutputBufferLength)
              interest := some .read
              cycle := ⟨state.cyclesStarted, [], 0⟩ } with
            cyclesStarted := state.cyclesStarted + 1 }
        else state.setSlot fd { slot with buffer := none, request := none }

/-- `dispatcher`: the first route for the method and the full URI, if the copy
of the request and the task could be allocated. -/
def dispatcher (config : Config) (allocated : Bool) (request : Request) : Option Route :=
  if allocated then
    config.routes.find? fun route =>
      route.method == request.method && route.pregex (cString request.fullUri)
  else none

/-- The 413 answer to input that does not fit. -/
def refuseInput (config : Config) (answers : Answers) (fd : Nat) (state : State) :
    Except Fault State :=
  match state.writeToOutputBuffer config answers fd
      (page413 config.identity answers.datetime) with
  | .error fault => .error fault
  | .ok (_, written) =>
      match (written.slots fd).request with
      | none => .error .nullPointer
      | some request =>
          .ok (written.setSlot fd { written.slots fd with
            request := some { request with closingConnect := true, headerAccept := true } })

/-- The read step from the change of the epoll interest on. After a failed
write the request that is logged has been deleted. -/
def dispatch (config : Config) (modified allocated : Bool) (answers : Answers) (fd : Nat)
    (request : Request) (state : State) : Except Fault State :=
  if modified then
    let slot := state.slots fd
    let state := state.setSlot fd { slot with interest := some .idle }
    match dispatcher config allocated request with
    | some route =>
        .ok { state with
          phase := .dispatched {
            serial := state.tasksCreated
            fd := fd
            request := request
            handler := route.handler
            type := route.taskType
            responseData := []
            timePoint := slot.aliveSocket
            cycle := slot.cycle.number }
          tasksCreated := state.tasksCreated + 1 }
    | none =>
        match state.writeToOutputBuffer config answers fd
            (page404 config.identity config.body404 answers.datetime) with
        | .error fault => .error fault
        | .ok (true, written) => .ok written.addTotalNumberClientRequests
        | .ok (false, _) => .error .useAfterFree
  else .ok (state.closeAllSocketsAndClearData fd)

/-- The read step on data. -/
def receiveData (config : Config) (modified allocated : Bool) (answers : Answers) (fd : Nat)
    (bytes : Bytes) (state : State) : Except Fault State :=
  let slot := state.slots fd
  match slot.buffer, slot.request with
  | some buffer, some request =>
      match Connection.receive config.maxInputBufferLength ⟨buffer, request⟩ bytes with
      | .error fault => .error fault
      | .ok (decision, after) =>
          let state := state.setSlot fd { slot with
            buffer := some after.buffer
            request := some after.request
            cycle := { slot.cycle with received := slot.cycle.received ++ bytes } }
          match decision with
          | .wait => .ok state
          | .close => .ok (state.closeAllSocketsAndClearData fd)
          | .tooLarge => state.refuseInput config answers fd
          | .dispatch _ => state.dispatch config modified allocated answers fd after.request
  | _, _ => .error .nullPointer

/-- The `EPOLLIN` branch. After `EWOULDBLOCK` the branch goes on with
`res = -1`, which is a huge `size_t` in the size test and in the copy. -/
def receive (config : Config) (result : RecvResult) (modified allocated : Bool)
    (answers : Answers) (fd : Nat) (state : State) : Except Fault State :=
  match result with
  | .data bytes => state.receiveData config modified allocated answers fd bytes
  | .endOfStream => .ok (state.closeAllSocketsAndClearData fd)
  | .fatal => .ok (state.closeAllSocketsAndClearData fd)
  | .wouldBlock =>
      match (state.slots fd).buffer with
      | none => .error .nullPointer
      | some buffer =>
          if config.maxInputBufferLength ≤ toSizeT ((buffer.posInputBuffer : Int) - 1) then
            state.refuseInput config answers fd
          else .error .bufferOverflow

/-- The choice of the queue: 503 when the local queue is over its limit. -/
def chooseQueue (config : Config) (answers : Answers) (task : Task) (state : State) :
    Except Fault State :=
  match task.type with
  | .localTask =>
      if toSizeT config.limitLocalTasks < state.tasksQueue.length then
        match state.writeToOutputBuffer config answers task.fd
            (page503 config.identity answers.datetime) with
        | .error fault => .error fault
        | .ok (true, written) =>
            .ok { written.addTotalNumberClientRequests with phase := .events }
        | .ok (false, _) => .error .useAfterFree
      else .ok { state with phase := .admitted task }
  | .staticResourcesTask => .ok { state with phase := .admitted task }
  | .jsonRpcTask =>
      .ok { (state.closeAllSocketsAndClearData task.fd).addTotalNumberClientRequests with
        phase := .events }

/-- `addTask`. -/
def addTask (task : Task) (state : State) : State :=
  let state := { state.addTotalNumberClientRequests with phase := .events }
  match task.type with
  | .localTask => { state with tasksQueue := state.tasksQueue ++ [task] }
  | .staticResourcesTask => { state with staticTasksQueue := state.staticTasksQueue ++ [task] }
  | .jsonRpcTask => state

/-- The guard of the send branch. -/
def sendGuard (buffer : Buffer) (request : Request) : Bool :=
  decide (0 < buffer.numberBytesToSend) && request.headerAccept &&
    !(request.bodyExists && !request.bodyAccept)

/-- What follows a response that has been sent completely. -/
def finishResponse (modified : Bool) (fd : Nat) (buffer : Buffer) (request : Request)
    (state : State) : State :=
  if request.closingConnect then state.closeAllSocketsAndClearData fd
  else if request.headers.lookup (ascii "connection") = some (ascii "Keep-Alive") then
    let slot := { state.slots fd with
      buffer := some buffer.clear
      request := some request.clear }
    if modified then
      { state.setSlot fd { slot with
          aliveSocket := state.clock
          interest := some .read
          cycle := ⟨state.cyclesStarted, [], 0⟩ } with
        clock := state.clock + 1
        cyclesStarted := state.cyclesStarted + 1 }
    else (state.setSlot fd slot).closeAllSocketsAndClearData fd
  else state.closeAllSocketsAndClearData fd

/-- The `EPOLLOUT` branch. -/
def send (result : Option Nat) (modified : Bool) (fd : Nat) (state : State) :
    Except Fault State :=
  let slot := state.slots fd
  match slot.buffer, slot.request with
  | some buffer, some request =>
      if sendGuard buffer request then
        match result with
        | none => .ok (state.closeAllSocketsAndClearData fd)
        | some count =>
            let rest := buffer.sent count
            let state := state.setSlot fd { slot with buffer := some rest }
            if rest.numberBytesToSend = 0 then
              .ok (state.finishResponse modified fd rest request)
            else .ok state
      else .ok state
  | _, _ => .error .nullPointer

/-- The queue that worker `id` waits on. -/
def workerQueue (state : State) (id : Nat) : List Task :=
  if id = 0 then state.staticTasksQueue else state.tasksQueue

/-- `wait_and_pop` of worker `id`. -/
def workerTake (id : Nat) (state : State) : State :=
  match state.workerQueue id with
  | [] => state
  | task :: rest =>
      let state := { state with workers := state.workers.set id (some task) }
      if id = 0 then { state with staticTasksQueue := rest }
      else { state with tasksQueue := rest }

/-- What `tasksHandler` does to the task when the handler and the chain have left
`response`. Only tasks of the first two kinds are run. -/
def performTask (config : Config) (response : ResponseBase) (datetime : Bytes)
    (entries : List (Bytes × Bytes)) (task : Task) : Task :=
  match task.type with
  | .jsonRpcTask => task
  | _ => { task with responseData := response.prepareResponse config.identity datetime entries }

/-- The rest of the worker's turn. -/
def workerFinish (config : Config) (id : Nat) (response : ResponseBase) (datetime : Bytes)
    (entries : List (Bytes × Bytes)) (state : State) : State :=
  match state.workers[id]? with
  | some (some task) =>
      { state with
        workers := state.workers.set id none
        performedTasksQueue := state.performedTasksQueue ++
          [performTask config response datetime entries task] }
  | _ => state

end State

/-- Which actions can happen: the loop is at the place where it takes them, and
the environment answers within the interfaces of the system calls. -/
def enabled (config : Config) (state : State) : Action → Bool
  | .tick _ => true
  | .beginIteration => match state.phase with | .events => true | _ => false
  | .checkTimeLimit _ => match state.phase with | .scan _ => true | _ => false
  | .popPerformed => match state.phase with | .drain => true | _ => false
  | .deliver _ => match state.phase with | .delivering _ => true | _ => false
  | .hangUp fd =>
      match state.phase with | .events => (state.slots fd).interest.isSome | _ => false
  | .accept result =>
      match state.phase with
      | .events => decide (result.connSock < 0) ||
          ((state.slots result.connSock.toNat).interest.isNone &&
            result.connSock.toNat != config.listenFd)
      | _ => false
  | .receive fd result _ _ _ =>
      match state.phase with
      | .events => (state.slots fd).interest == some .read &&
          match result with
          | .data bytes => bytes != [] && decide (bytes.length ≤ 4096)
          | _ => true
      | _ => false
  | .chooseQueue _ => match state.phase with | .dispatched _ => true | _ => false
  | .addTask => match state.phase with | .admitted _ => true | _ => false
  | .send fd result _ =>
      match state.phase with
      | .events => (state.slots fd).interest == some .write &&
          match result, (state.slots fd).buffer with
          | some count, some buffer =>
              decide (0 < count) && decide (count ≤ buffer.numberBytesToSend)
          | _, _ => true
      | _ => false
  | .workerTake id =>
      match state.workers[id]? with
      | some none => !(state.workerQueue id).isEmpty
      | _ => false
  | .workerFinish id response _ entries =>
      match state.workers[id]? with
      | some (some _) => response.lists entries
      | _ => false

/-- What the server does. -/
def step (config : Config) (state : State) : Action → Except Fault State
  | .tick duration => .ok { state with clock := state.clock + duration }
  | .beginIteration => .ok { state with
      now := state.clock
      clock := state.clock + 1
      phase := .scan state.counterCheckLimitTimeRequest }
  | .checkTimeLimit answers =>
      match state.phase with
      | .scan index => state.scanStep config answers index
      | _ => .ok state
  | .popPerformed => .ok state.popPerformed
  | .deliver answers =>
      match state.phase with
      | .delivering task => state.deliver config answers task
      | _ => .ok state
  | .hangUp fd => .ok (state.closeAllSocketsAndClearData fd)
  | .accept result => .ok (state.accept config result)
  | .receive fd result modified allocated answers =>
      state.receive config result modified allocated answers fd
  | .chooseQueue answers =>
      match state.phase with
      | .dispatched task => state.chooseQueue config answers task
      | _ => .ok state
  | .addTask =>
      match state.phase with
      | .admitted task => .ok (state.addTask task)
      | _ => .ok state
  | .send fd result modified => state.send result modified fd
  | .workerTake id => .ok (state.workerTake id)
  | .workerFinish id response datetime entries =>
      .ok (state.workerFinish config id response datetime entries)

/-- The server after its constructor: nothing open, nothing queued, every
`aliveSockets` entry some earlier reading of the clock. -/
structure Initial (config : Config) (state : State) : Prop where
  free : ∀ fd, (state.slots fd).buffer = none ∧ (state.slots fd).request = none ∧
    (state.slots fd).interest = none
  read : ∀ fd, (state.slots fd).aliveSocket < state.clock
  phase : state.phase = .events
  counter : state.counterCheckLimitTimeRequest = 0
  queues : state.tasksQueue = [] ∧ state.staticTasksQueue = [] ∧ state.performedTasksQueue = []
  workers : state.workers = List.replicate config.numberThreads none
  totals : state.totalNumberConnectionsAccepted = 0 ∧
    state.totalNumberConnectionsProcessed = 0 ∧ state.totalNumberClientRequests = 0
  history : state.tasksCreated = 0 ∧ state.cyclesStarted = 0 ∧ state.delivered = []
  cycles : ∀ fd, (state.slots fd).cycle.responses = 0

/-- The server as a transition system. -/
def server (config : Config) : System State Action Fault where
  initial := Initial config
  enabled := enabled config
  step := step config

/-! ## What an enabled action finds -/

/-- What holds of the state when the environment causes an action. -/
def Situation (config : Config) (state : State) : Action → Prop
  | .tick _ => True
  | .beginIteration => state.phase = .events
  | .checkTimeLimit _ => ∃ index, state.phase = .scan index
  | .popPerformed => state.phase = .drain
  | .deliver _ => ∃ task, state.phase = .delivering task
  | .hangUp fd => state.phase = .events ∧ ∃ interest, (state.slots fd).interest = some interest
  | .accept result => state.phase = .events ∧
      (0 ≤ result.connSock → (state.slots result.connSock.toNat).interest = none ∧
        result.connSock.toNat ≠ config.listenFd)
  | .receive fd result _ _ _ => state.phase = .events ∧
      (state.slots fd).interest = some .read ∧ ∀ bytes, result = .data bytes → bytes ≠ []
  | .chooseQueue _ => ∃ task, state.phase = .dispatched task
  | .addTask => ∃ task, state.phase = .admitted task
  | .send fd _ _ => state.phase = .events ∧ (state.slots fd).interest = some .write
  | .workerTake id => state.workers[id]? = some none ∧ state.workerQueue id ≠ []
  | .workerFinish id _ _ _ => ∃ task, state.workers[id]? = some (some task)

theorem situation_of_enabled {config : Config} {state : State} {action : Action}
    (allowed : enabled config state action = true) : Situation config state action := by
  cases action with
  | tick duration => trivial
  | hangUp fd =>
      simp only [enabled] at allowed
      split at allowed
      next events => exact ⟨events, Option.isSome_iff_exists.mp allowed⟩
      next => cases allowed
  | accept result =>
      simp only [enabled] at allowed
      split at allowed
      next events =>
        refine ⟨events, fun connected => ?_⟩
        simpa [Int.not_lt.mpr connected] using allowed
      next => cases allowed
  | receive fd result modified allocated answers =>
      simp only [enabled] at allowed
      split at allowed
      next events =>
        simp only [Bool.and_eq_true, beq_iff_eq] at allowed
        refine ⟨events, allowed.1, ?_⟩
        rintro bytes rfl
        have sized := allowed.2
        simp only [Bool.and_eq_true, bne_iff_ne] at sized
        exact sized.1
      next => cases allowed
  | send fd result modified =>
      simp only [enabled] at allowed
      split at allowed
      next events =>
        simp only [Bool.and_eq_true, beq_iff_eq] at allowed
        exact ⟨events, allowed.1⟩
      next => cases allowed
  | workerTake id =>
      simp only [enabled] at allowed
      split at allowed
      next idle => exact ⟨idle, by simpa using allowed⟩
      next => cases allowed
  | workerFinish id response datetime entries =>
      simp only [enabled] at allowed
      split at allowed
      next task busy => exact ⟨task, busy⟩
      next => cases allowed
  | beginIteration | checkTimeLimit | popPerformed | deliver | chooseQueue | addTask =>
      -- the other actions belong to one phase each
      simp only [enabled] at allowed
      split at allowed
      next found => first | exact found | exact ⟨_, found⟩
      next => cases allowed

end Onyxup.Server
