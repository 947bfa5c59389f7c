import Onyxup.Server.Delivery

/-!
Contract: the tables `buffers` and `requests` and the connections they belong to.

Owns: the agreement of the two tables with each other and with `epoll` between
any two steps, and the condition under which no step goes on with a connection
that it has closed itself.

Does not own: overflows of a buffer and lengths that no string can have. Those end
a run for other reasons.

`writeToOutputBuffer` closes the connection when `epoll_ctl` fails. The delivery of
a task does not look at the connection again; the four pages that the loop writes
by itself are followed by a use of its request.
-/

set_option autoImplicit false

namespace Onyxup.Server

open Onyxup.Lib.CString
open Onyxup.Lib.Memory
open Onyxup.Lib.Transition
open Onyxup.Http
open Onyxup.Response

/-! ## Statements -/

/-- A descriptor has a buffer, has a request and is registered with `epoll`, or it
has and is none of these; and a request knows its descriptor. -/
structure Consistent (fd : Nat) (slot : Slot) : Prop where
  buffer : slot.buffer.isSome ↔ slot.request.isSome
  registered : slot.request.isSome ↔ slot.interest.isSome
  owner : ∀ request, slot.request = some request → request.fd = fd

/-- The step goes through a table entry that has been reset, or through a request
that has been deleted. -/
def UsesClosed (outcome : Except Fault State) : Prop :=
  outcome = .error .nullPointer ∨ outcome = .error .useAfterFree

/-- The read step completes a request for which there is no route. -/
def notFound (config : Config) (slot : Slot) (modified allocated : Bool) :
    RecvResult → Bool
  | .data bytes =>
      match slot.buffer, slot.request with
      | some buffer, some request =>
          match Connection.receive config.maxInputBufferLength ⟨buffer, request⟩ bytes with
          | .ok (.dispatch _, after) =>
              modified && (State.dispatcher config allocated after.request).isNone
          | _ => false
      | _, _ => false
  | _ => false

/-- The answers to a page that the loop writes by itself: 408, 413, 404 or 503. -/
def ownPage (config : Config) (state : State) (action : Action) : Option Answers :=
  match action with
  | .checkTimeLimit answers =>
      if (timeOutAnswered config state action).isSome then some answers else none
  | .receive fd result modified allocated answers =>
      if (inputRefused config state action).isSome ∨
          notFound config (state.slots fd) modified allocated result = true then some answers
      else none
  | .chooseQueue answers =>
      match state.phase with
      | .dispatched task =>
          if task.type = .localTask ∧
              toSizeT config.limitLocalTasks < state.tasksQueue.length then some answers
          else none
      | _ => none
  | _ => none

/-- `epoll_ctl` succeeds for every page that the loop writes by itself. -/
def OwnPagesRegistered (config : Config) (state : State) (action : Action) : Prop :=
  (ownPage config state action).all (fun answers => answers.modified) = true

instance (config : Config) (state : State) (action : Action) :
    Decidable (OwnPagesRegistered config state action) :=
  inferInstanceAs (Decidable (_ = _))

/-! ## Outcomes -/

section Outcomes

variable {config : Config} {state : State}

private theorem not_usesClosed_ok (after : State) : ¬ UsesClosed (.ok after) := by
  rintro (impossible | impossible) <;> cases impossible

private theorem not_usesClosed_error {fault : Fault} (notNull : fault ≠ .nullPointer)
    (notFreed : fault ≠ .useAfterFree) : ¬ UsesClosed (.error fault) := by
  rintro (impossible | impossible)
  · cases impossible
    exact notNull rfl
  · cases impossible
    exact notFreed rfl

theorem Buffer.writeOutput_error {maxOutputBufferLength : Nat} {buffer : Buffer}
    {tooLarge data : Bytes} {fault : Fault}
    (fails : buffer.writeOutput maxOutputBufferLength tooLarge data = .error fault) :
    fault = .bufferOverflow := by
  unfold Buffer.writeOutput Buffer.addDataToOutputBuffer at fails
  split at fails <;> split at fails <;> cases fails <;> rfl

theorem Connection.receive_error {maxInputBufferLength : Nat} {connection : Connection}
    {data : Bytes} {fault : Fault}
    (fails : connection.receive maxInputBufferLength data = .error fault) :
    fault ≠ .nullPointer ∧ fault ≠ .useAfterFree := by
  have overflow : ∀ {buffer : Buffer}, buffer.addDataToInputBuffer data = .error fault →
      fault = .bufferOverflow := by
    intro buffer stops
    unfold Buffer.addDataToInputBuffer at stops
    split at stops <;> cases stops
    rfl
  have length : ∀ {filled : Connection} {result : Int}, filled.takeBody result = .error fault →
      fault = .lengthError := by
    intro filled result stops
    unfold Connection.takeBody Connection.setBody at stops
    split at stops
    next =>
      split at stops
      next => cases stops
      next =>
        split at stops
        next =>
          split at stops
          next => cases stops
          next negative =>
            split at negative <;> cases negative
            cases stops
            rfl
        next => split at stops <;> cases stops
    next => cases stops
  unfold Connection.receive Connection.digest at fails
  split at fails
  next => cases fails
  next =>
    split at fails
    next =>
      split at fails
      next =>
        split at fails
        next => rw [length fails]; simp
        next => cases fails
      next => cases fails
    next stops =>
      cases fails
      rw [overflow stops]
      simp

/-- A page for an open connection: an overflow, or the page and the request as it
was, or the connection is closed because `epoll_ctl` has failed. -/
theorem writeToOutputBuffer_outcome (config : Config) (answers : Answers) {fd : Nat}
    (data : Bytes) (opened : (state.slots fd).buffer.isSome) :
    state.writeToOutputBuffer config answers fd data = .error .bufferOverflow ∨
      (answers.modified = true ∧ ∃ written,
        state.writeToOutputBuffer config answers fd data = .ok (true, written) ∧
        (written.slots fd).request = (state.slots fd).request) ∨
      (answers.modified = false ∧ ∃ written,
        state.writeToOutputBuffer config answers fd data = .ok (false, written)) := by
  obtain ⟨buffer, has⟩ := Option.isSome_iff_exists.mp opened
  unfold State.writeToOutputBuffer
  rw [has]
  dsimp only
  split
  next fault fails => exact .inl (by rw [Buffer.writeOutput_error fails])
  next written fits =>
    split
    next registered =>
      refine .inr (.inl ⟨registered, _, rfl, ?_⟩)
      simp only [State.setSlot, Function.update_self]
    next failed => exact .inr (.inr ⟨by simpa using failed, _, rfl⟩)

/-- A page that `epoll_ctl` agrees to. -/
theorem writeToOutputBuffer_registered (config : Config) {answers : Answers} {fd : Nat}
    (data : Bytes) (opened : (state.slots fd).buffer.isSome)
    (registered : answers.modified = true) :
    state.writeToOutputBuffer config answers fd data = .error .bufferOverflow ∨
      ∃ written, state.writeToOutputBuffer config answers fd data = .ok (true, written) ∧
        (written.slots fd).request = (state.slots fd).request := by
  rcases writeToOutputBuffer_outcome config answers data opened with
    fails | ⟨_, kept⟩ | ⟨failed, _⟩
  · exact .inl fails
  · exact .inr kept
  · rw [registered] at failed
    cases failed

/-- The scan looks at the request again. -/
theorem checkTimeLimit_clean {answers : Answers} {index : Nat}
    (sound : Sound config index (state.slots index))
    (registered : ∀ request, (state.slots index).request = some request →
      state.expired config index = true → request.fullUri ≠ [] → answers.modified = true) :
    ¬ UsesClosed (state.checkTimeLimit config answers index) := by
  unfold State.checkTimeLimit
  split
  next => exact not_usesClosed_ok _
  next request asked =>
    obtain ⟨_, buffer, _, has, open_⟩ := sound.of_request asked
    obtain rfl := open_.owner
    split
    next late =>
      split
      next => exact not_usesClosed_ok _
      next named =>
        have modified := registered request asked late named
        rcases writeToOutputBuffer_registered config (page408 config.identity answers.datetime)
          (Option.isSome_of_eq_some has) modified with fails | ⟨written, writes, kept⟩
        · rw [fails]
          exact not_usesClosed_error (by simp) (by simp)
        · rw [writes]
          dsimp only
          rw [kept, asked]
          exact not_usesClosed_ok _
    next => exact not_usesClosed_ok _

/-- The refusal of input looks at the request again. -/
theorem refuseInput_clean {answers : Answers} {fd : Nat}
    (opened : (state.slots fd).buffer.isSome) (asked : (state.slots fd).request.isSome)
    (modified : answers.modified = true) :
    ¬ UsesClosed (state.refuseInput config answers fd) := by
  obtain ⟨request, isRequest⟩ := Option.isSome_iff_exists.mp asked
  unfold State.refuseInput
  rcases writeToOutputBuffer_registered config (page413 config.identity answers.datetime)
    opened modified with fails | ⟨written, writes, kept⟩
  · rw [fails]
    exact not_usesClosed_error (by simp) (by simp)
  · rw [writes]
    dsimp only
    rw [kept, isRequest]
    exact not_usesClosed_ok _

/-- The 404 page is followed by a line of the log. -/
theorem dispatch_clean {modified allocated : Bool} {answers : Answers} {fd : Nat}
    {request : Request} (opened : (state.slots fd).buffer.isSome)
    (registered : modified = true → (State.dispatcher config allocated request).isNone = true →
      answers.modified = true) :
    ¬ UsesClosed (state.dispatch config modified allocated answers fd request) := by
  unfold State.dispatch
  split
  next changed =>
    dsimp only
    split
    next => exact not_usesClosed_ok _
    next missing =>
      have answered := registered changed (by rw [missing]; rfl)
      have stillOpen : ((state.setSlot fd { state.slots fd with interest := some .idle }).slots
          fd).buffer.isSome := by
        simp only [State.setSlot, Function.update_self]
        exact opened
      rcases writeToOutputBuffer_registered config
        (page404 config.identity config.body404 answers.datetime) stillOpen answered with
        fails | ⟨written, writes, _⟩
      · rw [fails]
        exact not_usesClosed_error (by simp) (by simp)
      · rw [writes]
        exact not_usesClosed_ok _
  next => exact not_usesClosed_ok _

/-- The read step, whatever `recv` returns. -/
theorem receive_clean {fd : Nat} {result : RecvResult} {modified allocated : Bool}
    {answers : Answers} (sound : Sound config fd (state.slots fd))
    (reading : (state.slots fd).interest = some .read)
    (registered : OwnPagesRegistered config state
      (.receive fd result modified allocated answers)) :
    ¬ UsesClosed (state.receive config result modified allocated answers fd) := by
  obtain ⟨buffer, request, has, asked, _⟩ := sound.of_interest reading
  unfold State.receive
  split
  next bytes =>
    unfold State.receiveData
    dsimp only
    rw [has, asked]
    dsimp only
    split
    next fault fails =>
      have faults := Connection.receive_error fails
      exact not_usesClosed_error faults.1 faults.2
    next decision after received =>
      split
      next => exact not_usesClosed_ok _
      next => exact not_usesClosed_ok _
      next =>
        rcases Connection.receive_cases received with ⟨_, rfl, tooLarge⟩ | ⟨_, _, _, digested⟩
        · have answered : answers.modified = true := by
            simpa [OwnPagesRegistered, ownPage, inputRefused, has, tooLarge] using registered
          apply refuseInput_clean _ _ answered <;>
          simp [State.setSlot]
        · exact absurd rfl (Connection.digest_ne_tooLarge digested)
      next seen =>
        apply dispatch_clean
        · simp [State.setSlot]
        · intro changed missing
          have page : notFound config (state.slots fd) modified allocated (.data bytes) = true := by
            simp [notFound, has, asked, received, changed, missing]
          simpa [OwnPagesRegistered, ownPage, page] using registered
  next => exact not_usesClosed_ok _
  next => exact not_usesClosed_ok _
  next =>
    rw [has]
    dsimp only
    split
    next tooLarge =>
      have answered : answers.modified = true := by
        simpa [OwnPagesRegistered, ownPage, inputRefused, has, tooLarge] using registered
      apply refuseInput_clean _ _ answered
      · rw [has]
        rfl
      · rw [asked]
        rfl
    next => exact not_usesClosed_error (by simp) (by simp)

/-- The 503 page is followed by a line of the log. -/
theorem chooseQueue_clean {answers : Answers} {task : Task}
    (opened : (state.slots task.fd).buffer.isSome)
    (registered : task.type = .localTask →
      toSizeT config.limitLocalTasks < state.tasksQueue.length → answers.modified = true) :
    ¬ UsesClosed (state.chooseQueue config answers task) := by
  unfold State.chooseQueue
  split
  next kind =>
    split
    next full =>
      have answered := registered kind full
      rcases writeToOutputBuffer_registered config (page503 config.identity answers.datetime)
        opened answered with fails | ⟨written, writes, _⟩
      · rw [fails]
        exact not_usesClosed_error (by simp) (by simp)
      · rw [writes]
        exact not_usesClosed_ok _
    next => exact not_usesClosed_ok _
  next => exact not_usesClosed_ok _
  next => exact not_usesClosed_ok _

/-- The delivery does not look at the connection again. -/
theorem deliver_clean {answers : Answers} {task : Task}
    (opened : task.timePoint = (state.slots task.fd).aliveSocket →
      (state.slots task.fd).buffer.isSome) :
    ¬ UsesClosed (state.deliver config answers task) := by
  unfold State.deliver
  split
  next current =>
    rcases writeToOutputBuffer_outcome config answers task.responseData (opened current) with
      fails | ⟨_, written, writes, _⟩ | ⟨_, written, writes⟩
    · rw [fails]
      exact not_usesClosed_error (by simp) (by simp)
    · rw [writes]
      exact not_usesClosed_ok _
    · rw [writes]
      exact not_usesClosed_ok _
  next => exact not_usesClosed_ok _

theorem send_clean {fd : Nat} {result : Option Nat} {modified : Bool}
    (sound : Sound config fd (state.slots fd))
    (writing : (state.slots fd).interest = some .write) :
    ¬ UsesClosed (state.send result modified fd) := by
  obtain ⟨buffer, request, has, asked, _⟩ := sound.of_interest writing
  unfold State.send
  dsimp only
  rw [has, asked]
  dsimp only
  split
  next =>
    split
    next => exact not_usesClosed_ok _
    next => split <;> exact not_usesClosed_ok _
  next => exact not_usesClosed_ok _

end Outcomes

/-! ## Whole runs -/

section Runs

variable {config : Config} {state : State}

theorem Sound.consistent {fd : Nat} {slot : Slot} (sound : Sound config fd slot) :
    Consistent fd slot := by
  cases sound with
  | free noInterest noBuffer noRequest =>
      refine ⟨by simp [noBuffer, noRequest], by simp [noInterest, noRequest], ?_⟩
      intro request asked
      rw [noRequest] at asked
      cases asked
  | connected has hasBuffer hasRequest open_ =>
      refine ⟨by simp [hasBuffer, hasRequest], by simp [has, hasRequest], ?_⟩
      intro request asked
      rw [hasRequest] at asked
      cases asked
      exact open_.owner

private theorem buffer_of_interest {fd : Nat} {slot : Slot} {interest : Interest}
    (sound : Sound config fd slot) (has : slot.interest = some interest) :
    slot.buffer.isSome := by
  obtain ⟨buffer, _, hasBuffer, _⟩ := sound.of_interest has
  exact Option.isSome_of_eq_some hasBuffer

/-- One step in a state that keeps the invariant. -/
theorem step_clean {action : Action} (invariant : Invariant config state)
    (allowed : enabled config state action = true)
    (registered : OwnPagesRegistered config state action) :
    ¬ UsesClosed (step config state action) := by
  cases action with
  | tick | beginIteration | popPerformed | hangUp | accept | workerTake | workerFinish =>
      exact not_usesClosed_ok _
  | checkTimeLimit answers =>
      simp only [step]
      split
      next index scanning =>
        unfold State.scanStep
        split
        next inside =>
          have clean := checkTimeLimit_clean (invariant.sound index)
            (fun request asked late named => by
              have page : timeOutAnswered config state (.checkTimeLimit answers) =
                  some (state.slots index) := by
                simp only [timeOutAnswered, scanning, asked]
                exact if_pos ⟨inside.1, inside.2, late, named⟩
              simpa [OwnPagesRegistered, ownPage, page] using registered)
          split
          next fault fails =>
            rw [fails] at clean
            exact not_usesClosed_error (fun null => clean (.inl (congrArg _ null)))
              fun freed => clean (.inr (congrArg _ freed))
          next => exact not_usesClosed_ok _
        next => exact not_usesClosed_ok _
      next => exact not_usesClosed_ok _
  | deliver answers =>
      simp only [step]
      split
      next task delivering =>
        apply deliver_clean
        intro current
        have hands : state.phase.hands = ([], [task]) := by rw [delivering]; rfl
        exact buffer_of_interest (invariant.sound task.fd)
          (invariant.idle_of_delivering hands current)
      next => exact not_usesClosed_ok _
  | receive fd result modified allocated answers =>
      obtain ⟨_, reading, _⟩ := situation_of_enabled allowed
      exact receive_clean (invariant.sound fd) reading registered
  | chooseQueue answers =>
      simp only [step]
      split
      next task dispatched =>
        have hands : state.phase.hands = ([task], []) := by rw [dispatched]; rfl
        apply chooseQueue_clean (buffer_of_interest (invariant.sound task.fd)
          (invariant.idle_of_pending hands))
        intro kind full
        simpa [OwnPagesRegistered, ownPage, dispatched, kind, full] using registered
      next => exact not_usesClosed_ok _
  | addTask =>
      simp only [step]
      split <;> exact not_usesClosed_ok _
  | send fd result modified =>
      obtain ⟨_, writing⟩ := situation_of_enabled allowed
      exact send_clean (invariant.sound fd) writing

end Runs

/-- **Connections and tables agree.** In every run in which `epoll_ctl` succeeds for
the pages that the loop writes by itself, every descriptor is consistent between any
two steps, and no next step of such a run goes on with a connection that it has
closed. -/
theorem slots_consistent (config : Config) (state : State)
    (reachable : Reachable (server config) (OwnPagesRegistered config) state) :
    (∀ fd, Consistent fd (state.slots fd)) ∧
      ∀ action, (server config).enabled state action = true →
        OwnPagesRegistered config state action →
          ¬ UsesClosed ((server config).step state action) := by
  have invariant := Invariant.of_reachable reachable
  constructor
  · intro fd
    exact (invariant.sound fd).consistent
  · intro action allowed registered
    exact step_clean invariant allowed registered

/-- After a 404 page that could be registered. -/
theorem slots_consistent_after_not_found :
    ∃ state : State, (state.slots 1).interest = some .write ∧
      ∀ fd, Consistent fd (state.slots fd) := by
  obtain ⟨state, reachable, passes⟩ := (server smallConfig).exists_of_replay
    smallState_initial (fun state => decide ((state.slots 1).interest = some .write))
    (show ((server smallConfig).replay (OwnPagesRegistered smallConfig) smallState
      [clientConnects, clientSends (ascii "POST / HTTP/1.1\r\n\r\n")]).any _ = true by
      decide +kernel)
  exact ⟨state, of_decide_eq_true passes, (slots_consistent smallConfig state reachable).1⟩

/-- A request without a route arrives, and `epoll_ctl` fails for the 404 page. -/
def unregisteredNotFound : Action :=
  .receive 1 (.data (ascii "POST / HTTP/1.1\r\n\r\n")) true true ⟨[], false⟩

/-- The next step ends in the given fault. -/
def State.faultTest (config : Config) (action : Action) (fault : Fault) (state : State) : Bool :=
  match step config state action with
  | .error other => decide (other = fault)
  | .ok _ => false

theorem State.faultTest_true {config : Config} {action : Action} {fault : Fault} {state : State}
    (passes : state.faultTest config action fault = true) :
    step config state action = .error fault := by
  unfold State.faultTest at passes
  split at passes
  next fails => rw [fails, of_decide_eq_true passes]
  next => cases passes

/-- The log line behind the 404 page reads the request that has been deleted. -/
theorem not_found_logs_deleted_request :
    ∃ state, Reachable (server smallConfig) Unconditional state ∧
      (server smallConfig).enabled state unregisteredNotFound = true ∧
      UsesClosed ((server smallConfig).step state unregisteredNotFound) := by
  obtain ⟨state, reachable, passes⟩ := (server smallConfig).exists_of_replay
    smallState_initial
    (fun state => enabled smallConfig state unregisteredNotFound &&
      state.faultTest smallConfig unregisteredNotFound .useAfterFree)
    (show ((server smallConfig).replay Unconditional smallState [clientConnects]).any _ = true by
      decide +kernel)
  rw [Bool.and_eq_true] at passes
  exact ⟨state, reachable, passes.1, .inr (State.faultTest_true passes.2)⟩

end Onyxup.Server
