import Onyxup.Lib.Occupancy
import Onyxup.Server.Slots

/-!
Contract: the counters of accepted and processed connections.

Owns: what every step books, and the balance of the two counters with the connections that
are open, over whole runs.

Does not own: the statistics page that shows the counters.

The accept branch counts a connection before it has memory for it, and does not count it
back when there is none.
-/

set_option autoImplicit false

namespace Onyxup.Server

open Onyxup.Lib.CString
open Onyxup.Lib.Occupancy
open Onyxup.Lib.Transition
open Onyxup.Http
open Onyxup.Response

/-- The counters, and the descriptors with a request. -/
def State.account (state : State) : Account :=
  ⟨state.totalNumberConnectionsAccepted, state.totalNumberConnectionsProcessed,
    fun fd => (state.slots fd).request.isSome⟩

/-- The accept branch registers a connection and gets no buffer or no request for it. -/
def losesConnection (config : Config) : Action → Bool
  | .accept result =>
      decide (0 ≤ result.connSock) && decide (result.connSock < config.maxConnection) &&
        result.nonBlocking && result.registered &&
        !((bufferFactory config.maxInputBufferLength config.maxOutputBufferLength
          result.inputMemory result.outputMemory result.bufferGranted).isSome &&
            result.requestGranted)
  | _ => false

/-- What an action books. -/
abbrev Books (config : Config) (action : Action) (state after : State) : Prop :=
  Booking config.maxConnection (losesConnection config action = true) state.account after.account

section Accounts

variable {config : Config} {state after : State} {action : Action} {fd : Nat}

/-- A change of one slot, in the account. -/
theorem account_update {slot : Slot} (slots : after.slots = Function.update state.slots fd slot) :
    after.account = ⟨after.totalNumberConnectionsAccepted, after.totalNumberConnectionsProcessed,
      Function.update state.account.taken fd slot.request.isSome⟩ := by
  simp only [State.account, slots, Account.mk.injEq, true_and]
  funext other
  by_cases here : other = fd
  · rw [here, Function.update_self, Function.update_self]
  · rw [Function.update_of_ne here, Function.update_of_ne here]

/-- A slot that keeps its request changes no more than the totals. -/
theorem account_update_same {slot : Slot}
    (slots : after.slots = Function.update state.slots fd slot)
    (same : slot.request.isSome = (state.slots fd).request.isSome) :
    after.account = ⟨after.totalNumberConnectionsAccepted, after.totalNumberConnectionsProcessed,
      state.account.taken⟩ := by
  have unchanged : Function.update state.account.taken fd slot.request.isSome =
      state.account.taken := by
    rw [same]
    exact Function.update_eq_self fd _
  rw [account_update slots, unchanged]

/-- Nothing is booked for a slot that keeps its request. -/
theorem account_of_update {slot : Slot} (slots : after.slots = Function.update state.slots fd slot)
    (accepted : after.totalNumberConnectionsAccepted = state.totalNumberConnectionsAccepted)
    (processed : after.totalNumberConnectionsProcessed = state.totalNumberConnectionsProcessed)
    (same : slot.request.isSome = (state.slots fd).request.isSome) :
    after.account = state.account := by
  rw [account_update_same slots same, accepted, processed]
  rfl

theorem account_close (state : State) (fd : Nat) :
    (state.closeAllSocketsAndClearData fd).account =
      ⟨state.account.entered, state.account.left + 1,
        Function.update state.account.taken fd false⟩ := by
  have slots : (state.closeAllSocketsAndClearData fd).slots = Function.update state.slots fd
      ⟨none, none, state.clock, none, ⟨state.cyclesStarted, [], 0⟩⟩ := rfl
  rw [account_update slots]
  rfl

theorem books_kept (same : after.account = state.account) : Books config action state after := by
  rw [Books, same]
  exact .kept

theorem books_opened {slot : Slot} (slots : after.slots = Function.update state.slots fd slot)
    (isOpen : slot.request.isSome = true) (below : fd < config.maxConnection)
    (free : (state.slots fd).request.isSome = false)
    (accepted : after.totalNumberConnectionsAccepted = state.totalNumberConnectionsAccepted + 1)
    (processed : after.totalNumberConnectionsProcessed = state.totalNumberConnectionsProcessed) :
    Books config action state after := by
  rw [Books, account_update slots, accepted, processed, isOpen]
  exact .opened below free

theorem books_lost {slot : Slot} (slots : after.slots = Function.update state.slots fd slot)
    (same : slot.request.isSome = (state.slots fd).request.isSome)
    (accepted : after.totalNumberConnectionsAccepted = state.totalNumberConnectionsAccepted + 1)
    (processed : after.totalNumberConnectionsProcessed = state.totalNumberConnectionsProcessed)
    (loses : losesConnection config action = true) : Books config action state after := by
  rw [Books, account_update_same slots same, accepted, processed]
  exact .lost loses

/-- The only thing that is booked is that `fd` is closed. -/
def KeepsOrCloses (fd : Nat) (state after : State) : Prop :=
  after.account = state.account ∨
    after.account = (state.closeAllSocketsAndClearData fd).account

/-- Closing a descriptor with a request is a booking. -/
theorem KeepsOrCloses.books (outcome : KeepsOrCloses fd state after)
    (opened : (state.slots fd).request.isSome = true) : Books config action state after := by
  rcases outcome with same | closes
  · exact books_kept same
  · rw [Books, closes, account_close]
    exact .closed opened

/-- What was done to the slot before does not matter, if it kept its request. -/
theorem KeepsOrCloses.of_setSlot {slot : Slot}
    (outcome : KeepsOrCloses fd (state.setSlot fd slot) after)
    (same : slot.request.isSome = (state.slots fd).request.isSome) :
    KeepsOrCloses fd state after := by
  have kept : (state.setSlot fd slot).account = state.account :=
    account_of_update rfl rfl rfl same
  rw [KeepsOrCloses, kept, setSlot_close] at outcome
  exact outcome

/-- A page for a descriptor: it stays open or is closed. -/
theorem writeToOutputBuffer_account {answers : Answers} {data : Bytes} {stillOpen : Bool}
    (dataNonempty : data ≠ [])
    (writes : state.writeToOutputBuffer config answers fd data = .ok (stillOpen, after)) :
    KeepsOrCloses fd state after := by
  rcases writeToOutputBuffer_cases dataNonempty writes with ⟨_, answered, page, rfl⟩ | ⟨_, rfl⟩
  · exact .inl (account_of_update rfl rfl rfl (by rw [page.frame.2.2.1]))
  · exact .inr rfl

theorem checkTimeLimit_account {answers : Answers} {index : Nat}
    (owner : ∀ request, (state.slots index).request = some request → request.fd = index)
    (checked : state.checkTimeLimit config answers index = .ok after) :
    KeepsOrCloses index state after := by
  rcases checkTimeLimit_cases owner checked with
    rfl | rfl | ⟨request, answered, asked, _, _, page, rfl⟩
  · exact .inl rfl
  · exact .inr rfl
  · refine .inl (account_of_update rfl rfl rfl ?_)
    rw [asked, page.frame.2.2.1]
    rfl

theorem checkTimeLimit_books {answers : Answers} {index : Nat}
    (owner : ∀ request, (state.slots index).request = some request → request.fd = index)
    (checked : state.checkTimeLimit config answers index = .ok after) :
    Books config action state after := by
  cases asked : (state.slots index).request with
  | none =>
      rw [State.checkTimeLimit, asked] at checked
      cases checked
      exact .kept
  | some request =>
      apply (checkTimeLimit_account owner checked).books
      rw [asked]
      rfl

private theorem scanStep_books {answers : Answers} {index : Nat}
    (owner : ∀ request, (state.slots index).request = some request → request.fd = index)
    (scans : state.scanStep config answers index = .ok after) :
    Books config action state after := by
  unfold State.scanStep at scans
  split at scans
  next =>
    split at scans
    next => cases scans
    next checks =>
      cases scans
      exact (checkTimeLimit_books owner checks :)
  next =>
    cases scans
    exact .kept

theorem refuseInput_account {answers : Answers}
    (refused : state.refuseInput config answers fd = .ok after) : KeepsOrCloses fd state after := by
  obtain ⟨request, answered, asked, page, rfl⟩ := refuseInput_cases refused
  refine .inl (account_of_update rfl rfl rfl ?_)
  rw [asked, page.frame.2.2.1]
  rfl

theorem dispatch_account {modified allocated : Bool} {answers : Answers} {request : Request}
    (dispatched : state.dispatch config modified allocated answers fd request = .ok after) :
    KeepsOrCloses fd state after := by
  unfold State.dispatch at dispatched
  split at dispatched
  next =>
    dsimp only at dispatched
    split at dispatched
    next =>
      cases dispatched
      exact .inl (account_of_update rfl rfl rfl rfl)
    next =>
      split at dispatched
      next => cases dispatched
      next written writes =>
        cases dispatched
        exact (writeToOutputBuffer_account (page_ne_nil _ _ _ _ _) writes).of_setSlot rfl
      next => cases dispatched
  next =>
    cases dispatched
    exact .inr rfl

theorem receive_account {result : RecvResult} {modified allocated : Bool} {answers : Answers}
    (received : state.receive config result modified allocated answers fd = .ok after) :
    KeepsOrCloses fd state after := by
  unfold State.receive at received
  split at received
  next =>
    unfold State.receiveData at received
    dsimp only at received
    split at received
    next request _ asked =>
      have same : ∀ other : Request,
          (some other).isSome = (state.slots fd).request.isSome := by
        intro other
        rw [asked]
        rfl
      split at received
      next => cases received
      next =>
        split at received
        next =>
          cases received
          exact .inl (account_of_update rfl rfl rfl (same _))
        next =>
          cases received
          rw [setSlot_close]
          exact .inr rfl
        next => exact (refuseInput_account received).of_setSlot (same _)
        next => exact (dispatch_account received).of_setSlot (same _)
    next => cases received
  next =>
    cases received
    exact .inr rfl
  next =>
    cases received
    exact .inr rfl
  next =>
    split at received
    next => cases received
    next =>
      split at received
      next => exact refuseInput_account received
      next => cases received

theorem finishResponse_account {modified : Bool} {buffer : Buffer} {request : Request}
    (opened : (state.slots fd).request.isSome = true) :
    KeepsOrCloses fd state (state.finishResponse modified fd buffer request) := by
  unfold State.finishResponse
  split
  next => exact .inr rfl
  next =>
    split
    next =>
      dsimp only
      split
      next => exact .inl (account_of_update rfl rfl rfl opened.symm)
      next =>
        rw [setSlot_close]
        exact .inr rfl
    next => exact .inr rfl

theorem send_account {result : Option Nat} {modified : Bool}
    (sent : state.send result modified fd = .ok after) : KeepsOrCloses fd state after := by
  unfold State.send at sent
  dsimp only at sent
  split at sent
  next request _ asked =>
    split at sent
    next =>
      split at sent
      next =>
        cases sent
        exact .inr rfl
      next =>
        split at sent
        next =>
          cases sent
          refine KeepsOrCloses.of_setSlot (finishResponse_account ?_) rfl
          simp only [State.setSlot, Function.update_self, asked]
          rfl
        next =>
          cases sent
          exact .inl (account_of_update rfl rfl rfl rfl)
    next =>
      cases sent
      exact .inl rfl
  next => cases sent

theorem chooseQueue_account {answers : Answers} {task : Task}
    (chosen : state.chooseQueue config answers task = .ok after) :
    KeepsOrCloses task.fd state after := by
  unfold State.chooseQueue at chosen
  split at chosen
  next =>
    split at chosen
    next =>
      split at chosen
      next => cases chosen
      next writes =>
        cases chosen
        exact (writeToOutputBuffer_account (page_ne_nil _ _ _ _ _) writes :)
      next => cases chosen
    next =>
      cases chosen
      exact .inl rfl
  next =>
    cases chosen
    exact .inl rfl
  next =>
    cases chosen
    exact .inr rfl

private theorem losesConnection_accept {result : AcceptResult} (positive : 0 ≤ result.connSock)
    (below : result.connSock < config.maxConnection) (nonBlocking : result.nonBlocking = true)
    (registered : result.registered = true)
    (missing : (bufferFactory config.maxInputBufferLength config.maxOutputBufferLength
        result.inputMemory result.outputMemory result.bufferGranted).isSome = false ∨
      result.requestGranted = false) : losesConnection config (.accept result) = true := by
  simp only [losesConnection, nonBlocking, registered, Bool.and_true, Bool.and_eq_true,
    decide_eq_true_eq, Bool.not_eq_true', Bool.and_eq_false_iff]
  exact ⟨⟨positive, below⟩, missing⟩

/-- The accept branch opens a descriptor, loses a connection or does nothing. -/
theorem accept_books {result : AcceptResult} (statistics : config.isStatisticsEnable = true)
    (free : 0 ≤ result.connSock → (state.slots result.connSock.toNat).request.isSome = false) :
    Books config (.accept result) state (state.accept config result) := by
  unfold State.accept
  split
  next => exact .kept
  next passes =>
    simp only [not_or, Int.not_lt, Bool.not_eq_false] at passes
    obtain ⟨below, positive, nonBlocking, registered⟩ := passes
    have counted : (state.addTotalNumberConnectionsAccepted config).totalNumberConnectionsAccepted =
        state.totalNumberConnectionsAccepted + 1 := if_pos statistics
    have inside : result.connSock < config.maxConnection := by omega
    have loses := losesConnection_accept positive inside nonBlocking registered
    dsimp only
    split
    next missing => exact books_lost rfl rfl counted rfl (loses (.inl (by rw [missing]; rfl)))
    next buffer made =>
      split
      next => exact books_opened rfl rfl (by omega) (free positive) counted rfl
      next refused =>
        exact books_lost rfl (free positive).symm counted rfl
          (loses (.inr (Bool.eq_false_iff.mpr refused)))

private theorem deliver_books {answers : Answers} {task : Task}
    (stocked : task.responseData ≠ [])
    (opened : task.timePoint = (state.slots task.fd).aliveSocket →
      (state.slots task.fd).request.isSome = true)
    (delivers : state.deliver config answers task = .ok after) :
    Books config action state after := by
  unfold State.deliver at delivers
  split at delivers
  next current =>
    split at delivers
    next => cases delivers
    next writes =>
      cases delivers
      exact (writeToOutputBuffer_account stocked writes).books (opened current)
  next =>
    cases delivers
    exact .kept

private theorem popPerformed_account (state : State) :
    state.popPerformed.account = state.account := by
  unfold State.popPerformed
  split <;> rfl

private theorem addTask_account (task : Task) (state : State) :
    (state.addTask task).account = state.account := by
  unfold State.addTask
  dsimp only
  split <;> rfl

private theorem workerTake_account (id : Nat) (state : State) :
    (state.workerTake id).account = state.account := by
  unfold State.workerTake
  split
  next => rfl
  next => dsimp only; split <;> rfl

private theorem workerFinish_account (id : Nat) (response : ResponseBase) (datetime : Bytes)
    (entries : List (Bytes × Bytes)) (state : State) :
    (state.workerFinish config id response datetime entries).account = state.account := by
  unfold State.workerFinish
  split <;> rfl

/-- What every step books, in a state that keeps the invariant. -/
theorem step_books (invariant : Invariant config state)
    (statistics : config.isStatisticsEnable = true)
    (allowed : enabled config state action = true) (steps : step config state action = .ok after) :
    Books config action state after := by
  have consistent : ∀ fd, Consistent fd (state.slots fd) :=
    fun fd => (invariant.sound fd).consistent
  have opened : ∀ {fd : Nat} {interest : Interest},
      (state.slots fd).interest = some interest → (state.slots fd).request.isSome = true := by
    intro fd interest has
    rw [(consistent fd).registered, has]
    rfl
  cases action with
  | tick | beginIteration =>
      cases steps
      exact .kept
  | checkTimeLimit answers =>
      simp only [step] at steps
      split at steps
      next index scanning => exact scanStep_books (consistent index).owner steps
      next =>
        cases steps
        exact .kept
  | popPerformed =>
      cases steps
      exact books_kept (popPerformed_account state)
  | deliver answers =>
      simp only [step] at steps
      split at steps
      next task delivering =>
        have hands : state.phase.hands = ([], [task]) := by rw [delivering]; rfl
        exact deliver_books (invariant.stocked task delivering)
          (fun current => opened (invariant.idle_of_delivering hands current)) steps
      next =>
        cases steps
        exact .kept
  | hangUp fd =>
      cases steps
      obtain ⟨_, interest, has⟩ := situation_of_enabled allowed
      exact KeepsOrCloses.books (.inr rfl) (opened has)
  | accept result =>
      cases steps
      apply accept_books statistics
      intro positive
      obtain ⟨_, connected⟩ := situation_of_enabled allowed
      rw [Bool.eq_false_iff, Ne, (consistent _).registered, (connected positive).1]
      simp
  | receive fd result modified allocated answers =>
      obtain ⟨_, reading, _⟩ := situation_of_enabled allowed
      exact (receive_account steps).books (opened reading)
  | chooseQueue answers =>
      simp only [step] at steps
      split at steps
      next task dispatched =>
        have hands : state.phase.hands = ([task], []) := by rw [dispatched]; rfl
        exact (chooseQueue_account steps).books (opened (invariant.idle_of_pending hands))
      next =>
        cases steps
        exact .kept
  | addTask =>
      simp only [step] at steps
      split at steps
      next task _ =>
        cases steps
        exact books_kept (addTask_account task state)
      next =>
        cases steps
        exact .kept
  | send fd result modified =>
      obtain ⟨_, writing⟩ := situation_of_enabled allowed
      exact (send_account steps).books (opened writing)
  | workerTake id =>
      cases steps
      exact books_kept (workerTake_account id state)
  | workerFinish id response datetime entries =>
      cases steps
      exact books_kept (workerFinish_account id response datetime entries state)

end Accounts

/-- The accept branch gets the memory for every connection that it registers. -/
def ConnectionsKept (config : Config) (_ : State) (action : Action) : Prop :=
  losesConnection config action = false

instance (config : Config) (state : State) (action : Action) :
    Decidable (ConnectionsKept config state action) :=
  inferInstanceAs (Decidable (_ = _))

/-- The connections that are open. -/
def openConnections (config : Config) (state : State) : Finset Nat :=
  (Finset.range config.maxConnection).filter fun fd => (state.slots fd).request.isSome = true

/-- Nothing is open at the start. -/
theorem balanced_initially {config : Config} {state : State}
    (initial : Initial config state) : Balanced config.maxConnection state.account := by
  have free : ∀ fd, state.account.taken fd = false := by
    intro fd
    simp only [State.account, (initial.free fd).2.1, Option.isSome_none]
  refine ⟨fun fd isTaken => ?_, ?_⟩
  · rw [free fd] at isTaken
    cases isTaken
  · have nobody : state.account.occupied config.maxConnection = ∅ := by
      simp [Account.occupied, free]
    rw [nobody, Finset.card_empty]
    exact initial.totals.1.trans initial.totals.2.1.symm

/-- **Connection accounting.** With statistics enabled, in every run in which every registered
connection gets its buffer and its request, the accepted connections are the processed ones
and the open ones. -/
theorem connections_balanced (config : Config) (state : State)
    (statistics : config.isStatisticsEnable = true)
    (reachable : Reachable (server config) (ConnectionsKept config) state) :
    state.totalNumberConnectionsAccepted =
      state.totalNumberConnectionsProcessed + (openConnections config state).card := by
  have balanced : Balanced config.maxConnection state.account := by
    induction reachable with
    | start initial => exact balanced_initially initial
    | next before enabled meets steps inductionHypothesis =>
        have booked := step_books (Invariant.of_reachable before) statistics enabled steps
        exact booked.balanced (by rw [meets]; simp) inductionHypothesis
  exact balanced.even

/-- The small server with its statistics. -/
def countingConfig : Config :=
  { smallConfig with isStatisticsEnable := true }

/-- One connection is accepted and open. -/
theorem one_connection_balanced :
    ∃ state : State, state.totalNumberConnectionsAccepted = 1 ∧
      state.totalNumberConnectionsAccepted =
        state.totalNumberConnectionsProcessed + (openConnections countingConfig state).card := by
  obtain ⟨state, reachable, passes⟩ := (server countingConfig).exists_of_replay
    (smallState_initial_of rfl) (fun state => decide (state.totalNumberConnectionsAccepted = 1))
    (show ((server countingConfig).replay (ConnectionsKept countingConfig) smallState
      [clientConnects]).any _ = true by decide +kernel)
  exact ⟨state, of_decide_eq_true passes,
    connections_balanced countingConfig state rfl reachable⟩

/-- A connection for which no buffer could be allocated. -/
def clientWithoutBuffer : Action :=
  .accept ⟨1, true, true, List.replicate 64 0, List.replicate 1024 0, false, true⟩

/-- It stays counted as accepted. -/
theorem connection_without_buffer_lost :
    ∃ state, Reachable (server countingConfig) Unconditional state ∧
      ¬ state.totalNumberConnectionsAccepted =
        state.totalNumberConnectionsProcessed + (openConnections countingConfig state).card := by
  obtain ⟨state, reachable, passes⟩ := (server countingConfig).exists_of_replay
    (smallState_initial_of rfl)
    (fun state => decide (¬ state.totalNumberConnectionsAccepted =
      state.totalNumberConnectionsProcessed + (openConnections countingConfig state).card))
    (show ((server countingConfig).replay Unconditional smallState
      [clientWithoutBuffer]).any _ = true by decide +kernel)
  exact ⟨state, reachable, of_decide_eq_true passes⟩

end Onyxup.Server
