import Onyxup.Server.QueueLimit

/-!
Contract: what the clients of the server receive.

Owns: the server with a record of the bytes that it has sent, and the theorem that a
response that was delivered to a connection goes out whole and in order, however many
`send` calls it takes and whatever the loop does in between.

Does not own: the pages that the loop writes by itself, and what becomes of the bytes
behind `send`.

A response is known by its descriptor and the time stamp of its connection. The stamp
changes when the connection is closed, when it is reset for the next request and when
the time-out scan puts its 408 page into the buffer.
-/

set_option autoImplicit false

namespace Onyxup.Server

open Onyxup.Lib.CString
open Onyxup.Lib.Transition
open Onyxup.Http
open Onyxup.Response

/-! ## The server with a record -/

/-- An output buffer that has been sent to its end. -/
structure Transmission where
  fd : Nat
  stamp : Nat
  bytes : Bytes

/-- The server, what each descriptor has been sent of the response under way, and the
transmissions that are complete. -/
structure Wired where
  state : State
  sent : Nat → Bytes
  completed : List Transmission

/-- What `send` adds to the record. -/
def Wired.noteSend (wired : Wired) (fd count : Nat) (buffer : Buffer) (after : State) : Wired :=
  let bytes := wired.sent fd ++ buffer.unsent.take count
  if (buffer.sent count).numberBytesToSend = 0 then
    { state := after
      sent := Function.update wired.sent fd []
      completed := ⟨fd, (wired.state.slots fd).aliveSocket, bytes⟩ :: wired.completed }
  else { wired with state := after, sent := Function.update wired.sent fd bytes }

/-- What an action adds to the record. A new connection has been sent nothing. -/
def Wired.note (wired : Wired) (action : Action) (after : State) : Wired :=
  match action with
  | .accept result =>
      if result.connSock < 0 then { wired with state := after }
      else { wired with
        state := after
        sent := Function.update wired.sent result.connSock.toNat [] }
  | .send fd (some count) _ =>
      match (wired.state.slots fd).buffer, (wired.state.slots fd).request with
      | some buffer, some request =>
          if State.sendGuard buffer request then wired.noteSend fd count buffer after
          else { wired with state := after }
      | _, _ => { wired with state := after }
  | _ => { wired with state := after }

def wiredServer (config : Config) : System Wired Action Fault where
  initial wired := Initial config wired.state ∧ (∀ fd, wired.sent fd = []) ∧ wired.completed = []
  enabled wired := enabled config wired.state
  step wired action :=
    match step config wired.state action with
    | .ok after => .ok (wired.note action after)
    | .error fault => .error fault

theorem Wired.note_state (wired : Wired) (action : Action) (after : State) :
    (wired.note action after).state = after := by
  unfold Wired.note Wired.noteSend
  split
  next => split <;> rfl
  next =>
    split
    next =>
      split
      next =>
        dsimp only
        split <;> rfl
      next => rfl
    next => rfl
  next => rfl

/-- A step of the wired server is a step of the server. -/
theorem wired_step {config : Config} {wired next : Wired} {action : Action}
    (steps : (wiredServer config).step wired action = .ok next) :
    ∃ after, step config wired.state action = .ok after ∧ next = wired.note action after := by
  simp only [wiredServer] at steps
  split at steps
  next after stepped =>
    cases steps
    exact ⟨after, stepped, rfl⟩
  next => cases steps

/-- The record does not change what the server does. -/
theorem reachable_of_wired {config : Config} {wired : Wired}
    (reachable : Reachable (wiredServer config) Unconditional wired) :
    Reachable (server config) Unconditional wired.state := by
  induction reachable with
  | start initial => exact .start initial.1
  | next _ allowed _ steps inductionHypothesis =>
      obtain ⟨after, stepped, rfl⟩ := wired_step steps
      rw [Wired.note_state]
      exact inductionHypothesis.next allowed trivial stepped

/-! ## The slots that a step touches -/

/-- No other slot is touched, and no task is delivered. -/
structure OnlySlot (fd : Nat) (state after : State) : Prop where
  others : ∀ other, other ≠ fd → after.slots other = state.slots other
  delivered : after.delivered = state.delivered

section Touched

variable {config : Config} {state middle after : State} {fd : Nat}

theorem OnlySlot.of_update {slot : Slot}
    (slots : after.slots = Function.update state.slots fd slot)
    (delivered : after.delivered = state.delivered) : OnlySlot fd state after where
  others other apart := by rw [slots, Function.update_of_ne apart]
  delivered := delivered

theorem OnlySlot.refl (fd : Nat) (state : State) : OnlySlot fd state state :=
  ⟨fun _ _ => rfl, rfl⟩

theorem OnlySlot.trans (first : OnlySlot fd state middle) (second : OnlySlot fd middle after) :
    OnlySlot fd state after where
  others other apart := by rw [second.others other apart, first.others other apart]
  delivered := by rw [second.delivered, first.delivered]

theorem onlySlot_close (state : State) (fd : Nat) :
    OnlySlot fd state (state.closeAllSocketsAndClearData fd) :=
  .of_update rfl rfl

theorem onlySlot_setSlot (state : State) (fd : Nat) (slot : Slot) :
    OnlySlot fd state (state.setSlot fd slot) :=
  .of_update rfl rfl

theorem writeToOutputBuffer_onlySlot {answers : Answers} {data : Bytes} {stillOpen : Bool}
    (dataNonempty : data ≠ [])
    (writes : state.writeToOutputBuffer config answers fd data = .ok (stillOpen, after)) :
    OnlySlot fd state after := by
  rcases writeToOutputBuffer_cases dataNonempty writes with ⟨_, answered, _, rfl⟩ | ⟨_, rfl⟩
  · exact onlySlot_setSlot state fd answered
  · exact onlySlot_close state fd

theorem refuseInput_onlySlot {answers : Answers}
    (refused : state.refuseInput config answers fd = .ok after) : OnlySlot fd state after := by
  obtain ⟨_, answered, _, _, rfl⟩ := refuseInput_cases refused
  exact onlySlot_setSlot state fd answered

theorem dispatch_onlySlot {modified allocated : Bool} {answers : Answers} {request : Request}
    (dispatched : state.dispatch config modified allocated answers fd request = .ok after) :
    OnlySlot fd state after := by
  unfold State.dispatch at dispatched
  split at dispatched
  next =>
    dsimp only at dispatched
    split at dispatched
    next =>
      cases dispatched
      exact .of_update rfl rfl
    next =>
      split at dispatched
      next => cases dispatched
      next written writes =>
        cases dispatched
        have marked := onlySlot_setSlot state fd { state.slots fd with interest := some .idle }
        have answered := writeToOutputBuffer_onlySlot (page_ne_nil _ _ _ _ _) writes
        exact ⟨(marked.trans answered).others, (marked.trans answered).delivered⟩
      next => cases dispatched
  next =>
    cases dispatched
    exact onlySlot_close state fd

theorem receive_onlySlot {result : RecvResult} {modified allocated : Bool} {answers : Answers}
    (received : state.receive config result modified allocated answers fd = .ok after) :
    OnlySlot fd state after := by
  unfold State.receive at received
  split at received
  next =>
    unfold State.receiveData at received
    dsimp only at received
    split at received
    next =>
      split at received
      next => cases received
      next =>
        split at received
        next =>
          cases received
          exact onlySlot_setSlot state fd _
        next =>
          cases received
          rw [setSlot_close]
          exact onlySlot_close state fd
        next => exact (onlySlot_setSlot state fd _).trans (refuseInput_onlySlot received)
        next => exact (onlySlot_setSlot state fd _).trans (dispatch_onlySlot received)
    next => cases received
  next =>
    cases received
    exact onlySlot_close state fd
  next =>
    cases received
    exact onlySlot_close state fd
  next =>
    split at received
    next => cases received
    next =>
      split at received
      next => exact refuseInput_onlySlot received
      next => cases received

theorem chooseQueue_onlySlot {answers : Answers} {task : Task}
    (chosen : state.chooseQueue config answers task = .ok after) :
    OnlySlot task.fd state after := by
  unfold State.chooseQueue at chosen
  split at chosen
  next =>
    split at chosen
    next =>
      split at chosen
      next => cases chosen
      next written writes =>
        cases chosen
        have answered := writeToOutputBuffer_onlySlot (page_ne_nil _ _ _ _ _) writes
        exact ⟨answered.others, answered.delivered⟩
      next => cases chosen
    next =>
      cases chosen
      exact ⟨fun _ _ => rfl, rfl⟩
  next =>
    cases chosen
    exact ⟨fun _ _ => rfl, rfl⟩
  next =>
    cases chosen
    exact .of_update rfl rfl

theorem accept_onlySlot (result : AcceptResult) :
    OnlySlot result.connSock.toNat state (state.accept config result) := by
  unfold State.accept
  split
  next => exact .refl _ _
  next =>
    dsimp only
    split
    next => exact .of_update rfl rfl
    next =>
      split
      next => exact .of_update rfl rfl
      next => exact .of_update rfl rfl

/-- What a step that does not send can do to a slot: nothing, a new time stamp on a slot
that does not read afterwards, anything to a slot that reads or waits, and a new
connection on a free one. -/
theorem step_slot {action : Action} (invariant : Invariant config state)
    (allowed : enabled config state action = true)
    (notSend : ∀ fd result modified, action ≠ .send fd result modified)
    (steps : step config state action = .ok after) (fd : Nat) :
    after.slots fd = state.slots fd ∨
      ((after.slots fd).aliveSocket = state.clock ∧
        ((after.slots fd).interest = none ∨ (after.slots fd).interest = some .write)) ∨
      ((state.slots fd).interest = some .read ∨ (state.slots fd).interest = some .idle) ∨
      ((state.slots fd).interest = none ∧
        ∃ result, action = .accept result ∧ ¬ result.connSock < 0 ∧
          fd = result.connSock.toNat) := by
  -- a slot that is touched alone: it is this one, or nothing happens to this one
  have at_ : ∀ {touched : Nat} {outcome : Prop},
      (∀ other, other ≠ touched → after.slots other = state.slots other) →
      (fd = touched → outcome) → after.slots fd = state.slots fd ∨ outcome := by
    intro touched outcome only here
    by_cases same : fd = touched
    · exact .inr (here same)
    · exact .inl (only fd same)
  cases action with
  | tick duration => cases steps; exact .inl rfl
  | beginIteration => cases steps; exact .inl rfl
  | checkTimeLimit answers =>
      obtain ⟨index, scanning⟩ := situation_of_enabled allowed
      simp only [step, scanning, State.scanStep] at steps
      split at steps
      next =>
        split at steps
        next => cases steps
        next checked checks =>
          cases steps
          rcases checkTimeLimit_cases (invariant.owned index) checks with rfl | rfl |
            ⟨request, answered, _, _, _, page, rfl⟩
          · exact .inl rfl
          · refine at_ (onlySlot_close state index).others ?_
            rintro rfl
            simp [State.closeAllSocketsAndClearData]
          · refine at_ (fun other apart => Function.update_of_ne apart ..) ?_
            rintro rfl
            simp [page.frame.1]
      next =>
        cases steps
        exact .inl rfl
  | popPerformed =>
      cases steps
      refine .inl ?_
      unfold State.popPerformed
      split <;> rfl
  | deliver answers =>
      obtain ⟨task, delivering⟩ := situation_of_enabled allowed
      simp only [step, delivering, State.deliver] at steps
      split at steps
      next current =>
        split at steps
        next => cases steps
        next stillOpen written writes =>
          cases steps
          have nonempty := invariant.stocked task delivering
          have only := (writeToOutputBuffer_onlySlot nonempty writes).others
          refine at_ only ?_
          rintro rfl
          exact .inr (.inl (.inr (invariant.idle_of_delivering (by rw [delivering]; rfl) current)))
      next =>
        cases steps
        exact .inl rfl
  | hangUp touched =>
      cases steps
      refine at_ (onlySlot_close state touched).others ?_
      rintro rfl
      simp [State.closeAllSocketsAndClearData]
  | accept result =>
      cases steps
      by_cases refused : result.connSock < 0
      · refine .inl ?_
        rw [State.accept, if_pos (.inr (.inl refused))]
      · refine at_ (accept_onlySlot result).others ?_
        rintro rfl
        have free := ((situation_of_enabled allowed).2 (Int.not_lt.mp refused)).1
        exact .inr (.inr ⟨free, result, rfl, refused, rfl⟩)
  | receive touched result modified allocated answers =>
      refine at_ (receive_onlySlot steps).others ?_
      rintro rfl
      exact .inr (.inl (.inl (situation_of_enabled allowed).2.1))
  | chooseQueue answers =>
      obtain ⟨task, dispatched⟩ := situation_of_enabled allowed
      simp only [step, dispatched] at steps
      refine at_ (chooseQueue_onlySlot steps).others ?_
      rintro rfl
      exact .inr (.inl (.inr (invariant.idle_of_pending (by rw [dispatched]; rfl))))
  | addTask =>
      obtain ⟨task, admitted⟩ := situation_of_enabled allowed
      simp only [step, admitted] at steps
      cases steps
      refine .inl ?_
      unfold State.addTask
      dsimp only
      split <;> rfl
  | send touched result modified => exact absurd rfl (notSend touched result modified)
  | workerTake id =>
      cases steps
      refine .inl ?_
      unfold State.workerTake
      split
      next => rfl
      next =>
        dsimp only
        split <;> rfl
  | workerFinish id response datetime entries =>
      cases steps
      refine .inl ?_
      unfold State.workerFinish
      split <;> rfl

end Touched

/-! ## Time stamps -/

section Stamps

variable {config : Config} {mayExpire mayRefuse : Slot → Bool} {state after : State}

/-- A time stamp changes only to the present. -/
theorem Move.aliveSocket {fd clock number : Nat} {slot moved : Slot}
    (move : Move config fd mayExpire mayRefuse clock number slot moved) :
    moved.aliveSocket = slot.aliveSocket ∨ moved.aliveSocket = clock := by
  cases move with
  | opened => exact .inr rfl
  | closed => exact .inr rfl
  | turnedAway => exact .inr rfl
  | waited read => exact .inl read.frame.2.1
  | refused _ _ _ page => exact .inl page.frame.2.1
  | expired => exact .inr rfl
  | sent => exact .inl rfl
  | reset => exact .inr rfl

theorem Effect.aliveSocket (effect : Effect config mayExpire mayRefuse state after) (fd : Nat) :
    (after.slots fd).aliveSocket = (state.slots fd).aliveSocket ∨
      (after.slots fd).aliveSocket = state.clock := by
  have update : ∀ {touched : Nat} {slot : Slot},
      after.slots = Function.update state.slots touched slot →
      slot.aliveSocket = (state.slots touched).aliveSocket ∨ slot.aliveSocket = state.clock →
      (after.slots fd).aliveSocket = (state.slots fd).aliveSocket ∨
        (after.slots fd).aliveSocket = state.clock := by
    intro touched slot slots stamp
    by_cases same : fd = touched
    · rw [slots, same, Function.update_self]
      exact stamp
    · rw [slots, Function.update_of_ne same]
      exact .inl rfl
  cases effect with
  | quiet slots => exact .inl (by rw [slots])
  | queued slots => exact .inl (by rw [slots])
  | moved move slots => exact update slots move.aliveSocket
  | dispatched read slots => exact update slots (.inl read.frame.2.1)
  | notFound read page slots => exact update slots (.inl (page.frame.2.1.trans read.frame.2.1))
  | turnedDown held page slots => exact update slots (.inl page.frame.2.1)
  | delivered held current outcome slots =>
      rcases outcome with page | rfl
      · exact update slots (.inl page.frame.2.1)
      · exact update slots (.inr rfl)

end Stamps

/-! ## What a connection is sent -/

/-- The bytes of a delivered response: what the worker has made of it, or the 413 page
if that is too long for the output buffer. -/
def Carries (config : Config) (task : Task) (bytes : Bytes) : Prop :=
  if task.responseData.length < config.maxOutputBufferLength then bytes = task.responseData
  else ∃ datetime, bytes = page413 config.identity datetime

/-- The record of a run. -/
structure WireInvariant (config : Config) (wired : Wired) : Prop where
  quiet : ∀ fd, (wired.state.slots fd).interest = some .read ∨
    (wired.state.slots fd).interest = some .idle → wired.sent fd = []
  stamped : ∀ entry ∈ wired.completed, entry.stamp < (wired.state.slots entry.fd).aliveSocket
  current : ∀ task ∈ wired.state.delivered,
    task.timePoint = (wired.state.slots task.fd).aliveSocket →
      (wired.state.slots task.fd).interest = some .write ∧
      ∃ buffer, (wired.state.slots task.fd).buffer = some buffer ∧
        Carries config task (wired.sent task.fd ++ buffer.unsent)
  past : ∀ task ∈ wired.state.delivered, ∀ entry ∈ wired.completed, entry.fd = task.fd →
    entry.stamp = task.timePoint → Carries config task entry.bytes

/-- What is sent and what is left are the unsent bytes. -/
theorem Buffer.unsent_sent (buffer : Buffer) (count : Nat) :
    buffer.unsent.take count ++ (buffer.sent count).unsent = buffer.unsent := by
  have rest : (buffer.sent count).unsent = buffer.unsent.drop count := by
    simp only [Buffer.unsent, Buffer.sent, List.drop_take, List.drop_drop]
  rw [rest, List.take_append_drop]

/-- A response on a fresh output buffer. -/
theorem Buffer.writeOutput_carries {config : Config} {task : Task} {buffer after : Buffer}
    {datetime : Bytes} (drained : buffer.numberBytesToSend = 0)
    (fresh : buffer.posOutputBuffer = 0)
    (written : buffer.writeOutput config.maxOutputBufferLength (page413 config.identity datetime)
      task.responseData = .ok after) : Carries config task after.unsent := by
  have test : buffer.overflows config.maxOutputBufferLength task.responseData ↔
      config.maxOutputBufferLength ≤ task.responseData.length := by
    rw [Buffer.overflows, fresh, Nat.zero_add]
  unfold Buffer.writeOutput at written
  simp only [test] at written
  unfold Carries
  split at written
  next long =>
    rw [if_neg (Nat.not_lt.mpr long)]
    exact ⟨datetime, Buffer.unsent_of_drained rfl written⟩
  next short =>
    rw [if_pos (Nat.lt_of_not_le short)]
    exact Buffer.unsent_of_drained drained written

section Steps

variable {config : Config} {state after : State} {wired : Wired}

/-- `writeToOutputBuffer` that keeps the descriptor open, seen from its slot. -/
theorem writeToOutputBuffer_written {answers : Answers} {fd : Nat} {data : Bytes}
    (writes : state.writeToOutputBuffer config answers fd data = .ok (true, after)) :
    ∃ buffer written, (state.slots fd).buffer = some buffer ∧
      buffer.writeOutput config.maxOutputBufferLength (page413 config.identity answers.datetime)
        data = .ok written ∧
      (after.slots fd).buffer = some written ∧ (after.slots fd).interest = some .write := by
  unfold State.writeToOutputBuffer at writes
  split at writes
  next => cases writes
  next buffer has =>
    split at writes
    next => cases writes
    next written fits =>
      dsimp only at writes
      split at writes
      next =>
        cases writes
        refine ⟨buffer, written, has, fits, ?_, ?_⟩
        · simp [State.setSlot]
        · simp [State.setSlot]
      next => cases writes

/-- A response that has been sent to its end: the connection gets a new stamp. -/
theorem finishResponse_slot (state : State) (modified : Bool) (fd : Nat) (buffer : Buffer)
    (request : Request) :
    OnlySlot fd state (state.finishResponse modified fd buffer request) ∧
      ((state.finishResponse modified fd buffer request).slots fd).aliveSocket = state.clock := by
  unfold State.finishResponse
  split
  next => exact ⟨onlySlot_close state fd, by simp [State.closeAllSocketsAndClearData]⟩
  next =>
    split
    next =>
      dsimp only
      split
      next => exact ⟨.of_update rfl rfl, by simp [State.setSlot]⟩
      next =>
        rw [setSlot_close]
        exact ⟨onlySlot_close state fd, by simp [State.closeAllSocketsAndClearData]⟩
    next => exact ⟨onlySlot_close state fd, by simp [State.closeAllSocketsAndClearData]⟩

theorem send_onlySlot {fd : Nat} {result : Option Nat} {modified : Bool}
    (sends : state.send result modified fd = .ok after) : OnlySlot fd state after := by
  unfold State.send at sends
  dsimp only at sends
  split at sends
  next =>
    split at sends
    next =>
      split at sends
      next =>
        cases sends
        exact onlySlot_close state fd
      next =>
        split at sends
        next =>
          cases sends
          exact (onlySlot_setSlot state fd _).trans (finishResponse_slot _ _ _ _ _).1
        next =>
          cases sends
          exact onlySlot_setSlot state fd _
    next =>
      cases sends
      exact .refl fd _
  next => cases sends

/-- Only `deliver` delivers. -/
theorem step_delivered {action : Action} (owned : Owned state)
    (allowed : enabled config state action = true)
    (notDeliver : ∀ answers, action ≠ .deliver answers)
    (steps : step config state action = .ok after) : after.delivered = state.delivered := by
  cases action with
  | tick duration => cases steps; rfl
  | beginIteration => cases steps; rfl
  | checkTimeLimit answers =>
      obtain ⟨index, scanning⟩ := situation_of_enabled allowed
      simp only [step, scanning, State.scanStep] at steps
      split at steps
      next =>
        split at steps
        next => cases steps
        next checked checks =>
          cases steps
          rcases checkTimeLimit_cases (owned index) checks with rfl | rfl |
            ⟨request, answered, _, _, _, page, rfl⟩
          · rfl
          · rfl
          · rfl
      next => cases steps; rfl
  | popPerformed =>
      cases steps
      unfold State.popPerformed
      split <;> rfl
  | deliver answers => exact absurd rfl (notDeliver answers)
  | hangUp fd => cases steps; rfl
  | accept result => cases steps; exact (accept_onlySlot result).delivered
  | receive fd result modified allocated answers => exact (receive_onlySlot steps).delivered
  | chooseQueue answers =>
      obtain ⟨task, dispatched⟩ := situation_of_enabled allowed
      simp only [step, dispatched] at steps
      exact (chooseQueue_onlySlot steps).delivered
  | addTask =>
      obtain ⟨task, admitted⟩ := situation_of_enabled allowed
      simp only [step, admitted] at steps
      cases steps
      unfold State.addTask
      dsimp only
      split <;> rfl
  | send fd result modified => exact (send_onlySlot steps).delivered
  | workerTake id =>
      cases steps
      unfold State.workerTake
      split
      next => rfl
      next =>
        dsimp only
        split <;> rfl
  | workerFinish id response datetime entries =>
      cases steps
      unfold State.workerFinish
      split <;> rfl

/-- The stamp of a delivered task lies in the past. -/
theorem Invariant.delivered_before {task : Task} (invariant : Invariant config state)
    (done : task ∈ state.delivered) : task.timePoint < state.clock := by
  have member : task.tag ∈ state.tags ++ state.deliveredTags :=
    List.mem_append_right _ (List.mem_map_of_mem done)
  exact invariant.linked.times task.tag member

/-- Where nothing is sent, the record of a slot stays, except on a new connection. -/
theorem Wired.note_sent {action : Action} (wired : Wired) (after : State)
    (notSend : ∀ fd result modified, action ≠ .send fd result modified) (fd : Nat) :
    (wired.note action after).completed = wired.completed ∧
      ((wired.note action after).sent fd = wired.sent fd ∨
        (wired.note action after).sent fd = [] ∧
          ∃ result, action = .accept result ∧ ¬ result.connSock < 0 ∧
            fd = result.connSock.toNat) := by
  cases action with
  | send touched result modified => exact absurd rfl (notSend touched result modified)
  | accept result =>
      unfold Wired.note
      dsimp only
      split
      next => exact ⟨rfl, .inl rfl⟩
      next accepted =>
        by_cases same : fd = result.connSock.toNat
        · refine ⟨rfl, .inr ⟨?_, result, rfl, accepted, same⟩⟩
          simp only [same, Function.update_self]
        · exact ⟨rfl, .inl (Function.update_of_ne same ..)⟩
  | _ => exact ⟨rfl, .inl rfl⟩

theorem Wired.note_accept {result : AcceptResult} (wired : Wired) (after : State)
    (accepted : ¬ result.connSock < 0) :
    (wired.note (.accept result) after).sent result.connSock.toNat = [] := by
  simp [Wired.note, accepted]

private theorem WireInvariant.other {action : Action} (wire : WireInvariant config wired)
    (invariant : Invariant config wired.state)
    (allowed : enabled config wired.state action = true)
    (notSend : ∀ fd result modified, action ≠ .send fd result modified)
    (steps : step config wired.state action = .ok after)
    (effect : Effect config (fun _ => true) (fun _ => true) wired.state after)
    (added : ∀ task ∈ after.delivered, task ∈ wired.state.delivered ∨
      (task.timePoint = (wired.state.slots task.fd).aliveSocket ∧
        (task.timePoint = (after.slots task.fd).aliveSocket →
          (after.slots task.fd).interest = some .write ∧
          ∃ buffer, (after.slots task.fd).buffer = some buffer ∧
            Carries config task ((wired.note action after).sent task.fd ++ buffer.unsent)))) :
    WireInvariant config (wired.note action after) := by
  have record := wired.note_sent after notSend
  have slot := step_slot invariant allowed notSend steps
  have state := wired.note_state action after
  -- who was writing is not the new connection
  have sameRecord : ∀ fd, (wired.state.slots fd).interest = some .write →
      (wired.note action after).sent fd = wired.sent fd := by
    intro fd writes
    rcases (record fd).2 with same | ⟨_, result, rfl, accepted, rfl⟩
    · exact same
    · have free := ((situation_of_enabled allowed).2 (Int.not_lt.mp accepted)).1
      rw [free] at writes
      cases writes
  constructor
  · intro fd resting
    rw [state] at resting
    have before : (wired.state.slots fd).interest = some .read ∨
        (wired.state.slots fd).interest = some .idle → (wired.note action after).sent fd = [] := by
      intro rested
      rcases (record fd).2 with same | ⟨empty, _⟩
      · rw [same]
        exact wire.quiet fd rested
      · exact empty
    rcases slot fd with kept | ⟨_, notReading⟩ | rested | ⟨_, result, rfl, accepted, rfl⟩
    · rw [kept] at resting
      exact before resting
    · rcases notReading with closed | writes
      · simp [closed] at resting
      · simp [writes] at resting
    · exact before rested
    · exact wired.note_accept after accepted
  · intro entry member
    rw [(record 0).1] at member
    rw [state]
    have earlier := wire.stamped entry member
    have past := invariant.linked.alive entry.fd
    rcases effect.aliveSocket entry.fd with same | present <;> omega
  · intro task done stamped
    rw [state] at done stamped ⊢
    rcases added task done with old | ⟨_, fresh⟩
    · have earlier := invariant.delivered_before old
      have same : (after.slots task.fd).aliveSocket =
          (wired.state.slots task.fd).aliveSocket := by
        rcases effect.aliveSocket task.fd with same | present
        · exact same
        · omega
      obtain ⟨writes, buffer, has, carries⟩ := wire.current task old (stamped.trans same)
      rcases slot task.fd with kept | ⟨present, _⟩ | rested | ⟨free, _⟩
      · rw [kept, sameRecord task.fd writes]
        exact ⟨writes, buffer, has, carries⟩
      · omega
      · simp [writes] at rested
      · simp [writes] at free
    · exact fresh stamped
  · intro task done entry member owner stamp
    rw [state] at done
    rw [(record 0).1] at member
    rcases added task done with old | ⟨current, _⟩
    · exact wire.past task old entry member owner stamp
    · have earlier := wire.stamped entry member
      rw [owner] at earlier
      omega

private theorem WireInvariant.deliver {answers : Answers} {task : Task}
    (wire : WireInvariant config wired)
    (reachable : Reachable (server config) Unconditional wired.state)
    (delivering : wired.state.phase = .delivering task)
    (steps : wired.state.deliver config answers task = .ok after) :
    ∀ other ∈ after.delivered, other ∈ wired.state.delivered ∨
      (other.timePoint = (wired.state.slots other.fd).aliveSocket ∧
        (other.timePoint = (after.slots other.fd).aliveSocket →
          (after.slots other.fd).interest = some .write ∧
          ∃ buffer, (after.slots other.fd).buffer = some buffer ∧
            Carries config other (wired.sent other.fd ++ buffer.unsent))) := by
  have invariant := Invariant.of_reachable reachable
  unfold State.deliver at steps
  split at steps
  next current =>
    split at steps
    next => cases steps
    next stillOpen written writes =>
      cases steps
      have nonempty := invariant.stocked task delivering
      have idle := invariant.idle_of_delivering (by rw [delivering]; rfl) current
      have sameDelivered : written.delivered = wired.state.delivered := by
        rcases writeToOutputBuffer_cases nonempty writes with ⟨_, answered, _, rfl⟩ | ⟨_, rfl⟩
        · rfl
        · rfl
      intro other done
      rcases List.mem_cons.mp done with rfl | old
      · refine .inr ⟨current, ?_⟩
        intro stamped
        cases stillOpen with
        | true =>
            obtain ⟨buffer, filled, has, writesOutput, hasFilled, nowWrites⟩ :=
              writeToOutputBuffer_written writes
            obtain ⟨_, _, hasBuffer, _, open_⟩ := (invariant.sound other.fd).of_interest idle
            rw [has] at hasBuffer
            cases hasBuffer
            have start := (fresh_of_reachable reachable other.fd buffer has).2 (by simp [idle])
            refine ⟨nowWrites, filled, hasFilled, ?_⟩
            rw [wire.quiet other.fd (.inr idle), List.nil_append]
            exact Buffer.writeOutput_carries (open_.waiting rfl).1 start writesOutput
        | false =>
            rcases writeToOutputBuffer_cases nonempty writes with ⟨impossible, _⟩ | ⟨_, rfl⟩
            · cases impossible
            · have past := invariant.linked.alive other.fd
              simp only [State.closeAllSocketsAndClearData, Function.update_self] at stamped
              omega
      · rw [sameDelivered] at old
        exact .inl old
  next =>
    cases steps
    intro other done
    exact .inl done

/-- What an `EPOLLOUT` event can do: nothing, a part of the response, or its end, with or
without all bytes sent. -/
theorem send_cases {fd : Nat} {result : Option Nat} {modified : Bool}
    (sends : wired.state.send result modified fd = .ok after) :
    wired.note (.send fd result modified) after = { wired with state := wired.state } ∨
      (OnlySlot fd wired.state after ∧
        (after.slots fd).aliveSocket = wired.state.clock ∧
        (after.slots fd).interest = none ∧
        wired.note (.send fd result modified) after = { wired with state := after }) ∨
      ∃ buffer count, (wired.state.slots fd).buffer = some buffer ∧ result = some count ∧
        OnlySlot fd wired.state after ∧
        wired.note (.send fd result modified) after = wired.noteSend fd count buffer after ∧
        (((buffer.sent count).numberBytesToSend = 0 ∧
            (after.slots fd).aliveSocket = wired.state.clock) ∨
          ((buffer.sent count).numberBytesToSend ≠ 0 ∧
            after.slots fd =
              { wired.state.slots fd with buffer := some (buffer.sent count) })) := by
  unfold State.send at sends
  dsimp only at sends
  split at sends
  next buffer request has asked =>
    split at sends
    next guard =>
      split at sends
      next =>
        cases sends
        refine .inr (.inl ⟨onlySlot_close _ fd, ?_, ?_, rfl⟩)
        · simp [State.closeAllSocketsAndClearData]
        · simp [State.closeAllSocketsAndClearData]
      next count =>
        have noted : wired.note (.send fd (some count) modified) after =
            wired.noteSend fd count buffer after := by
          simp only [Wired.note, has, asked, guard, if_true]
        refine .inr (.inr ⟨buffer, count, has, rfl, ?_⟩)
        split at sends
        next finished =>
          cases sends
          obtain ⟨only, stamp⟩ := finishResponse_slot (wired.state.setSlot fd
            { wired.state.slots fd with buffer := some (buffer.sent count) }) modified fd
            (buffer.sent count) request
          exact ⟨(onlySlot_setSlot _ fd _).trans only, noted, .inl ⟨finished, stamp⟩⟩
        next unfinished =>
          cases sends
          refine ⟨onlySlot_setSlot _ fd _, noted, .inr ⟨unfinished, ?_⟩⟩
          simp [State.setSlot]
    next guard =>
      cases sends
      refine .inl ?_
      cases result with
      | none => rfl
      | some count => simp only [Wired.note, has, asked, guard, Bool.false_eq_true, if_false]
  next => cases sends

private theorem WireInvariant.restamped {fd : Nat} {sent : Nat → Bytes}
    {completed : List Transmission} (wire : WireInvariant config wired)
    (invariant : Invariant config wired.state) (only : OnlySlot fd wired.state after)
    (stamp : (after.slots fd).aliveSocket = wired.state.clock)
    (rest : (after.slots fd).interest = none ∨ sent fd = [])
    (others : ∀ other, other ≠ fd → sent other = wired.sent other)
    (entries : ∀ entry ∈ completed, entry ∈ wired.completed ∨
      (entry.fd = fd ∧ entry.stamp = (wired.state.slots fd).aliveSocket ∧
        ∀ buffer, (wired.state.slots fd).buffer = some buffer →
          entry.bytes = wired.sent fd ++ buffer.unsent)) :
    WireInvariant config ⟨after, sent, completed⟩ := by
  have past := invariant.linked.alive
  constructor
  · intro other resting
    by_cases same : other = fd
    · rw [same] at resting ⊢
      rcases rest with closed | empty
      · simp [closed] at resting
      · exact empty
    · simp only [only.others other same] at resting
      simp only [others other same]
      exact wire.quiet other resting
  · intro entry member
    rcases entries entry member with old | ⟨here, stamped, _⟩
    · have earlier := wire.stamped entry old
      by_cases same : entry.fd = fd
      · rw [same] at earlier ⊢
        simp only [stamp]
        exact Nat.lt_trans earlier (past fd)
      · simp only [only.others entry.fd same]
        exact earlier
    · rw [here, stamped]
      simp only [stamp]
      exact past fd
  · intro task done stamped
    simp only [only.delivered] at done
    by_cases same : task.fd = fd
    · have earlier := invariant.delivered_before done
      rw [same] at stamped
      simp only [stamp] at stamped
      omega
    · simp only [only.others task.fd same, others task.fd same] at stamped ⊢
      exact wire.current task done stamped
  · intro task done entry member owner stamped
    simp only [only.delivered] at done
    rcases entries entry member with old | ⟨here, entryStamp, bytes⟩
    · exact wire.past task done entry old owner stamped
    · -- the response that has just been sent to its end
      have sameFd : task.fd = fd := owner.symm.trans here
      obtain ⟨_, buffer, has, carries⟩ :=
        wire.current task done (by rw [← stamped, entryStamp, sameFd])
      rw [sameFd] at has carries
      rw [bytes buffer has]
      exact carries

private theorem Buffer.take_of_finished {buffer : Buffer} {count : Nat}
    (finished : (buffer.sent count).numberBytesToSend = 0) :
    buffer.unsent.take count = buffer.unsent := by
  have length : buffer.unsent.length ≤ buffer.numberBytesToSend := by
    rw [Buffer.unsent, List.length_take]
    exact Nat.min_le_left _ _
  apply List.take_of_length_le
  simp only [Buffer.sent] at finished
  omega

private theorem WireInvariant.send {fd : Nat} {result : Option Nat} {modified : Bool}
    (wire : WireInvariant config wired) (invariant : Invariant config wired.state)
    (writing : (wired.state.slots fd).interest = some .write)
    (sends : wired.state.send result modified fd = .ok after) :
    WireInvariant config (wired.note (.send fd result modified) after) := by
  rcases send_cases sends with same | ⟨only, stamp, closed, same⟩ |
    ⟨buffer, count, has, _, only, same, outcome⟩
  · rw [same]
    exact wire
  · rw [same]
    exact wire.restamped invariant only stamp (.inl closed) (fun _ _ => rfl)
      fun entry member => .inl member
  · rw [same]
    unfold Wired.noteSend
    dsimp only
    rcases outcome with ⟨finished, stamp⟩ | ⟨unfinished, slot⟩
    · rw [if_pos finished]
      refine wire.restamped invariant only stamp (.inr (Function.update_self ..))
        (fun other apart => Function.update_of_ne apart ..) ?_
      intro entry member
      rcases List.mem_cons.mp member with rfl | old
      · refine .inr ⟨rfl, rfl, ?_⟩
        intro other hasOther
        rw [has] at hasOther
        cases hasOther
        rw [Buffer.take_of_finished finished]
      · exact .inl old
    · rw [if_neg unfinished]
      have alive : ∀ other, (after.slots other).aliveSocket =
          (wired.state.slots other).aliveSocket := by
        intro other
        by_cases isFd : other = fd
        · rw [isFd, slot]
        · rw [only.others other isFd]
      constructor
      · intro other resting
        by_cases isFd : other = fd
        · simp [isFd, slot, writing] at resting
        · simp only [only.others other isFd] at resting
          simp only [Function.update_of_ne isFd]
          exact wire.quiet other resting
      · intro entry member
        simp only [alive]
        exact wire.stamped entry member
      · intro task done stamped
        simp only [only.delivered, alive] at done stamped
        obtain ⟨writes, before, hasBefore, carries⟩ := wire.current task done stamped
        by_cases isFd : task.fd = fd
        · rw [isFd] at hasBefore carries ⊢
          rw [has] at hasBefore
          cases hasBefore
          refine ⟨by simp [slot, writing], buffer.sent count, by simp [slot], ?_⟩
          simp only [Function.update_self, List.append_assoc, Buffer.unsent_sent]
          exact carries
        · simp only [only.others task.fd isFd, Function.update_of_ne isFd]
          exact ⟨writes, before, hasBefore, carries⟩
      · intro task done
        simp only [only.delivered] at done
        exact wire.past task done

/-- The record of every run. -/
theorem WireInvariant.of_reachable
    (reachable : Reachable (wiredServer config) Unconditional wired) :
    WireInvariant config wired := by
  induction reachable with
  | @start wired initial =>
      obtain ⟨starts, nothing, none_⟩ := initial
      have noDelivery := starts.history.2.2
      refine ⟨fun fd _ => nothing fd, ?_, ?_, ?_⟩
      · simp [none_]
      · simp [noDelivery]
      · simp [noDelivery]
  | @next wired next action before allowed _ steps wire =>
      obtain ⟨after, stepped, rfl⟩ := wired_step steps
      have reached := reachable_of_wired before
      have invariant := Invariant.of_reachable reached
      replace allowed : enabled config wired.state action = true := allowed
      have effect := step_effect invariant.owned invariant.stocked allowed
        (Permits.of_all config wired.state action) stepped
      by_cases isSend : ∃ fd result modified, action = .send fd result modified
      · obtain ⟨fd, result, modified, rfl⟩ := isSend
        exact wire.send invariant (situation_of_enabled allowed).2 stepped
      · simp only [not_exists] at isSend
        refine wire.other invariant allowed isSend stepped effect ?_
        by_cases isDeliver : ∃ answers, action = .deliver answers
        · obtain ⟨answers, rfl⟩ := isDeliver
          obtain ⟨task, delivering⟩ := situation_of_enabled allowed
          simp only [step, delivering] at stepped
          exact wire.deliver reached delivering stepped
        · simp only [not_exists] at isDeliver
          rw [step_delivered invariant.owned allowed isDeliver stepped]
          exact fun task done => .inl done

/-- **A delivered response goes out whole.** In every run, for every response that was
delivered: while its connection has the stamp of its request, what the client has been
sent of it and what is still in the buffer are the response; and every transmission with
that stamp that is complete is the response, byte for byte. -/
theorem delivered_responses_go_out_whole (config : Config) (wired : Wired)
    (reachable : Reachable (wiredServer config) Unconditional wired) (task : Task)
    (delivered : task ∈ wired.state.delivered) :
    (task.timePoint = (wired.state.slots task.fd).aliveSocket →
      ∃ buffer, (wired.state.slots task.fd).buffer = some buffer ∧
        Carries config task (wired.sent task.fd ++ buffer.unsent)) ∧
      ∀ entry ∈ wired.completed, entry.fd = task.fd → entry.stamp = task.timePoint →
        Carries config task entry.bytes := by
  have wire := WireInvariant.of_reachable reachable
  constructor
  · intro stamped
    obtain ⟨_, buffer, has, carries⟩ := wire.current task delivered stamped
    exact ⟨buffer, has, carries⟩
  · exact wire.past task delivered

end Steps

/-- The small server before it has sent anything. -/
private def smallWired : Wired :=
  ⟨smallState, fun _ => [], []⟩

private theorem smallWired_initial : (wiredServer smallConfig).initial smallWired :=
  ⟨smallState_initial, fun _ => rfl, rfl⟩

/-- One response of 129 bytes that goes out in two parts. -/
private def sentInTwo : List Action :=
  servedOnce ++
    [.deliver ⟨[], true⟩, .popPerformed, .send 1 (some 10) true, .send 1 (some 119) true]

/-- Some delivered task has a complete transmission of the given length. -/
private def Wired.wholeTest (length : Nat) (wired : Wired) : Bool :=
  wired.state.delivered.any fun task => wired.completed.any fun entry =>
    entry.fd == task.fd && entry.stamp == task.timePoint && entry.bytes.length == length

theorem response_in_two_parts_goes_out_whole :
    ∃ (wired : Wired) (task : Task) (entry : Transmission), task ∈ wired.state.delivered ∧
      entry ∈ wired.completed ∧
      entry.fd = task.fd ∧ entry.stamp = task.timePoint ∧ entry.bytes.length = 129 ∧
      Carries smallConfig task entry.bytes := by
  obtain ⟨wired, reachable, passes⟩ := (wiredServer smallConfig).exists_of_replay
    smallWired_initial (Wired.wholeTest 129)
    (show ((wiredServer smallConfig).replay Unconditional smallWired sentInTwo).any _ = true by
      decide +kernel)
  simp only [Wired.wholeTest, List.any_eq_true, Bool.and_eq_true, beq_iff_eq] at passes
  obtain ⟨task, delivered, entry, complete, ⟨owner, stamp⟩, length⟩ := passes
  have whole := (delivered_responses_go_out_whole smallConfig wired reachable task delivered).2
  exact ⟨wired, task, entry, delivered, complete, owner, stamp, length,
    whole entry complete owner stamp⟩

end Onyxup.Server
