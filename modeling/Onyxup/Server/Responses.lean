import Onyxup.Server.Delivery

/-!
Contract: how many responses a cycle gets, and whether they can be sent.

Owns: the condition under which a cycle gets at most one response, the condition
under which a queued response passes the send guard, a run that breaks each, and the
answer to a `recv` that reads nothing.

Does not own: the responses of tasks. Those are guarded by the time stamp; the
408 and 413 answers of the loop are not, and both conditions are about them.
-/

set_option autoImplicit false

namespace Onyxup.Server

open Onyxup.Lib.CString
open Onyxup.Lib.Memory
open Onyxup.Lib.Transition
open Onyxup.Http

/-! ## Properties of single slots -/

/-- A property that no move of a sound slot breaks, that a slot keeps when its
request is dispatched, and that every answer to an idle slot keeps, is kept by
every step. -/
theorem slotwise_step {config : Config} {mayExpire mayRefuse : Slot → Bool}
    {state after : State} {holds : Slot → Prop} (invariant : Invariant config state)
    (onMove : ∀ {fd : Nat} {slot moved : Slot}, Sound config fd slot → holds slot →
      Move config fd mayExpire mayRefuse state.clock state.cyclesStarted slot moved → holds moved)
    (onDispatch : ∀ {slot read : Slot} {seen : Content}, holds slot →
      ReadChunk config slot (.dispatch seen) read → holds { read with interest := some .idle })
    (onAnswer : ∀ {fd : Nat} {slot answered : Slot}, Sound config fd slot → holds slot →
      slot.interest = some .idle → Answered config slot slot.request answered → holds answered)
    (all : ∀ fd, holds (state.slots fd))
    (effect : Effect config mayExpire mayRefuse state after) :
    ∀ fd, holds (after.slots fd) := by
  have update : ∀ {fd : Nat} {slot : Slot}, holds slot →
      ∀ other, holds (Function.update state.slots fd slot other) := by
    intro fd slot own
    rw [Function.forall_update_iff state.slots fun _ => holds]
    exact ⟨own, fun other _ => all other⟩
  cases effect with
  | quiet slots => exact slots ▸ all
  | queued slots => exact slots ▸ all
  | moved move slots =>
      rw [slots]
      exact update (onMove (invariant.sound _) (all _) move)
  | dispatched read slots =>
      rw [slots]
      exact update (onDispatch (all _) read)
  | notFound read page slots =>
      rw [slots]
      exact update (onAnswer (read.sound_of_dispatch (invariant.sound _))
        (onDispatch (all _) read) rfl page)
  | turnedDown held page slots =>
      rw [slots]
      exact update (onAnswer (invariant.sound _) (all _) (invariant.idle_of_pending held) page)
  | @delivered task answered held current outcome slots =>
      rw [slots]
      rcases outcome with page | closed
      · exact update (onAnswer (invariant.sound _) (all _)
          (invariant.idle_of_delivering held current) page)
      · rw [closed]
        exact update (onMove (invariant.sound task.fd) (all task.fd) .closed)

/-- The same over whole runs. -/
theorem slotwise_of_reachable {config : Config} {mayExpire mayRefuse : Slot → Bool}
    {holds : Slot → Prop}
    (onFree : ∀ {slot : Slot}, slot.buffer = none → slot.interest = none → holds slot)
    (onMove : ∀ {fd clock number : Nat} {slot moved : Slot}, Sound config fd slot →
      holds slot → Move config fd mayExpire mayRefuse clock number slot moved → holds moved)
    (onDispatch : ∀ {slot read : Slot} {seen : Content}, holds slot →
      ReadChunk config slot (.dispatch seen) read → holds { read with interest := some .idle })
    (onAnswer : ∀ {fd : Nat} {slot answered : Slot}, Sound config fd slot → holds slot →
      slot.interest = some .idle → Answered config slot slot.request answered → holds answered)
    {state : State}
    (reachable : Reachable (server config) (Permits config mayExpire mayRefuse) state) :
    ∀ fd, holds (state.slots fd) := by
  induction reachable with
  | start initial => exact fun fd => onFree (initial.free fd).1 (initial.free fd).2.2
  | next before allowed permits steps inductionHypothesis =>
      have invariant := Invariant.of_reachable before
      have effect := step_effect invariant.owned invariant.stocked allowed permits steps
      exact slotwise_step invariant onMove onDispatch onAnswer inductionHypothesis effect

/-! ## One response per cycle -/

/-- Nothing unsent is in the output buffer. -/
def Slot.drained (slot : Slot) : Bool :=
  match slot.buffer with
  | some buffer => buffer.numberBytesToSend == 0
  | none => true

/-- Every 408 answer finds the output buffer drained. -/
def TimeOutsDrained (config : Config) : State → Action → Prop :=
  Permits config Slot.drained (fun _ => true)

instance (config : Config) (state : State) (action : Action) :
    Decidable (TimeOutsDrained config state action) :=
  inferInstanceAs (Decidable (Permits _ _ _ _ _))

/-- A slot that writes, writes its only response. -/
def Slot.AnsweredOnce (slot : Slot) : Prop :=
  slot.interest = some .write → slot.cycle.responses = 1

section AnsweredOnce

variable {config : Config} {fd : Nat} {slot after : Slot}

private theorem unanswered_of_sound {interest : Interest} (sound : Sound config fd slot)
    (has : slot.interest = some interest) (notWriting : interest ≠ .write) :
    slot.cycle.responses = 0 := by
  obtain ⟨buffer, request, _, _, open_⟩ := sound.of_interest has
  cases interest with
  | read => exact (open_.reading rfl).unanswered
  | write => exact absurd rfl notWriting
  | idle => exact (open_.waiting rfl).2.2

private theorem answeredOnce_of_answer {request : Option Request}
    (page : Answered config slot request after) (unanswered : slot.cycle.responses = 0) :
    after.AnsweredOnce := by
  intro _
  rw [page.frame.2.2.2, unanswered]

private theorem answeredOnce_of_move {mayRefuse : Slot → Bool} {clock number : Nat}
    (sound : Sound config fd slot) (once : slot.AnsweredOnce)
    (move : Move config fd Slot.drained mayRefuse clock number slot after) :
    after.AnsweredOnce := by
  intro writing
  rcases move.writing_cases writing with ⟨wrote, _, sameCycle⟩ |
    ⟨_, reading, _, _, _, responses⟩ | ⟨_, permitted, asked, _, _, responses⟩
  · rw [sameCycle]
    exact once wrote
  · rw [responses, unanswered_of_sound sound reading (by simp)]
  · -- A slot that writes is not drained, so this one reads or is idle.
    obtain ⟨interest, buffer, has, hasBuffer, open_⟩ := sound.of_request asked
    have drained : buffer.numberBytesToSend = 0 := by
      simpa [Slot.drained, hasBuffer] using permitted
    have notWriting : interest ≠ .write := by
      intro writing
      have pending := open_.writing writing
      omega
    rw [responses, unanswered_of_sound sound has notWriting]

end AnsweredOnce

/-- **At most one response per request.** In every run in which no 408 answer
finds unsent bytes in the output buffer, no cycle gets a second response. -/
theorem one_response_per_cycle (config : Config) (state : State)
    (reachable : Reachable (server config) (TimeOutsDrained config) state) (fd : Nat) :
    (state.slots fd).cycle.responses ≤ 1 := by
  have sound := (Invariant.of_reachable reachable).sound fd
  have once : (state.slots fd).AnsweredOnce := by
    refine slotwise_of_reachable (fun _ free writing => ?_) answeredOnce_of_move
      (fun _ _ writing => ?_) (fun sound _ idle page => ?_) reachable fd
    · rw [free] at writing
      cases writing
    · cases writing
    · exact answeredOnce_of_answer page (unanswered_of_sound sound idle (by simp))
  cases sound with
  | free _ _ _ unanswered => omega
  | @connected interest buffer request has hasBuffer hasRequest open_ =>
      by_cases writing : interest = .write
      · have exactly := once (by rw [has, writing])
        omega
      · have unanswered := unanswered_of_sound
          (.connected has hasBuffer hasRequest open_) has writing
        omega

/-- A request for which there is no route. -/
def simplePost : Bytes :=
  ascii "POST / HTTP/1.1\r\n\r\n"

/-- The scan of both descriptors, sixty-one seconds later. -/
def timeOutScan : List Action :=
  [.tick 61000000000, .beginIteration, .checkTimeLimit ⟨[], true⟩, .checkTimeLimit ⟨[], true⟩]

/-- The 404 page alone is one response. -/
theorem one_response_after_not_found :
    ∃ state : State, (state.slots 1).cycle.responses = 1 ∧
      ∀ fd, (state.slots fd).cycle.responses ≤ 1 := by
  obtain ⟨state, reachable, passes⟩ := (server smallConfig).exists_of_replay
    smallState_initial (fun state => decide ((state.slots 1).cycle.responses = 1))
    (show ((server smallConfig).replay (TimeOutsDrained smallConfig) smallState
      [clientConnects, clientSends simplePost]).any _ = true by decide +kernel)
  exact ⟨state, of_decide_eq_true passes, one_response_per_cycle smallConfig state reachable⟩

/-- A client that does not read its 404 page gets a 408 page on top of it. -/
theorem second_response_after_time_out :
    ∃ state, Reachable (server smallConfig) Unconditional state ∧
      ¬ (state.slots 1).cycle.responses ≤ 1 := by
  obtain ⟨state, reachable, passes⟩ := (server smallConfig).exists_of_replay
    smallState_initial (fun state => decide (¬ (state.slots 1).cycle.responses ≤ 1))
    (show ((server smallConfig).replay Unconditional smallState
      ([clientConnects, clientSends simplePost] ++ timeOutScan)).any _ = true by decide +kernel)
  exact ⟨state, reachable, of_decide_eq_true passes⟩

/-! ## A queued response can be sent -/

/-- No body is announced that has not arrived. -/
def Slot.uploadComplete (slot : Slot) : Bool :=
  match slot.request with
  | some request => !(request.bodyExists && !request.bodyAccept)
  | none => true

/-- No answer of the loop's own meets an upload in progress. -/
def NoAnswerDuringUpload (config : Config) : State → Action → Prop :=
  Permits config Slot.uploadComplete Slot.uploadComplete

instance (config : Config) (state : State) (action : Action) :
    Decidable (NoAnswerDuringUpload config state action) :=
  inferInstanceAs (Decidable (Permits _ _ _ _ _))

/-- The request of a slot that writes passes the send guard. -/
def Slot.Sendable (slot : Slot) : Prop :=
  slot.interest = some .write → ∀ request, slot.request = some request → ready request

section Sendable

variable {config : Config} {fd : Nat} {slot after : Slot}

private theorem complete_of_uploadComplete {request : Request}
    (complete : slot.uploadComplete = true) (asked : slot.request = some request) :
    request.bodyExists = true → request.bodyAccept = true := by
  intro announced
  simpa [Slot.uploadComplete, asked, announced] using complete

private theorem sendable_of_answer {request : Request}
    (page : Answered config slot (some request) after) (isReady : ready request) :
    after.Sendable := by
  intro _ asking asked
  rw [page.frame.2.2.1] at asked
  cases asked
  exact isReady

private theorem sendable_of_move {clock number : Nat} (sound : Sound config fd slot)
    (sendable : slot.Sendable)
    (move : Move config fd Slot.uploadComplete Slot.uploadComplete clock number slot after) :
    after.Sendable := by
  intro writing asking asks
  rcases move.writing_cases writing with ⟨wrote, sameRequest, _⟩ |
    ⟨request, _, permitted, asked, changed, _⟩ | ⟨request, permitted, asked, named, changed, _⟩
  · rw [sameRequest] at asks
    exact sendable wrote asking asks
  · have complete := complete_of_uploadComplete permitted asked
    rw [changed] at asks
    cases asks
    exact ⟨rfl, complete⟩
  · obtain ⟨_, _, _, _, open_⟩ := sound.of_request asked
    have complete := complete_of_uploadComplete permitted asked
    rw [changed] at asks
    cases asks
    exact ⟨open_.named named, complete⟩

end Sendable

/-- **A queued response can always be transmitted.** In every run in which no 408
and no 413 answer meets an upload in progress, a connection with unsent bytes
passes the guard of the send branch. -/
theorem queued_response_passes_guard (config : Config) (state : State)
    (reachable : Reachable (server config) (NoAnswerDuringUpload config) state) (fd : Nat)
    (buffer : Buffer) (request : Request) (has : (state.slots fd).buffer = some buffer)
    (asked : (state.slots fd).request = some request) (queued : 0 < buffer.numberBytesToSend) :
    State.sendGuard buffer request = true := by
  have sound := (Invariant.of_reachable reachable).sound fd
  have sendable : (state.slots fd).Sendable := by
    refine slotwise_of_reachable (fun _ free writing => ?_) sendable_of_move
      (fun _ _ writing => ?_) (fun sound _ idle page => ?_) reachable fd
    · rw [free] at writing
      cases writing
    · cases writing
    · obtain ⟨_, asking, _, hasRequest, open_⟩ := sound.of_interest idle
      rw [hasRequest] at page
      exact sendable_of_answer page (open_.waiting rfl).2.1
  obtain ⟨interest, same, registered, hasBuffer, open_⟩ := sound.of_request asked
  rw [has] at hasBuffer
  cases hasBuffer
  have writing : interest = .write := by
    cases interest with
    | read => have drained := (open_.reading rfl).drained; omega
    | idle => have drained := (open_.waiting rfl).1; omega
    | write => rfl
  obtain ⟨accepted, complete⟩ := sendable (by rw [registered, writing]) request asked
  cases announced : request.bodyExists with
  | false => simp [State.sendGuard, queued, accepted, announced]
  | true => simp [State.sendGuard, queued, accepted, announced, complete announced]

/-- The 404 page passes the guard. -/
theorem not_found_page_passes_guard :
    ∃ (state : State) (buffer : Buffer) (request : Request),
      (state.slots 1).buffer = some buffer ∧ (state.slots 1).request = some request ∧
      0 < buffer.numberBytesToSend ∧ State.sendGuard buffer request = true := by
  obtain ⟨state, reachable, passes⟩ := (server smallConfig).exists_of_replay
    smallState_initial
    (fun state => state.connectionTest 1 fun connection =>
      decide (0 < connection.buffer.numberBytesToSend))
    (show ((server smallConfig).replay (NoAnswerDuringUpload smallConfig) smallState
      [clientConnects, clientSends simplePost]).any _ = true by decide +kernel)
  obtain ⟨buffer, request, has, asked, passes⟩ := State.connectionTest_true passes
  have queued : 0 < buffer.numberBytesToSend := of_decide_eq_true passes
  exact ⟨state, buffer, request, has, asked, queued,
    queued_response_passes_guard smallConfig state reachable 1 buffer request has asked queued⟩

/-- A header block that announces five bytes, and no body. -/
def uploadBegins : Bytes :=
  ascii "POST / HTTP/1.1\r\nContent-Length: 5\r\n\r\n"

/-- An upload that stalls is answered with 408, and the page is never sent: the
connection has unsent bytes and fails the guard. -/
theorem time_out_page_stuck_after_stalled_upload :
    ∃ (state : State) (buffer : Buffer) (request : Request),
      Reachable (server smallConfig) Unconditional state ∧
      (state.slots 1).buffer = some buffer ∧ (state.slots 1).request = some request ∧
      0 < buffer.numberBytesToSend ∧ State.sendGuard buffer request = false := by
  obtain ⟨state, reachable, passes⟩ := (server smallConfig).exists_of_replay
    smallState_initial
    (fun state => state.connectionTest 1 fun connection =>
      decide (0 < connection.buffer.numberBytesToSend) &&
        !State.sendGuard connection.buffer connection.request)
    (show ((server smallConfig).replay Unconditional smallState
      ([clientConnects, clientSends uploadBegins] ++ timeOutScan)).any _ = true by
      decide +kernel)
  obtain ⟨buffer, request, has, asked, passes⟩ := State.connectionTest_true passes
  simp only [Bool.and_eq_true, decide_eq_true_eq, Bool.not_eq_true'] at passes
  exact ⟨state, buffer, request, reachable, has, asked, passes.1, passes.2⟩

/-! ## A `recv` that reads nothing -/

/-- The event has left the connection as it was: its buffer, its request, its interest, and
no response more. -/
def LeavesAlone (state : State) (fd : Nat) (outcome : Except Fault State) : Prop :=
  ∃ after, outcome = .ok after ∧
    (after.slots fd).buffer = (state.slots fd).buffer ∧
    (after.slots fd).request = (state.slots fd).request ∧
    (after.slots fd).interest = (state.slots fd).interest ∧
    (after.slots fd).cycle.responses = (state.slots fd).cycle.responses

/-- The `EPOLLIN` event with `EWOULDBLOCK` or `EINPROGRESS`. -/
def wouldBlockEvent (fd : Nat) (modified allocated : Bool) (answers : Answers) : Action :=
  .receive fd .wouldBlock modified allocated answers

/-- Behind received bytes the copy of `size_t(-1)` bytes begins; in front of the first ones
the connection is refused with a 413 page. -/
theorem wouldBlock_cases {config : Config} {state : State} {fd : Nat}
    (sound : Sound config fd (state.slots fd)) (reads : (state.slots fd).interest = some .read)
    (modified allocated : Bool) (answers : Answers) :
    ∃ buffer request, (state.slots fd).buffer = some buffer ∧
      (state.slots fd).request = some request ∧
      (0 < buffer.posInputBuffer →
        step config state (wouldBlockEvent fd modified allocated answers) =
          .error .bufferOverflow) ∧
      ∀ after, step config state (wouldBlockEvent fd modified allocated answers) = .ok after →
        buffer.posInputBuffer = 0 ∧ Answered config (state.slots fd)
          (some { request with closingConnect := true, headerAccept := true })
          (after.slots fd) := by
  obtain ⟨buffer, request, hasBuffer, hasRequest, open_⟩ := sound.of_interest reads
  obtain ⟨memory, filled⟩ := (open_.reading rfl).filled
  have overflows : 0 < buffer.posInputBuffer →
      step config state (wouldBlockEvent fd modified allocated answers) =
        .error .bufferOverflow := by
    intro positive
    have position := filled.position
    have inside := filled.inside
    have size := filled.memorySize
    have small := filled.position_small
    have length := open_.inputLength
    have wraps : (toSizeT ((buffer.posInputBuffer : Int) - 1) : Int) = buffer.posInputBuffer - 1 :=
      toSizeT_of_small (by omega) (by omega)
    simp only [step, wouldBlockEvent, State.receive, hasBuffer]
    rw [if_neg (by omega)]
  refine ⟨buffer, request, hasBuffer, hasRequest, overflows, ?_⟩
  intro after stepped
  constructor
  · by_contra positive
    rw [overflows (by omega)] at stepped
    cases stepped
  · simp only [step, wouldBlockEvent, State.receive, hasBuffer] at stepped
    split at stepped
    next =>
      obtain ⟨asking, answered, asked, page, rfl⟩ := refuseInput_cases stepped
      rw [hasRequest] at asked
      cases asked
      simpa only [State.setSlot, Function.update_self] using page
    next => cases stepped

/-- **A `recv` that reads nothing never leaves the connection alone.** In every reachable state
the event either faults or queues a 413 page. -/
theorem wouldBlock_never_leaves_alone (config : Config) (state : State)
    (reachable : Reachable (server config) Unconditional state) (fd : Nat)
    (modified allocated : Bool) (answers : Answers)
    (possible : (server config).enabled state
      (wouldBlockEvent fd modified allocated answers) = true) :
    ¬ LeavesAlone state fd
      ((server config).step state (wouldBlockEvent fd modified allocated answers)) := by
  obtain ⟨_, reads, _⟩ : Situation config state (wouldBlockEvent fd modified allocated answers) :=
    situation_of_enabled possible
  have sound := (Invariant.of_reachable reachable).sound fd
  obtain ⟨_, _, _, _, _, answered⟩ :=
    wouldBlock_cases sound reads modified allocated answers
  rintro ⟨after, stepped, _, _, sameInterest, _⟩
  obtain ⟨_, page⟩ := answered after stepped
  rw [page.frame.1, reads] at sameInterest
  cases sameInterest

/-- The event on a connection that has sent nothing. -/
theorem silent_connection_not_left_alone :
    ∃ state : State, (server smallConfig).enabled state
        (wouldBlockEvent 1 true true ⟨[], true⟩) = true ∧
      ¬ LeavesAlone state 1
        ((server smallConfig).step state (wouldBlockEvent 1 true true ⟨[], true⟩)) := by
  obtain ⟨state, reachable, possible⟩ := (server smallConfig).exists_of_replay
    smallState_initial
    (fun state => (server smallConfig).enabled state (wouldBlockEvent 1 true true ⟨[], true⟩))
    (show ((server smallConfig).replay Unconditional smallState [clientConnects]).any _ = true by
      decide +kernel)
  exact ⟨state, possible, wouldBlock_never_leaves_alone smallConfig state reachable 1 true true
    ⟨[], true⟩ possible⟩

/-- Nothing comes behind the header block of an upload: the copy overflows the buffer. -/
theorem wouldBlock_overflows_during_upload :
    ∃ state, Reachable (server smallConfig) Unconditional state ∧
      (server smallConfig).enabled state (wouldBlockEvent 1 true true ⟨[], true⟩) = true ∧
      ¬ LeavesAlone state 1
        ((server smallConfig).step state (wouldBlockEvent 1 true true ⟨[], true⟩)) := by
  obtain ⟨state, reachable, passes⟩ := (server smallConfig).exists_of_replay
    smallState_initial
    (fun state => (server smallConfig).enabled state (wouldBlockEvent 1 true true ⟨[], true⟩) &&
      !((server smallConfig).step state (wouldBlockEvent 1 true true ⟨[], true⟩)).isOk)
    (show ((server smallConfig).replay Unconditional smallState
      [clientConnects, clientSends uploadBegins]).any _ = true by decide +kernel)
  obtain ⟨possible, faults⟩ := Bool.and_eq_true_iff.mp passes
  refine ⟨state, reachable, possible, ?_⟩
  rintro ⟨after, stepped, _⟩
  rw [stepped] at faults
  cases faults

end Onyxup.Server
