import Onyxup.Server.Loop

/-!
Contract: the life of one descriptor.

Owns: the moves that the server can make with one slot, whatever the step they
belong to, the invariant `Sound` of a slot, and the proof that every move keeps
it.

Does not own: which step makes which move, and the tasks in flight.

A connection reads a request, is idle while a task is out, writes a response,
and reads again or is closed. `Sound` says what the buffer and the request look
like in each of these.
-/

set_option autoImplicit false

namespace Onyxup.Server

open Onyxup.Lib.CString
open Onyxup.Lib.Memory
open Onyxup.Http
open Onyxup.Response

/-! ## Moves -/

section Moves

variable (config : Config) (fd : Nat)

/-- A response, or the 413 page in its place, is placed in the output buffer. -/
inductive Answered (slot : Slot) (request : Option Request) : Slot → Prop where
  | intro {buffer written : Buffer} {data page : Bytes} (has : slot.buffer = some buffer)
      (dataNonempty : data ≠ []) (pageNonempty : page ≠ [])
      (writes : buffer.writeOutput config.maxOutputBufferLength page data = .ok written) :
      Answered slot request { slot with
        buffer := some written
        request := request
        interest := some .write
        cycle := { slot.cycle with responses := slot.cycle.responses + 1 } }

/-- A chunk is read with the given decision. -/
inductive ReadChunk (slot : Slot) (decision : Decision) : Slot → Prop where
  | intro {bytes : Bytes} {buffer : Buffer} {request : Request} {connection : Connection}
      (reading : slot.interest = some .read) (nonempty : bytes ≠ [])
      (has : slot.buffer = some buffer) (asked : slot.request = some request)
      (read : Connection.receive config.maxInputBufferLength ⟨buffer, request⟩ bytes =
        .ok (decision, connection)) :
      ReadChunk slot decision { slot with
        buffer := some connection.buffer
        request := some connection.request
        cycle := { slot.cycle with received := slot.cycle.received ++ bytes } }

variable {config} in
theorem Answered.frame {slot after : Slot} {request : Option Request}
    (page : Answered config slot request after) :
    after.interest = some .write ∧ after.aliveSocket = slot.aliveSocket ∧
      after.request = request ∧ after.cycle.responses = slot.cycle.responses + 1 := by
  obtain ⟨_, _, _, _⟩ := page
  exact ⟨rfl, rfl, rfl, rfl⟩

variable {config} in
theorem ReadChunk.frame {slot after : Slot} {decision : Decision}
    (read : ReadChunk config slot decision after) :
    slot.interest = some .read ∧ after.aliveSocket = slot.aliveSocket ∧
      after.cycle.responses = slot.cycle.responses := by
  obtain ⟨reading, _, _, _, _⟩ := read
  exact ⟨reading, rfl, rfl⟩

/-- The moves that do not concern a task. `clock` and `number` are the readings
that a move takes if it needs them; `mayExpire` and `mayRefuse` are conditions on
the slots that are answered with 408 and with 413 while they read. -/
inductive Move (mayExpire mayRefuse : Slot → Bool) (clock number : Nat) : Slot → Slot → Prop where
  | opened {slot : Slot} {inputMemory outputMemory : Bytes} {granted : Bool} {buffer : Buffer}
      (free : slot.interest = none)
      (made : bufferFactory config.maxInputBufferLength config.maxOutputBufferLength
        inputMemory outputMemory granted = some buffer) :
      Move mayExpire mayRefuse clock number slot
        ⟨some buffer, some (requestFactory fd config.maxOutputBufferLength), clock,
          some .read, ⟨number, [], 0⟩⟩
  | closed {slot : Slot} :
      Move mayExpire mayRefuse clock number slot ⟨none, none, clock, none, ⟨number, [], 0⟩⟩
  | turnedAway {slot : Slot} {request : Option Request} (free : slot.interest = none)
      (kept : request = slot.request ∨ request = none) :
      Move mayExpire mayRefuse clock number slot
        { slot with buffer := none, request := request, aliveSocket := clock }
  | waited {slot after : Slot} (read : ReadChunk config slot .wait after) :
      Move mayExpire mayRefuse clock number slot after
  | refused {slot answered : Slot} {request : Request} {received : Bytes}
      (reading : slot.interest = some .read) (permitted : mayRefuse slot = true)
      (asked : slot.request = some request)
      (page : Answered config { slot with cycle := { slot.cycle with received := received } }
        (some { request with closingConnect := true, headerAccept := true }) answered) :
      Move mayExpire mayRefuse clock number slot answered
  | expired {slot answered : Slot} {request : Request} (permitted : mayExpire slot = true)
      (asked : slot.request = some request) (named : request.fullUri ≠ [])
      (page : Answered config slot (some { request with closingConnect := true }) answered) :
      Move mayExpire mayRefuse clock number slot { answered with aliveSocket := clock }
  | sent {slot : Slot} {buffer : Buffer} {count : Nat} (writing : slot.interest = some .write)
      (has : slot.buffer = some buffer) (unfinished : (buffer.sent count).numberBytesToSend ≠ 0) :
      Move mayExpire mayRefuse clock number slot { slot with buffer := some (buffer.sent count) }
  | reset {slot : Slot} {buffer : Buffer} {request : Request} (count : Nat)
      (writing : slot.interest = some .write) (has : slot.buffer = some buffer)
      (asked : slot.request = some request) (stays : request.closingConnect = false) :
      Move mayExpire mayRefuse clock number slot
        ⟨some (buffer.sent count).clear, some request.clear, clock, some .read, ⟨number, [], 0⟩⟩

end Moves

/-! ## The invariant of a slot -/

/-- The request may be sent an answer: the flags of the send guard. -/
def ready (request : Request) : Prop :=
  request.headerAccept = true ∧ (request.bodyExists = true → request.bodyAccept = true)

/-- A connection that reads. -/
structure Reading (config : Config) (fd : Nat) (cycle : Cycle) (buffer : Buffer)
    (request : Request) : Prop where
  stays : request.closingConnect = false
  noBody : request.bodyAccept = false ∧ request.body = []
  drained : buffer.numberBytesToSend = 0
  unanswered : cycle.responses = 0
  filled : ∃ memory, buffer.Filled memory cycle.received
  fresh : cycle.received = [] → request = requestFactory fd config.maxOutputBufferLength
  uploading : request.headerAccept = true → request.bodyExists = true

/-- An open connection. -/
structure Connected (config : Config) (fd : Nat) (cycle : Cycle) (interest : Interest)
    (buffer : Buffer) (request : Request) : Prop where
  owner : request.fd = fd
  limit : request.maxOutputBufferLength = config.maxOutputBufferLength
  inputLength : buffer.inputBufferLength = config.maxInputBufferLength
  named : request.fullUri ≠ [] → request.headerAccept = true
  reading : interest = .read → Reading config fd cycle buffer request
  waiting : interest = .idle →
    buffer.numberBytesToSend = 0 ∧ ready request ∧ cycle.responses = 0
  writing : interest = .write → 0 < buffer.numberBytesToSend

/-- A descriptor that is not open has no buffer and no request; one that is open
has both. -/
inductive Sound (config : Config) (fd : Nat) : Slot → Prop where
  | free {slot : Slot} (noInterest : slot.interest = none) (noBuffer : slot.buffer = none)
      (noRequest : slot.request = none) (unanswered : slot.cycle.responses = 0) :
      Sound config fd slot
  | connected {slot : Slot} {interest : Interest} {buffer : Buffer} {request : Request}
      (has : slot.interest = some interest) (hasBuffer : slot.buffer = some buffer)
      (hasRequest : slot.request = some request)
      (open_ : Connected config fd slot.cycle interest buffer request) :
      Sound config fd slot

namespace Sound

variable {config : Config} {fd : Nat} {slot : Slot}

/-- Elimination at a known interest. -/
theorem of_interest {interest : Interest} (sound : Sound config fd slot)
    (has : slot.interest = some interest) :
    ∃ buffer request, slot.buffer = some buffer ∧ slot.request = some request ∧
      Connected config fd slot.cycle interest buffer request := by
  cases sound with
  | free noInterest => rw [noInterest] at has; cases has
  | connected hasOther hasBuffer hasRequest open_ =>
      rw [hasOther] at has
      cases has
      exact ⟨_, _, hasBuffer, hasRequest, open_⟩

/-- Elimination at a known interest, buffer and request. -/
theorem connected_at {interest : Interest} {buffer : Buffer} {request : Request}
    (sound : Sound config fd slot) (has : slot.interest = some interest)
    (hasBuffer : slot.buffer = some buffer) (hasRequest : slot.request = some request) :
    Connected config fd slot.cycle interest buffer request := by
  obtain ⟨_, _, sameBuffer, sameRequest, open_⟩ := sound.of_interest has
  rw [hasBuffer] at sameBuffer
  rw [hasRequest] at sameRequest
  cases sameBuffer
  cases sameRequest
  exact open_

/-- Elimination at a request. -/
theorem of_request {request : Request} (sound : Sound config fd slot)
    (asked : slot.request = some request) :
    ∃ interest buffer, slot.interest = some interest ∧ slot.buffer = some buffer ∧
      Connected config fd slot.cycle interest buffer request := by
  cases sound with
  | free _ _ noRequest => rw [noRequest] at asked; cases asked
  | connected has hasBuffer hasRequest open_ =>
      rw [hasRequest] at asked
      cases asked
      exact ⟨_, _, has, hasBuffer, open_⟩

end Sound

/-! ## Every move keeps it -/

section Keeping

variable {config : Config} {fd : Nat} {slot after : Slot}

/-- An answer to a connection, whatever it was doing. -/
theorem Answered.sound {interest : Interest} {buffer : Buffer} {request changed : Request}
    {cycle : Cycle} (page : Answered config slot (some changed) after)
    (has : slot.buffer = some buffer)
    (open_ : Connected config fd cycle interest buffer request)
    (owner : changed.fd = request.fd)
    (limit : changed.maxOutputBufferLength = request.maxOutputBufferLength)
    (named : changed.fullUri ≠ [] → changed.headerAccept = true) : Sound config fd after := by
  obtain ⟨hasBuffer, dataNonempty, pageNonempty, writes⟩ := page
  rw [has] at hasBuffer
  cases hasBuffer
  obtain ⟨positive, sameLength⟩ := Buffer.writeOutput_ok dataNonempty pageNonempty writes
  refine .connected rfl rfl rfl ⟨owner.trans open_.owner, limit.trans open_.limit,
    sameLength.trans open_.inputLength, named, ?_, ?_, fun _ => positive⟩
  · intro impossible
    cases impossible
  · intro impossible
    cases impossible

/-- A chunk after which the connection goes on reading. -/
theorem ReadChunk.sound_of_wait (sound : Sound config fd slot)
    (read : ReadChunk config slot .wait after) : Sound config fd after := by
  obtain ⟨reading, nonempty, has, asked, received⟩ := read
  have open_ := sound.connected_at reading has asked
  obtain ⟨sameSend, sameLength, closing, owner, limit⟩ := Connection.receive_frame received
  obtain ⟨added, sameAccept, sameBody, shape⟩ := Connection.receive_wait received
  obtain ⟨stays, noBody, drained, unanswered, ⟨memory, filled⟩, _, uploading⟩ :=
    open_.reading rfl
  refine .connected reading rfl rfl ⟨owner.trans open_.owner, limit.trans open_.limit,
    sameLength.trans open_.inputLength, ?_, fun _ => ?_, ?_, ?_⟩
  · rcases shape with same | ⟨accepted, _⟩
    · rw [same]
      exact open_.named
    · exact fun _ => accepted
  · refine ⟨closing.trans stays, ⟨sameAccept.trans noBody.1, sameBody.trans noBody.2⟩,
      sameSend.trans drained, unanswered, ⟨memory, filled.of_added added⟩, ?_, ?_⟩
    · intro empty
      exact absurd (List.append_eq_nil_iff.mp empty).2 nonempty
    · rcases shape with same | ⟨_, announces⟩
      · rw [same]
        exact uploading
      · exact fun _ => announces
  · intro impossible
    cases impossible
  · intro impossible
    cases impossible

/-- A chunk that completes the request: the connection is idle from here on. -/
theorem ReadChunk.sound_of_dispatch {seen : Content} (sound : Sound config fd slot)
    (read : ReadChunk config slot (.dispatch seen) after) :
    Sound config fd { after with interest := some .idle } := by
  obtain ⟨reading, nonempty, has, asked, received⟩ := read
  have open_ := sound.connected_at reading has asked
  obtain ⟨sameSend, sameLength, closing, owner, limit⟩ := Connection.receive_frame received
  have complete := Connection.receive_dispatch received
  have before := open_.reading rfl
  refine .connected rfl rfl rfl ⟨owner.trans open_.owner, limit.trans open_.limit,
    sameLength.trans open_.inputLength, fun _ => complete.1, ?_,
    fun _ => ⟨sameSend.trans before.drained, complete, before.unanswered⟩, ?_⟩
  · intro impossible
    cases impossible
  · intro impossible
    cases impossible

/-- A response to an idle connection. -/
theorem Answered.sound_of_idle (sound : Sound config fd slot)
    (idle : slot.interest = some .idle) (page : Answered config slot slot.request after) :
    Sound config fd after := by
  obtain ⟨buffer, request, has, asked, open_⟩ := sound.of_interest idle
  rw [asked] at page
  exact page.sound has open_ rfl rfl open_.named

/-- A slot that writes after a move goes on with its response, or has been answered
with 413 or with 408. The request and the cycle are all that is said of it. -/
theorem Move.writing_cases {mayExpire mayRefuse : Slot → Bool} {clock number : Nat}
    (move : Move config fd mayExpire mayRefuse clock number slot after)
    (writing : after.interest = some .write) :
    (slot.interest = some .write ∧ after.request = slot.request ∧ after.cycle = slot.cycle) ∨
      (∃ request, slot.interest = some .read ∧ mayRefuse slot = true ∧
        slot.request = some request ∧
        after.request = some { request with closingConnect := true, headerAccept := true } ∧
        after.cycle.responses = slot.cycle.responses + 1) ∨
      ∃ request, mayExpire slot = true ∧ slot.request = some request ∧ request.fullUri ≠ [] ∧
        after.request = some { request with closingConnect := true } ∧
        after.cycle.responses = slot.cycle.responses + 1 := by
  cases move with
  | opened => cases writing
  | closed => cases writing
  | turnedAway free => rw [free] at writing; cases writing
  | waited read =>
      obtain ⟨reading, _, _, _, _⟩ := read
      rw [reading] at writing
      cases writing
  | refused reading permitted asked page =>
      obtain ⟨_, _, sameRequest, responses⟩ := page.frame
      exact .inr (.inl ⟨_, reading, permitted, asked, sameRequest, responses⟩)
  | expired permitted asked named page =>
      obtain ⟨_, _, sameRequest, responses⟩ := page.frame
      exact .inr (.inr ⟨_, permitted, asked, named, sameRequest, responses⟩)
  | sent wrote => exact .inl ⟨wrote, rfl, rfl⟩
  | reset => cases writing

theorem Move.sound {mayExpire mayRefuse : Slot → Bool} {clock number : Nat}
    (sound : Sound config fd slot)
    (move : Move config fd mayExpire mayRefuse clock number slot after) :
    Sound config fd after := by
  cases move with
  | opened free made =>
      obtain ⟨_, length, _, position, _, drained⟩ := bufferFactory_some made
      refine .connected rfl rfl rfl ⟨rfl, rfl, length, fun named => absurd rfl named,
        fun _ => ⟨rfl, ⟨rfl, rfl⟩, drained, rfl, ⟨_, .start position⟩, fun _ => rfl,
          fun impossible => absurd impossible Bool.false_ne_true⟩, ?_, ?_⟩
      · intro impossible
        cases impossible
      · intro impossible
        cases impossible
  | closed => exact .free rfl rfl rfl rfl
  | turnedAway free kept =>
      cases sound with
      | free _ _ noRequest unanswered =>
          exact .free free rfl (kept.elim (fun same => same.trans noRequest) id) unanswered
      | connected has => rw [free] at has; cases has
  | waited read => exact read.sound_of_wait sound
  | refused reading _ asked page =>
      obtain ⟨buffer, request, has, hasRequest, open_⟩ := sound.of_interest reading
      rw [asked] at hasRequest
      cases hasRequest
      exact page.sound has open_ rfl rfl fun _ => rfl
  | expired _ asked _ page =>
      obtain ⟨interest, buffer, _, has, open_⟩ := sound.of_request asked
      have answered : Sound config fd _ := page.sound has open_ rfl rfl open_.named
      cases answered with
      | free noInterest noBuffer noRequest unanswered =>
          exact .free noInterest noBuffer noRequest unanswered
      | connected has hasBuffer hasRequest connected =>
          exact .connected has hasBuffer hasRequest connected
  | sent writing has unfinished =>
      obtain ⟨buffer, request, hasBuffer, hasRequest, open_⟩ := sound.of_interest writing
      rw [has] at hasBuffer
      cases hasBuffer
      refine .connected writing rfl hasRequest ⟨open_.owner, open_.limit, open_.inputLength,
        open_.named, ?_, ?_, fun _ => Nat.pos_of_ne_zero unfinished⟩
      · intro impossible
        cases impossible
      · intro impossible
        cases impossible
  | reset count writing has asked stays =>
      obtain ⟨buffer, request, hasBuffer, hasRequest, open_⟩ := sound.of_interest writing
      rw [has] at hasBuffer
      rw [asked] at hasRequest
      cases hasBuffer
      cases hasRequest
      refine .connected rfl rfl rfl ⟨open_.owner, open_.limit, open_.inputLength,
        fun named => absurd rfl named, fun _ => ?_, ?_, ?_⟩
      · exact ⟨stays, ⟨rfl, rfl⟩, rfl, rfl, ⟨_, .start rfl⟩,
          fun _ => clear_eq_requestFactory stays open_.owner open_.limit,
          fun impossible => absurd impossible Bool.false_ne_true⟩
      · intro impossible
        cases impossible
      · intro impossible
        cases impossible

end Keeping

end Onyxup.Server
