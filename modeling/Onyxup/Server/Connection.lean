import Onyxup.Http.Request
import Onyxup.Server.Buffer

/-!
Contract: the read step of one connection.

Owns: what the `EPOLLIN` branch does with the bytes of one `recv`: the size
test, the copy into the input buffer, the parse of everything accumulated so
far, the acceptance of the header block and of the body, and the decision that
follows.

Does not own: the effects of the decision. Writing an error page, closing the
socket and dispatching belong to the event loop.

The parser is given `posInputBuffer + 1` bytes, so its answer depends on one
byte of the input buffer that was not received in this cycle. Signed overflow
of `parse_http_result + len` is taken to wrap.
-/

set_option autoImplicit false

namespace Onyxup.Server

open Onyxup.Lib.CString
open Onyxup.Lib.Incremental
open Onyxup.Lib.Memory
open Onyxup.Http
open Onyxup.Http.Parser

/-- What one connection owns: `buffers[fd]` and `requests[fd]`. -/
structure Connection where
  buffer : Buffer
  request : Request

/-- What a handler can see of a dispatched request. -/
structure Content where
  method : Bytes
  fullUri : Bytes
  uri : Bytes
  headers : Dict
  params : Dict
  body : Bytes
deriving DecidableEq

def content (request : Request) : Content where
  method := request.method
  fullUri := request.fullUri
  uri := request.uri
  headers := request.headers
  params := request.params
  body := request.body

/-- What the read step decides. -/
inductive Decision where
  | wait
  | close
  | tooLarge
  | dispatch (content : Content)
deriving DecidableEq

/-- `sizeof(headers) / sizeof(headers[0])`. -/
def headerSlots : Nat := 100

/-- The bytes the parser is given: the accumulated ones and the next one. -/
def Buffer.window (buffer : Buffer) : Bytes :=
  buffer.inputBuffer.take (buffer.posInputBuffer + 1)

namespace Connection

/-- The `len` of the call of `setBody`, when the read step gets that far. -/
def bodyArgument (connection : Connection) (result : Int) : Option Int :=
  if connection.request.bodyExists then
    match connection.request.headers.lookup contentLength with
    | some text =>
        if atoi text ≠ 0 ∧
            connection.buffer.posInputBuffer = toSizeT (toInt32 (result + atoi text)) then
          some (atoi text)
        else none
    | none => none
  else none

/-- `setBodyAccept(true)` and `setBody(inputBuffer + result, len)`. A negative
`len` becomes a `size_t` that no string can have: `std::length_error`. -/
def setBody (connection : Connection) (result len : Int) : Except Fault Connection :=
  if len < 0 then .error .lengthError
  else .ok { connection with
    request := { connection.request with
      bodyAccept := true
      body := (connection.buffer.inputBuffer.drop result.toNat).take len.toNat } }

/-- The read step once the header block is accepted. -/
def takeBody (connection : Connection) (result : Int) : Except Fault (Decision × Connection) :=
  if connection.request.bodyExists then
    if (connection.request.headers.lookup contentLength).isNone then
      .ok (.close, connection)
    else
      match connection.bodyArgument result with
      | some len =>
          match connection.setBody result len with
          | .ok filled => .ok (.dispatch (content filled.request), filled)
          | .error fault => .error fault
      | none =>
          if connection.request.bodyAccept then
            .ok (.dispatch (content connection.request), connection)
          else .ok (.wait, connection)
  else .ok (.dispatch (content connection.request), connection)

def acceptHead (connection : Connection) (head : RequestHead) : Connection :=
  { connection with request := connection.request.acceptHead head }

/-- The read step on a result that is not positive. One that is neither `-1` nor
`-2` falls through to the send branch, which waits for `EPOLLOUT`. -/
def unparsed (result : Int) : Decision :=
  if result = -1 then .close else .wait

/-- The read step behind `addDataToInputBuffer`: parse everything that has
accumulated. The length of a block that is accepted is an `int`, and may be
negative. -/
def digest (connection : Connection) : Except Fault (Decision × Connection) :=
  match phrParseRequest headerSlots connection.buffer.window with
  | (result, some head) =>
      if 0 < result then (connection.acceptHead head).takeBody result
      else .ok (unparsed result, connection)
  | (result, none) => .ok (unparsed result, connection)

/-- The read step on a nonempty `recv`. -/
def receive (maxInputBufferLength : Nat) (connection : Connection) (data : Bytes) :
    Except Fault (Decision × Connection) :=
  if maxInputBufferLength ≤ connection.buffer.posInputBuffer + data.length then
    .ok (.tooLarge, connection)
  else
    match connection.buffer.addDataToInputBuffer data with
    | .ok buffer => digest { connection with buffer := buffer }
    | .error fault => .error fault

/-- The arguments of `setBody` in the read step, when it is called:
`parse_http_result` and `len`. -/
def setBodyCall (maxInputBufferLength : Nat) (connection : Connection) (data : Bytes) :
    Option (Int × Int) :=
  if maxInputBufferLength ≤ connection.buffer.posInputBuffer + data.length then none
  else
    match connection.buffer.addDataToInputBuffer data with
    | .ok buffer =>
        match phrParseRequest headerSlots buffer.window with
        | (result, some head) =>
            if 0 < result then
              ((acceptHead { connection with buffer := buffer } head).bodyArgument result).map
                fun len => (result, len)
            else none
        | (_, none) => none
    | .error _ => none

/-- The decisions on chunks that arrive one `EPOLLIN` event at a time. After
any decision but `wait` the connection is not read again in this cycle. -/
def readAll (maxInputBufferLength : Nat) : Connection → List Bytes →
    List (Except Fault Decision)
  | _, [] => []
  | connection, chunk :: rest =>
      match connection.receive maxInputBufferLength chunk with
      | .ok (.wait, after) => .ok .wait :: readAll maxInputBufferLength after rest
      | .ok (decision, _) => [.ok decision]
      | .error fault => [.error fault]

/-! ## What the read step can do -/

/-- What a body argument says. The position is an `int` then, because a negative
sum would be a position beyond every array. -/
theorem bodyArgument_some {connection : Connection} {result len : Int}
    (argument : connection.bodyArgument result = some len)
    (inside : connection.buffer.posInputBuffer < 9223372036854775808) :
    connection.request.bodyExists = true ∧
      (∃ text, connection.request.headers.lookup contentLength = some text ∧
        atoi text = len) ∧
      len ≠ 0 ∧
      (connection.buffer.posInputBuffer : Int) = toInt32 (result + len) := by
  unfold bodyArgument at argument
  split at argument
  next announces =>
    split at argument
    next text found =>
      split at argument
      next both =>
        cases argument
        obtain ⟨nonzero, position⟩ := both
        have bounds := toInt32_bounds (result + atoi text)
        refine ⟨announces, ⟨text, found, rfl⟩, nonzero, ?_⟩
        by_cases negative : toInt32 (result + atoi text) < 0
        · have huge := toSizeT_of_negative bounds.1 negative
          omega
        · have exactly := toSizeT_of_small (show 0 ≤ toInt32 (result + atoi text) by omega)
            (by omega)
          omega
      next => cases argument
    next => cases argument
  next => cases argument

/-- Behind a positive result the sum does not wrap: header block and body end
where the input ends. -/
theorem bodyArgument_position {connection : Connection} {result len : Int}
    (argument : connection.bodyArgument result = some len)
    (inside : connection.buffer.posInputBuffer < 9223372036854775808)
    (positive : 0 < result) (small : result < 2147483648) :
    (connection.buffer.posInputBuffer : Int) = result + len := by
  obtain ⟨_, ⟨text, _, rfl⟩, _, position⟩ := bodyArgument_some argument inside
  have lower : -2147483648 ≤ atoi text ∧ atoi text < 2147483648 := toInt32_bounds _
  by_cases upper : result + atoi text < 2147483648
  · rw [position, toInt32_of_small (by omega) upper]
  · have wrapped : toInt32 (result + atoi text) = result + atoi text - 4294967296 := by
      simp only [toInt32]
      split <;> omega
    omega

/-- The part behind the acceptance of the header block: close because the
length is gone, wait for the body, or dispatch with or without a new body. -/
theorem takeBody_cases {connection after : Connection} {result : Int} {decision : Decision}
    (taken : connection.takeBody result = .ok (decision, after)) :
    (decision = .close ∧ after = connection ∧ connection.request.bodyExists = true ∧
        connection.request.headers.lookup contentLength = none) ∨
      (decision = .wait ∧ after = connection ∧ connection.request.bodyExists = true ∧
        connection.request.bodyAccept = false) ∨
      (decision = .dispatch (content connection.request) ∧ after = connection ∧
        (connection.request.bodyExists = true → connection.request.bodyAccept = true)) ∨
      ∃ len : Int, 0 ≤ len ∧ connection.bodyArgument result = some len ∧
        after = { connection with
          request := { connection.request with
            bodyAccept := true
            body := (connection.buffer.inputBuffer.drop result.toNat).take len.toNat } } ∧
        decision = .dispatch (content after.request) := by
  unfold takeBody at taken
  split at taken
  next announces =>
    split at taken
    next missing =>
      cases taken
      exact .inl ⟨rfl, rfl, announces, by simpa using missing⟩
    next =>
      split at taken
      next len argument =>
        unfold setBody at taken
        split at taken
        next filled stored =>
          split at stored
          next => cases stored
          next notNegative =>
            cases stored
            cases taken
            exact .inr (.inr (.inr ⟨len, by omega, argument, rfl, rfl⟩))
        next => cases taken
      next =>
        split at taken
        next complete =>
          cases taken
          exact .inr (.inr (.inl ⟨rfl, rfl, fun _ => complete⟩))
        next incomplete =>
          cases taken
          exact .inr (.inl ⟨rfl, rfl, announces, by simpa using incomplete⟩)
  next silent =>
    cases taken
    exact .inr (.inr (.inl ⟨rfl, rfl, fun announces => absurd announces silent⟩))

/-- With a body argument, what follows is the call of `setBody`. -/
theorem takeBody_eq_setBody {connection : Connection} {result len : Int}
    (argument : connection.bodyArgument result = some len) :
    connection.takeBody result = (connection.setBody result len).map fun filled =>
      (.dispatch (content filled.request), filled) := by
  have whole := argument
  unfold bodyArgument at argument
  split at argument
  next announces =>
    split at argument
    next text found =>
      have isSome : ¬ (connection.request.headers.lookup contentLength).isNone = true := by
        simp [found]
      rw [takeBody, if_pos announces, if_neg isSome, whole]
      dsimp only
      cases connection.setBody result len with
      | ok filled => rfl
      | error fault => rfl
    next => cases argument
  next => cases argument

/-- With a body argument the body is taken and the request dispatched. -/
theorem takeBody_of_argument {connection : Connection} {result len : Int}
    (argument : connection.bodyArgument result = some len) (notNegative : 0 ≤ len) :
    ∃ filled, filled = { connection with
        request := { connection.request with
          bodyAccept := true
          body := (connection.buffer.inputBuffer.drop result.toNat).take len.toNat } } ∧
      connection.takeBody result = .ok (.dispatch (content filled.request), filled) := by
  refine ⟨_, rfl, ?_⟩
  rw [takeBody_eq_setBody argument, setBody, if_neg (show ¬ len < 0 by omega)]
  rfl

/-- Without one, a body that is announced and not yet there is waited for. -/
theorem takeBody_of_missing {connection : Connection} {result : Int} {text : Bytes}
    (announces : connection.request.bodyExists = true)
    (found : connection.request.headers.lookup contentLength = some text)
    (missing : connection.request.bodyAccept = false)
    (noArgument : connection.bodyArgument result = none) :
    connection.takeBody result = .ok (.wait, connection) := by
  have isSome : ¬ (connection.request.headers.lookup contentLength).isNone = true := by
    simp [found]
  rw [takeBody, if_pos announces, if_neg isSome, noArgument]
  simp only [missing, Bool.false_eq_true, if_false]

theorem takeBody_of_silent {connection : Connection} {result : Int}
    (silent : connection.request.bodyExists = false) :
    connection.takeBody result = .ok (.dispatch (content connection.request), connection) := by
  simp only [takeBody, silent, Bool.false_eq_true, if_false]

theorem unparsed_cases (result : Int) : unparsed result = .wait ∨ unparsed result = .close := by
  unfold unparsed
  split
  next => exact .inr rfl
  next => exact .inl rfl

/-- The read step on bytes that fit: refused by the parser, not enough yet, or
a header block with what `takeBody` makes of it. -/
theorem digest_cases {connection after : Connection} {decision : Decision}
    (digested : connection.digest = .ok (decision, after)) :
    ((decision = .wait ∨ decision = .close) ∧ after = connection) ∨
      ∃ result head, 0 < result ∧
        phrParseRequest headerSlots connection.buffer.window = (result, some head) ∧
        (connection.acceptHead head).takeBody result = .ok (decision, after) := by
  unfold digest at digested
  split at digested
  next result head parsed =>
    split at digested
    next positive => exact .inr ⟨result, head, positive, parsed, digested⟩
    next =>
      cases digested
      exact .inl ⟨unparsed_cases result, rfl⟩
  next result parsed =>
    cases digested
    exact .inl ⟨unparsed_cases result, rfl⟩

/-- Only the size test refuses input. -/
theorem digest_ne_tooLarge {connection after : Connection} {decision : Decision}
    (digested : connection.digest = .ok (decision, after)) : decision ≠ .tooLarge := by
  rintro rfl
  rcases digest_cases digested with ⟨impossible | impossible, _⟩ | ⟨_, _, _, _, taken⟩
  · cases impossible
  · cases impossible
  · rcases takeBody_cases taken with ⟨impossible, _⟩ | ⟨impossible, _⟩ | ⟨impossible, _⟩ |
      ⟨_, _, _, _, impossible⟩ <;> cases impossible

/-- The parse and what follows it do not touch the buffer. -/
theorem digest_buffer {connection after : Connection} {decision : Decision}
    (digested : connection.digest = .ok (decision, after)) :
    after.buffer = connection.buffer := by
  rcases digest_cases digested with ⟨_, rfl⟩ | ⟨result, head, _, _, taken⟩
  · rfl
  · rcases takeBody_cases taken with ⟨_, rfl, _⟩ | ⟨_, rfl, _⟩ | ⟨_, rfl, _⟩ |
      ⟨len, _, _, rfl, _⟩ <;>
    rfl

/-- The whole read step: the size test, then `digest`. -/
theorem receive_cases {maxInputBufferLength : Nat} {connection after : Connection}
    {data : Bytes} {decision : Decision}
    (received : connection.receive maxInputBufferLength data = .ok (decision, after)) :
    (decision = .tooLarge ∧ after = connection ∧
        maxInputBufferLength ≤ connection.buffer.posInputBuffer + data.length) ∨
      ∃ buffer, connection.buffer.addDataToInputBuffer data = .ok buffer ∧
        connection.buffer.posInputBuffer + data.length < maxInputBufferLength ∧
        digest { connection with buffer := buffer } = .ok (decision, after) := by
  unfold receive at received
  split at received
  next tooLarge =>
    cases received
    exact .inl ⟨rfl, rfl, tooLarge⟩
  next fits =>
    split at received
    next buffer added => exact .inr ⟨buffer, added, by omega, received⟩
    next => cases received

/-- What the read step leaves alone, whatever it decides. -/
theorem receive_frame {maxInputBufferLength : Nat} {connection after : Connection}
    {data : Bytes} {decision : Decision}
    (received : connection.receive maxInputBufferLength data = .ok (decision, after)) :
    after.buffer.numberBytesToSend = connection.buffer.numberBytesToSend ∧
      after.buffer.inputBufferLength = connection.buffer.inputBufferLength ∧
      after.request.closingConnect = connection.request.closingConnect ∧
      after.request.fd = connection.request.fd ∧
      after.request.maxOutputBufferLength = connection.request.maxOutputBufferLength := by
  rcases receive_cases received with ⟨_, rfl, _⟩ | ⟨buffer, added, _, digested⟩
  · exact ⟨rfl, rfl, rfl, rfl, rfl⟩
  · obtain ⟨_, sameLength, sameSend, _⟩ := Buffer.addDataToInputBuffer_ok added
    rcases digest_cases digested with ⟨_, rfl⟩ | ⟨result, head, _, _, taken⟩
    · exact ⟨sameSend, sameLength, rfl, rfl, rfl⟩
    · obtain ⟨_, _, closing, owner, limit, _⟩ := acceptHead_frame connection.request head
      rcases takeBody_cases taken with ⟨_, rfl, _⟩ | ⟨_, rfl, _⟩ | ⟨_, rfl, _⟩ |
        ⟨len, _, _, rfl, _⟩ <;>
      exact ⟨sameSend, sameLength, closing, owner, limit⟩

/-- The buffer is as it was, or the data has been added to it. -/
theorem receive_buffer {maxInputBufferLength : Nat} {connection after : Connection}
    {data : Bytes} {decision : Decision}
    (received : connection.receive maxInputBufferLength data = .ok (decision, after)) :
    after.buffer = connection.buffer ∨
      connection.buffer.addDataToInputBuffer data = .ok after.buffer := by
  rcases receive_cases received with ⟨_, rfl, _⟩ | ⟨buffer, added, _, digested⟩
  · exact .inl rfl
  · rw [digest_buffer digested]
    exact .inr added

/-- After a decision to wait: no body yet, and an accepted header block is one
with a body to come. -/
theorem receive_wait {maxInputBufferLength : Nat} {connection after : Connection}
    {data : Bytes}
    (received : connection.receive maxInputBufferLength data = .ok (.wait, after)) :
    connection.buffer.addDataToInputBuffer data = .ok after.buffer ∧
      after.request.bodyAccept = connection.request.bodyAccept ∧
      after.request.body = connection.request.body ∧
      (after.request = connection.request ∨
        after.request.headerAccept = true ∧ after.request.bodyExists = true) := by
  rcases receive_cases received with ⟨impossible, _⟩ | ⟨buffer, added, _, digested⟩
  · cases impossible
  · rcases digest_cases digested with ⟨_, rfl⟩ | ⟨result, head, _, _, taken⟩
    · exact ⟨added, rfl, rfl, .inl rfl⟩
    · obtain ⟨sameBody, sameAccept, _, _, _, accepted⟩ :=
        acceptHead_frame connection.request head
      rcases takeBody_cases taken with ⟨impossible, _⟩ | ⟨_, rfl, announces, _⟩ |
        ⟨impossible, _⟩ | ⟨_, _, _, _, impossible⟩
      · cases impossible
      · exact ⟨added, sameAccept, sameBody, .inr ⟨accepted, announces⟩⟩
      · cases impossible
      · cases impossible

/-- After a decision to dispatch the request is complete. -/
theorem receive_dispatch {maxInputBufferLength : Nat} {connection after : Connection}
    {data : Bytes} {seen : Content}
    (received : connection.receive maxInputBufferLength data = .ok (.dispatch seen, after)) :
    after.request.headerAccept = true ∧
      (after.request.bodyExists = true → after.request.bodyAccept = true) := by
  rcases receive_cases received with ⟨impossible, _⟩ | ⟨buffer, added, _, digested⟩
  · cases impossible
  · rcases digest_cases digested with ⟨impossible | impossible, _⟩ | ⟨result, head, _, _, taken⟩
    · cases impossible
    · cases impossible
    · have accepted := (acceptHead_frame connection.request head).2.2.2.2.2
      rcases takeBody_cases taken with ⟨impossible, _⟩ | ⟨impossible, _⟩ |
        ⟨_, rfl, complete⟩ | ⟨_, _, _, rfl, _⟩
      · cases impossible
      · cases impossible
      · exact ⟨accepted, complete⟩
      · exact ⟨accepted, fun _ => rfl⟩

/-- What a call of `setBody` has behind it. -/
theorem setBodyCall_some {maxInputBufferLength : Nat} {buffer : Buffer} {request : Request}
    {data : Bytes} {result len : Int}
    (call : setBodyCall maxInputBufferLength ⟨buffer, request⟩ data = some (result, len)) :
    ∃ stored head, buffer.posInputBuffer + data.length < maxInputBufferLength ∧
      buffer.addDataToInputBuffer data = .ok stored ∧ 0 < result ∧
      phrParseRequest headerSlots stored.window = (result, some head) ∧
      bodyArgument ⟨stored, request.acceptHead head⟩ result = some len := by
  unfold setBodyCall at call
  split at call
  next => cases call
  next fits =>
    split at call
    next stored added =>
      split at call
      next answer head parsed =>
        split at call
        next positive =>
          obtain ⟨found, argument, same⟩ := Option.map_eq_some_iff.mp call
          cases same
          simp only at fits
          exact ⟨stored, head, by omega, added, positive, parsed, argument⟩
        next => cases call
      next => cases call
    next => cases call

/-- Where the read step calls `setBody`, the call decides what becomes of the chunk. -/
theorem receive_of_setBodyCall {maxInputBufferLength : Nat} {buffer : Buffer}
    {request : Request} {data : Bytes} {result len : Int}
    (call : setBodyCall maxInputBufferLength ⟨buffer, request⟩ data = some (result, len)) :
    ∃ stored head, buffer.addDataToInputBuffer data = .ok stored ∧
      receive maxInputBufferLength ⟨buffer, request⟩ data =
        (setBody ⟨stored, request.acceptHead head⟩ result len).map fun filled =>
          (.dispatch (content filled.request), filled) := by
  obtain ⟨stored, head, fits, added, positive, parsed, argument⟩ := setBodyCall_some call
  refine ⟨stored, head, added, ?_⟩
  rw [receive, if_neg (Nat.not_le.mpr fits), added]
  simp only [digest, parsed, if_pos positive, acceptHead]
  exact takeBody_eq_setBody argument

/-- Where it does not, the body stays as it was. -/
theorem receive_of_no_setBodyCall {maxInputBufferLength : Nat} {connection after : Connection}
    {data : Bytes} {decision : Decision}
    (call : connection.setBodyCall maxInputBufferLength data = none)
    (received : connection.receive maxInputBufferLength data = .ok (decision, after)) :
    after.request.body = connection.request.body ∧
      after.request.bodyAccept = connection.request.bodyAccept := by
  rcases receive_cases received with ⟨_, rfl, _⟩ | ⟨stored, added, fits, digested⟩
  · exact ⟨rfl, rfl⟩
  · rcases digest_cases digested with ⟨_, rfl⟩ | ⟨result, head, positive, parsed, taken⟩
    · exact ⟨rfl, rfl⟩
    · obtain ⟨sameBody, sameAccept, _⟩ := acceptHead_frame connection.request head
      rcases takeBody_cases taken with ⟨_, rfl, _⟩ | ⟨_, rfl, _⟩ | ⟨_, rfl, _⟩ |
        ⟨len, _, argument, _⟩
      · exact ⟨sameBody, sameAccept⟩
      · exact ⟨sameBody, sameAccept⟩
      · exact ⟨sameBody, sameAccept⟩
      · dsimp only at parsed
        simp only [setBodyCall, if_neg (Nat.not_le.mpr fits), added, parsed, if_pos positive,
          argument, Option.map_some, reduceCtorEq] at call

end Connection

/-! ## The input buffer as received bytes over old memory -/

/-- The input buffer holds `received` in front, and from there on what was in
the memory before. -/
structure Buffer.Filled (buffer : Buffer) (memory received : Bytes) : Prop where
  position : buffer.posInputBuffer = received.length
  cells : buffer.inputBuffer = received ++ memory.drop received.length
  memorySize : memory.length = buffer.inputBufferLength
  inside : received.length ≤ memory.length

namespace Buffer.Filled

variable {buffer : Buffer} {memory received : Bytes}

/-- The window is what was received and at most one byte of old memory. -/
theorem window (filled : buffer.Filled memory received) :
    buffer.window = received ++ (memory.drop received.length).take 1 := by
  rw [Buffer.window, filled.cells, filled.position, List.take_append,
    List.take_of_length_le (Nat.le_succ _)]
  congr 2
  omega

/-- No position in a buffer is a negative `int` read as a `size_t`. -/
theorem position_small (filled : buffer.Filled memory received) :
    buffer.posInputBuffer < 9223372036854775808 := by
  have position := filled.position
  have inside := filled.inside
  have size := filled.memorySize
  have allocated := buffer.allocated.1
  omega

/-- A freshly filled buffer: nothing received, everything old. -/
theorem start (start : buffer.posInputBuffer = 0) :
    buffer.Filled buffer.inputBuffer [] := by
  refine ⟨start, rfl, buffer.inputSize, Nat.zero_le _⟩

/-- `addDataToInputBuffer` appends to what was received. -/
theorem add (filled : buffer.Filled memory received) {data : Bytes}
    (fits : received.length + data.length ≤ memory.length) :
    ∃ after, buffer.addDataToInputBuffer data = .ok after ∧
      after.Filled memory (received ++ data) := by
  have inside : buffer.posInputBuffer + data.length ≤ buffer.inputBuffer.length := by
    rw [filled.position, buffer.inputSize, ← filled.memorySize]
    exact fits
  refine ⟨_, dif_pos inside, ?_, ?_, filled.memorySize, ?_⟩
  · simp only [filled.position, List.length_append]
  · simp only [overwrite, filled.cells, filled.position, List.take_left,
      List.drop_append, List.length_append, List.append_assoc]
    rw [List.drop_eq_nil_of_le (by omega), List.nil_append, List.drop_drop]
    congr 3
    omega
  · rw [List.length_append]
    exact fits

/-- Whatever `addDataToInputBuffer` accepts is appended. -/
theorem of_added {after : Buffer} {data : Bytes} (filled : buffer.Filled memory received)
    (added : buffer.addDataToInputBuffer data = .ok after) :
    after.Filled memory (received ++ data) := by
  have fits : received.length + data.length ≤ memory.length := by
    have inside := (Buffer.addDataToInputBuffer_ok added).1
    rw [filled.position, ← filled.memorySize] at inside
    exact inside
  obtain ⟨same, again, filledAfter⟩ := filled.add fits
  rw [added] at again
  cases again
  exact filledAfter

/-- The read step on a chunk that is not refused. -/
theorem receive {maxInputBufferLength : Nat} (filled : buffer.Filled memory received)
    (request : Request) (data : Bytes) (size : maxInputBufferLength ≤ memory.length)
    (fits : received.length + data.length < maxInputBufferLength) :
    ∃ after, after.Filled memory (received ++ data) ∧
      buffer.addDataToInputBuffer data = .ok after ∧
      Connection.receive maxInputBufferLength ⟨buffer, request⟩ data =
        Connection.digest ⟨after, request⟩ := by
  obtain ⟨after, added, filledAfter⟩ := filled.add
    (show received.length + data.length ≤ memory.length by omega)
  refine ⟨after, filledAfter, added, ?_⟩
  have accepted : ¬ maxInputBufferLength ≤ buffer.posInputBuffer + data.length := by
    rw [filled.position]
    omega
  rw [Connection.receive, if_neg accepted, added]

end Buffer.Filled

/-! ## The verdict on a filled buffer -/

/-- The parser's verdict on the bytes received and the byte of old memory
behind them. -/
def verdict (memory received : Bytes) : Outcome UInt8 RequestHead :=
  parseRequest headerSlots (received ++ (memory.drop received.length).take 1)

/-- The byte behind the cut completes a block that the received bytes alone do
not: it is the last byte the parser reads. -/
theorem verdict_of_incomplete {memory received rest : Bytes} {head : RequestHead}
    (waiting : parseRequest headerSlots received = .incomplete)
    (premature : verdict memory received = .done head rest) :
    rest = [] ∧ ∃ last, (memory.drop received.length).take 1 = [last] := by
  unfold verdict at premature
  cases behind : (memory.drop received.length).take 1 with
  | nil =>
      rw [behind, List.append_nil, waiting] at premature
      cases premature
  | cons last more =>
      have single : more = [] := by
        have width := congrArg List.length behind
        simp only [List.length_take, List.length_cons] at width
        exact List.eq_nil_of_length_eq_zero (by omega)
      rw [single] at behind ⊢
      rw [behind] at premature
      exact ⟨(measured_parseRequest headerSlots).rest_nil_of_incomplete waiting premature,
        last, rfl⟩

namespace Connection

variable {buffer : Buffer} {request : Request} {memory received : Bytes}

theorem digest_of_fail (filled : buffer.Filled memory received)
    (fails : verdict memory received = .fail) :
    digest ⟨buffer, request⟩ = .ok (.close, ⟨buffer, request⟩) := by
  rw [digest, filled.window, phrParseRequest]
  rw [verdict] at fails
  rw [fails]
  rfl

theorem digest_of_incomplete (filled : buffer.Filled memory received)
    (waits : verdict memory received = .incomplete) :
    digest ⟨buffer, request⟩ = .ok (.wait, ⟨buffer, request⟩) := by
  rw [digest, filled.window, phrParseRequest]
  rw [verdict] at waits
  rw [waits]
  rfl

/-- A block that is complete ends somewhere in the window. -/
theorem digest_of_parsed {result : Int} {head : RequestHead}
    (parsed : phrParseRequest headerSlots buffer.window = (result, some head))
    (positive : 0 < result) :
    digest ⟨buffer, request⟩ = takeBody ⟨buffer, request.acceptHead head⟩ result := by
  rw [digest, parsed]
  exact if_pos positive

/-- An acceptance that needs the byte of old memory returns one more than the
number of bytes received. -/
theorem parsed_of_premature (filled : buffer.Filled memory received)
    {rest : Bytes} {head : RequestHead} (small : received.length + 1 < 2147483648)
    (waiting : parseRequest headerSlots received = .incomplete)
    (premature : verdict memory received = .done head rest) :
    phrParseRequest headerSlots buffer.window =
      ((received.length : Int) + 1, some head) := by
  obtain ⟨restNil, last, behind⟩ := verdict_of_incomplete waiting premature
  have count : ((received ++ [last]).length : Int) - ([] : Bytes).length =
      received.length + 1 := by
    simp
  rw [verdict] at premature
  rw [filled.window, phrParseRequest_of_done premature, restNil, behind, count,
    toInt32_of_small (by omega) (by omega)]

end Connection

end Onyxup.Server
