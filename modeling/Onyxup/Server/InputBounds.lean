import Onyxup.Lib.Fallible
import Onyxup.Server.Delivery

/-!
Contract: the bounds of the input buffer over the life of one connection.

Owns: the runs of a connection under received chunks, refusals, writes, sends
and clears in any order, the size test of the read step as the `size_t`
expression it is, and the law that no copy into the input buffer and no length
handed to the parser goes beyond the array.

Does not own: the output half. A 413 page that does not fit its array ends no
run here; the stray bytes are taken to miss the input half.

The parser is told of one byte more than was received. There is room for it
because the size test refuses a chunk that fills the array exactly.
-/

set_option autoImplicit false

namespace Onyxup.Server

open Onyxup.Lib.CString
open Onyxup.Lib.Fallible
open Onyxup.Lib.Memory
open Onyxup.Lib.Transition
open Onyxup.Http
open Onyxup.Response

/-- `sizeof(data)` of the read step. -/
def receiveLimit : Nat := 4096

/-- `getPosInputBuffer() + res >= maxInputBufferLength`, all of it `size_t`. -/
def Buffer.refusesInput (maxInputBufferLength : Nat) (buffer : Buffer) (chunk : Bytes) : Prop :=
  maxInputBufferLength ≤ (buffer.posInputBuffer + chunk.length) % 18446744073709551616

instance (maxInputBufferLength : Nat) (buffer : Buffer) (chunk : Bytes) :
    Decidable (buffer.refusesInput maxInputBufferLength chunk) :=
  inferInstanceAs (Decidable (_ ≤ _))

/-- The positions behind an operation of the output half whose copy does not
stay inside the output array. -/
def overrun (maxOutputBufferLength : Nat) (identity : Identity) (buffer : Buffer) :
    OutputOperation → Buffer
  | .write data datetime =>
      if buffer.overflows maxOutputBufferLength data then
        { buffer.clear with numberBytesToSend := (page413 identity datetime).length }
      else { buffer with numberBytesToSend := buffer.numberBytesToSend + data.length }
  | .send count => buffer.sent count
  | .clear => buffer.clear

/-- `operate`, without an end to the run where it would fault. -/
def operateAnyway (maxOutputBufferLength : Nat) (identity : Identity) (buffer : Buffer)
    (operation : OutputOperation) : Buffer :=
  match operate maxOutputBufferLength identity buffer operation with
  | .ok after => after
  | .error _ => overrun maxOutputBufferLength identity buffer operation

/-- The operations on a connection. Those of the output half are among them
because `writeToOutputBuffer` clears both halves when it overflows. -/
inductive InputOperation where
  | recv (chunk datetime : Bytes)
  | output (operation : OutputOperation)

namespace Connection

/-- The answer to a chunk that is refused. -/
def refuseChunk (maxOutputBufferLength : Nat) (identity : Identity) (datetime : Bytes)
    (connection : Connection) : Connection where
  buffer := operateAnyway maxOutputBufferLength identity connection.buffer
    (.write (page413 identity datetime) datetime)
  request := { connection.request with closingConnect := true, headerAccept := true }

/-- The read step on a chunk: the test, the copy and the parse. What the server
does about the decision is one of the other operations. -/
def readChunk (maxInputBufferLength maxOutputBufferLength : Nat) (identity : Identity)
    (datetime : Bytes) (connection : Connection) (chunk : Bytes) : Except Fault Connection :=
  if connection.buffer.refusesInput maxInputBufferLength chunk then
    .ok (connection.refuseChunk maxOutputBufferLength identity datetime)
  else do
    let buffer ← connection.buffer.addDataToInputBuffer chunk
    let decided ← digest { connection with buffer := buffer }
    return decided.2

/-- What the connection itself does about a decision of the read step. -/
def carryOut (maxOutputBufferLength : Nat) (identity : Identity) (datetime : Bytes) :
    Decision × Connection → Connection
  | (.tooLarge, connection) => connection.refuseChunk maxOutputBufferLength identity datetime
  | (_, connection) => connection

/-- An operation of the output half. After a clear the request is cleared too. -/
def operateOutput (maxOutputBufferLength : Nat) (identity : Identity)
    (connection : Connection) (operation : OutputOperation) : Connection where
  buffer := operateAnyway maxOutputBufferLength identity connection.buffer operation
  request :=
    match operation with
    | .clear => connection.request.clear
    | _ => connection.request

end Connection

/-- The runs of a connection whose buffer was made with the two limits that the
server still has. The order of the operations is left open. -/
def inputSystem (maxInputBufferLength maxOutputBufferLength : Nat) (identity : Identity) :
    System Connection InputOperation Fault where
  initial := fun connection => ∃ inputMemory outputMemory fd,
    bufferFactory maxInputBufferLength maxOutputBufferLength inputMemory outputMemory true =
        some connection.buffer ∧
      connection.request = requestFactory fd maxOutputBufferLength
  enabled := fun connection operation =>
    match operation with
    | .recv chunk _ => 0 < chunk.length && chunk.length ≤ receiveLimit
    | .output (.send count) => 0 < count && count ≤ connection.buffer.numberBytesToSend
    | .output _ => true
  step := fun connection operation =>
    match operation with
    | .recv chunk datetime =>
        connection.readChunk maxInputBufferLength maxOutputBufferLength identity datetime chunk
    | .output operation =>
        .ok (connection.operateOutput maxOutputBufferLength identity operation)

/-! ## One operation -/

/-- The input position lies inside the array that was allocated for it. -/
structure InputBounded (maxInputBufferLength : Nat) (buffer : Buffer) : Prop where
  allocatedLength : buffer.inputBufferLength = maxInputBufferLength
  inside : buffer.posInputBuffer ≤ maxInputBufferLength

/-- A buffer whose input half is that of a bounded one, or cleared, is bounded. -/
theorem InputBounded.of_cleared {maxInputBufferLength : Nat} {buffer after : Buffer}
    (bounded : InputBounded maxInputBufferLength buffer)
    (sameLength : after.inputBufferLength = buffer.inputBufferLength)
    (position : after.posInputBuffer = buffer.posInputBuffer ∨ after.posInputBuffer = 0) :
    InputBounded maxInputBufferLength after := by
  constructor
  · exact sameLength.trans bounded.allocatedLength
  · have inside := bounded.inside
    omega

/-- The output half leaves the input position alone or sets it to zero. -/
theorem operateAnyway_input (maxOutputBufferLength : Nat) (identity : Identity)
    (buffer : Buffer) (operation : OutputOperation) :
    (operateAnyway maxOutputBufferLength identity buffer operation).inputBufferLength =
        buffer.inputBufferLength ∧
      ((operateAnyway maxOutputBufferLength identity buffer operation).posInputBuffer =
          buffer.posInputBuffer ∨
        (operateAnyway maxOutputBufferLength identity buffer operation).posInputBuffer = 0) := by
  unfold operateAnyway
  split
  next after operated =>
    cases operation with
    | write data datetime =>
        simp only [operate, Buffer.writeOutput] at operated
        split at operated
        next =>
          have copied := Buffer.addDataToOutputBuffer_input operated
          exact ⟨copied.1, .inr copied.2⟩
        next =>
          have copied := Buffer.addDataToOutputBuffer_input operated
          exact ⟨copied.1, .inl copied.2⟩
    | send count =>
        cases operated
        exact ⟨rfl, .inl rfl⟩
    | clear =>
        cases operated
        exact ⟨rfl, .inr rfl⟩
  next =>
    cases operation with
    | write data datetime =>
        simp only [overrun]
        split
        next => exact ⟨rfl, .inr rfl⟩
        next => exact ⟨rfl, .inl rfl⟩
    | send count => exact ⟨rfl, .inl rfl⟩
    | clear => exact ⟨rfl, .inr rfl⟩

namespace InputBounded

variable {maxInputBufferLength maxOutputBufferLength : Nat} {identity : Identity}
variable {buffer : Buffer} {chunk : Bytes}

theorem operated (bounded : InputBounded maxInputBufferLength buffer)
    (operation : OutputOperation) :
    InputBounded maxInputBufferLength
      (operateAnyway maxOutputBufferLength identity buffer operation) := by
  have input := operateAnyway_input maxOutputBufferLength identity buffer operation
  exact bounded.of_cleared input.1 input.2

/-- The sum of the size test does not wrap: no array is larger than `PTRDIFF_MAX`. -/
theorem refusesInput_iff (bounded : InputBounded maxInputBufferLength buffer)
    (short : chunk.length ≤ receiveLimit) :
    buffer.refusesInput maxInputBufferLength chunk ↔
      maxInputBufferLength ≤ buffer.posInputBuffer + chunk.length := by
  have inside := bounded.inside
  have allocated := buffer.allocated.1
  rw [bounded.allocatedLength] at allocated
  unfold receiveLimit at short
  rw [Buffer.refusesInput, Nat.mod_eq_of_lt (by omega)]

/-- A chunk that passes the test is copied, and one byte of the array is left. -/
theorem copied (bounded : InputBounded maxInputBufferLength buffer)
    (short : chunk.length ≤ receiveLimit)
    (taken : ¬ buffer.refusesInput maxInputBufferLength chunk) :
    ∃ after, buffer.addDataToInputBuffer chunk = .ok after ∧
      after.inputBufferLength = buffer.inputBufferLength ∧
      after.posInputBuffer = buffer.posInputBuffer + chunk.length ∧
      after.posInputBuffer + 1 ≤ after.inputBufferLength := by
  rw [bounded.refusesInput_iff short] at taken
  have fits : buffer.posInputBuffer + chunk.length ≤ buffer.inputBuffer.length := by
    rw [buffer.inputSize, bounded.allocatedLength]
    omega
  refine ⟨_, dif_pos fits, rfl, rfl, ?_⟩
  change buffer.posInputBuffer + chunk.length + 1 ≤ buffer.inputBufferLength
  rw [bounded.allocatedLength]
  omega

end InputBounded

/-- What the read step does to the buffer: the refusal, or the copy and nothing else. -/
theorem Connection.readChunk_cases {maxInputBufferLength maxOutputBufferLength : Nat}
    {identity : Identity} {datetime chunk : Bytes} {connection after : Connection}
    (read : connection.readChunk maxInputBufferLength maxOutputBufferLength identity datetime
      chunk = .ok after) :
    (connection.buffer.refusesInput maxInputBufferLength chunk ∧
        after = connection.refuseChunk maxOutputBufferLength identity datetime) ∨
      (¬ connection.buffer.refusesInput maxInputBufferLength chunk ∧
        connection.buffer.addDataToInputBuffer chunk = .ok after.buffer) := by
  unfold readChunk at read
  split at read
  next refused =>
    cases read
    exact .inl ⟨refused, rfl⟩
  next taken =>
    obtain ⟨buffer, added, rest⟩ := bind_ok read
    obtain ⟨decided, digested, returned⟩ := bind_ok rest
    cases returned
    rw [digest_buffer digested]
    exact .inr ⟨taken, added⟩

/-- The read step of the connection is the one of the server: on a bounded buffer
the two size tests agree. -/
theorem Connection.readChunk_eq_receive {maxInputBufferLength maxOutputBufferLength : Nat}
    {identity : Identity} {datetime chunk : Bytes} {connection : Connection}
    (bounded : InputBounded maxInputBufferLength connection.buffer)
    (short : chunk.length ≤ receiveLimit) :
    connection.readChunk maxInputBufferLength maxOutputBufferLength identity datetime chunk =
      (connection.receive maxInputBufferLength chunk).map
        (carryOut maxOutputBufferLength identity datetime) := by
  have sameTest := bounded.refusesInput_iff short
  unfold readChunk receive
  by_cases refused : connection.buffer.refusesInput maxInputBufferLength chunk
  · rw [if_pos refused, if_pos (sameTest.mp refused)]
    rfl
  · rw [if_neg refused, if_neg (refused ∘ sameTest.mpr)]
    obtain ⟨buffer, added, _⟩ := bounded.copied short refused
    rw [added]
    change (digest { connection with buffer := buffer } >>= fun decided => .ok decided.2) =
      (digest { connection with buffer := buffer }).map
        (carryOut maxOutputBufferLength identity datetime)
    cases digested : digest { connection with buffer := buffer } with
    | error fault => rfl
    | ok decided =>
        obtain ⟨decision, after⟩ := decided
        have notRefused := digest_ne_tooLarge digested
        cases decision with
        | tooLarge => exact absurd rfl notRefused
        | wait => rfl
        | close => rfl
        | dispatch content => rfl

/-! ## Whole runs -/

section Runs

variable {maxInputBufferLength maxOutputBufferLength : Nat} {identity : Identity}

/-- One operation keeps the position inside. -/
theorem InputBounded.step {connection after : Connection} {operation : InputOperation}
    (bounded : InputBounded maxInputBufferLength connection.buffer)
    (enabled : (inputSystem maxInputBufferLength maxOutputBufferLength identity).enabled
      connection operation = true)
    (steps : (inputSystem maxInputBufferLength maxOutputBufferLength identity).step
      connection operation = .ok after) :
    InputBounded maxInputBufferLength after.buffer := by
  cases operation with
  | recv chunk datetime =>
      simp only [inputSystem, Bool.and_eq_true, decide_eq_true_eq] at enabled
      rcases Connection.readChunk_cases steps with ⟨_, rfl⟩ | ⟨taken, added⟩
      · exact bounded.operated _
      · obtain ⟨copy, made, sameLength, _, room⟩ := bounded.copied enabled.2 taken
        rw [added] at made
        cases made
        have length := sameLength.trans bounded.allocatedLength
        exact ⟨length, by omega⟩
  | output operation =>
      cases steps
      exact bounded.operated operation

/-- In every state of every run the position is inside the array. -/
theorem InputBounded.of_reachable {connection : Connection}
    (reachable : Reachable (inputSystem maxInputBufferLength maxOutputBufferLength identity)
      Unconditional connection) :
    InputBounded maxInputBufferLength connection.buffer := by
  apply reachable.invariant
  · rintro start ⟨inputMemory, outputMemory, fd, made, _⟩
    obtain ⟨_, length, _, position, _⟩ := bufferFactory_some made
    exact ⟨length, by omega⟩
  · intro before operation next bounded enabled _ steps
    exact bounded.step enabled steps

/-- The server keeps it too, on every connection that is read. -/
theorem InputBounded.of_server {config : Config} {condition : State → Action → Prop}
    {state : State} {fd : Nat} {buffer : Buffer}
    (reachable : Reachable (server config) condition state)
    (reading : (state.slots fd).interest = some .read)
    (has : (state.slots fd).buffer = some buffer) :
    InputBounded config.maxInputBufferLength buffer := by
  have sound := (Invariant.of_reachable reachable).sound fd
  obtain ⟨same, request, hasSame, _, open_⟩ := sound.of_interest reading
  rw [has] at hasSame
  cases hasSame
  obtain ⟨memory, filled⟩ := (open_.reading rfl).filled
  constructor
  · exact open_.inputLength
  · rw [filled.position, ← open_.inputLength, ← filled.memorySize]
    exact filled.inside

end Runs

/-- **Nothing goes beyond the input buffer.** On every connection, after any
chunks, refusals, writes, sends and clears: a chunk that passes the size test is
copied inside the array, and so are the `posInputBuffer + 1` bytes that the
parser is given next. -/
theorem input_copies_and_parses_inside (maxInputBufferLength maxOutputBufferLength : Nat)
    (identity : Identity) (connection : Connection) (chunk : Bytes)
    (reachable : Reachable (inputSystem maxInputBufferLength maxOutputBufferLength identity)
      Unconditional connection)
    (short : chunk.length ≤ receiveLimit)
    (taken : ¬ connection.buffer.refusesInput maxInputBufferLength chunk) :
    connection.buffer.posInputBuffer + chunk.length ≤ connection.buffer.inputBufferLength ∧
      ∃ after, connection.buffer.addDataToInputBuffer chunk = .ok after ∧
        after.posInputBuffer + 1 ≤ after.inputBufferLength ∧
        after.window.length = after.posInputBuffer + 1 := by
  have bounded := InputBounded.of_reachable reachable
  obtain ⟨after, added, sameLength, position, room⟩ := bounded.copied short taken
  refine ⟨by omega, after, added, room, ?_⟩
  rw [Buffer.window, List.length_take, after.inputSize]
  exact Nat.min_eq_left room

/-- A fresh connection with ten bytes of input buffer. -/
private def smallConnection : Connection where
  buffer := {
    inputBuffer := [0, 0, 0, 0, 0, 0, 0, 0, 0, 0]
    outputBuffer := [0, 0, 0, 0]
    posOutputBuffer := 0
    posInputBuffer := 0
    numberBytesToSend := 0
    inputBufferLength := 10
    outputBufferLength := 4
    inputSize := rfl
    outputSize := rfl
    allocated := by decide }
  request := requestFactory 1 4

private theorem smallConnection_initial :
    (inputSystem 10 4 ⟨[], 80⟩).initial smallConnection :=
  ⟨[0, 0, 0, 0, 0, 0, 0, 0, 0, 0], [0, 0, 0, 0], 1, rfl, rfl⟩

/-- Five bytes, five that would fill the array, and three more. -/
private def refusedInput : List InputOperation :=
  [.recv (ascii "GET /") [], .recv (ascii " HTTP") [], .recv (ascii "GET") []]

/-- The array is filled to its last byte but one after a refusal has cleared it
in the middle of a request. -/
theorem refill_after_refusal_inside :
    ∃ connection : Connection, connection.buffer.posInputBuffer = 3 ∧
      ∃ after, connection.buffer.addDataToInputBuffer (ascii " / HTT") = .ok after ∧
        after.posInputBuffer + 1 ≤ after.inputBufferLength ∧
        after.window.length = after.posInputBuffer + 1 := by
  obtain ⟨connection, reachable, passes⟩ := (inputSystem 10 4 ⟨[], 80⟩).exists_of_replay
    smallConnection_initial (fun connection => connection.buffer.posInputBuffer == 3)
    (show ((inputSystem 10 4 ⟨[], 80⟩).replay Unconditional smallConnection refusedInput).any
      (fun connection => connection.buffer.posInputBuffer == 3) = true by decide +kernel)
  have position : connection.buffer.posInputBuffer = 3 := by simpa using passes
  refine ⟨connection, position, ?_⟩
  refine (input_copies_and_parses_inside 10 4 ⟨[], 80⟩ connection (ascii " / HTT") reachable
    (by decide) ?_).2
  rw [Buffer.refusesInput, position]
  decide

end Onyxup.Server
