import Onyxup.Lib.Memory
import Onyxup.Lib.Transition
import Onyxup.Response.Base

/-!
Contract: the `Buffer` of one connection, and its output half as a queue.

Owns: `Buffer` with its factory, `clear`, the two `addData` functions, the
output part of `writeToOutputBuffer` and of the send branch, and the law that
the unsent part of the output buffer is the queue of accepted bytes.

Does not own: who writes when. The law holds for runs whose writes find the
output buffer drained; `addDataToOutputBuffer` copies to `posOutputBuffer`, not
behind the bytes that are still unsent, and the 413 page is copied without a
test whether it fits.
-/

set_option autoImplicit false

namespace Onyxup.Server

open Onyxup.Lib.CString
open Onyxup.Lib.Memory
open Onyxup.Lib.Transition
open Onyxup.Response

/-- What can go wrong inside a step: the program is not defined, or ends. -/
inductive Fault where
  | bufferOverflow
  | nullPointer
  | useAfterFree
  | lengthError
deriving DecidableEq, Repr

/-- `class Buffer`. Each array has the length that was allocated for it, and no
array is larger than `PTRDIFF_MAX`. -/
structure Buffer where
  inputBuffer : Bytes
  outputBuffer : Bytes
  posOutputBuffer : Nat
  posInputBuffer : Nat
  numberBytesToSend : Nat
  inputBufferLength : Nat
  outputBufferLength : Nat
  inputSize : inputBuffer.length = inputBufferLength
  outputSize : outputBuffer.length = outputBufferLength
  allocated : inputBufferLength < 9223372036854775808 ∧
    outputBufferLength < 9223372036854775808

/-- `bufferFactory`. The allocator decides whether it has memory, and what the
memory it hands out contains. -/
def bufferFactory (inLen outLen : Nat) (inputMemory outputMemory : Bytes) (granted : Bool) :
    Option Buffer :=
  if fits : granted = true ∧ inputMemory.length = inLen ∧ outputMemory.length = outLen ∧
      inLen < 9223372036854775808 ∧ outLen < 9223372036854775808 then
    some {
      inputBuffer := inputMemory
      outputBuffer := outputMemory
      posOutputBuffer := 0
      posInputBuffer := 0
      numberBytesToSend := 0
      inputBufferLength := inLen
      outputBufferLength := outLen
      inputSize := fits.2.1
      outputSize := fits.2.2.1
      allocated := fits.2.2.2 }
  else none

/-- What a fresh buffer is. -/
theorem bufferFactory_some {inLen outLen : Nat} {inputMemory outputMemory : Bytes}
    {granted : Bool} {buffer : Buffer}
    (made : bufferFactory inLen outLen inputMemory outputMemory granted = some buffer) :
    buffer.inputBuffer = inputMemory ∧ buffer.inputBufferLength = inLen ∧
      buffer.outputBufferLength = outLen ∧ buffer.posInputBuffer = 0 ∧
      buffer.posOutputBuffer = 0 ∧ buffer.numberBytesToSend = 0 := by
  unfold bufferFactory at made
  split at made
  next fits =>
    cases made
    exact ⟨rfl, rfl, rfl, rfl, rfl, rfl⟩
  next => cases made

namespace Buffer

/-- `Buffer::clear`: the positions, not the contents. -/
def clear (buffer : Buffer) : Buffer :=
  { buffer with
    posOutputBuffer := 0
    posInputBuffer := 0
    numberBytesToSend := 0 }

/-- `Buffer::addDataToInputBuffer`. -/
def addDataToInputBuffer (buffer : Buffer) (data : Bytes) : Except Fault Buffer :=
  if inside : buffer.posInputBuffer + data.length ≤ buffer.inputBuffer.length then
    .ok { buffer with
      inputBuffer := overwrite buffer.inputBuffer buffer.posInputBuffer data
      posInputBuffer := buffer.posInputBuffer + data.length
      inputSize := (length_overwrite inside).trans buffer.inputSize }
  else .error .bufferOverflow

/-- `Buffer::addDataToOutputBuffer`. -/
def addDataToOutputBuffer (buffer : Buffer) (data : Bytes) : Except Fault Buffer :=
  if inside : buffer.posOutputBuffer + data.length ≤ buffer.outputBuffer.length then
    .ok { buffer with
      outputBuffer := overwrite buffer.outputBuffer buffer.posOutputBuffer data
      numberBytesToSend := buffer.numberBytesToSend + data.length
      outputSize := (length_overwrite inside).trans buffer.outputSize }
  else .error .bufferOverflow

/-- The test of `writeToOutputBuffer`. -/
def overflows (maxOutputBufferLength : Nat) (buffer : Buffer) (data : Bytes) : Prop :=
  maxOutputBufferLength ≤ buffer.posOutputBuffer + data.length

instance (maxOutputBufferLength : Nat) (buffer : Buffer) (data : Bytes) :
    Decidable (overflows maxOutputBufferLength buffer data) :=
  inferInstanceAs (Decidable (_ ≤ _))

/-- `writeToOutputBuffer` before its `epoll_ctl`: the data, or the 413 page in
place of everything that was queued. -/
def writeOutput (maxOutputBufferLength : Nat) (tooLarge : Bytes) (buffer : Buffer)
    (data : Bytes) : Except Fault Buffer :=
  if overflows maxOutputBufferLength buffer data then
    buffer.clear.addDataToOutputBuffer tooLarge
  else buffer.addDataToOutputBuffer data

/-- The bookkeeping after `send` has transmitted `count` bytes. -/
def sent (buffer : Buffer) (count : Nat) : Buffer :=
  { buffer with
    numberBytesToSend := buffer.numberBytesToSend - count
    posOutputBuffer := buffer.posOutputBuffer + count }

/-- The bytes the next `send` is given. -/
def unsent (buffer : Buffer) : Bytes :=
  (buffer.outputBuffer.drop buffer.posOutputBuffer).take buffer.numberBytesToSend

/-- A write that does not fault: what it does to the positions. -/
theorem addDataToOutputBuffer_ok {buffer after : Buffer} {data : Bytes}
    (written : buffer.addDataToOutputBuffer data = .ok after) :
    buffer.posOutputBuffer + data.length ≤ buffer.outputBufferLength ∧
      after.posOutputBuffer = buffer.posOutputBuffer ∧
      after.numberBytesToSend = buffer.numberBytesToSend + data.length ∧
      after.outputBufferLength = buffer.outputBufferLength ∧
      after.outputBuffer = overwrite buffer.outputBuffer buffer.posOutputBuffer data := by
  unfold addDataToOutputBuffer at written
  split at written
  next inside =>
    cases written
    rw [buffer.outputSize] at inside
    exact ⟨inside, rfl, rfl, rfl, rfl⟩
  next => cases written

/-- It does not touch the input half. -/
theorem addDataToOutputBuffer_input {buffer after : Buffer} {data : Bytes}
    (written : buffer.addDataToOutputBuffer data = .ok after) :
    after.inputBufferLength = buffer.inputBufferLength ∧
      after.posInputBuffer = buffer.posInputBuffer := by
  unfold addDataToOutputBuffer at written
  split at written
  next =>
    cases written
    exact ⟨rfl, rfl⟩
  next => cases written

/-- Whatever `writeToOutputBuffer` queues, there is something to send, and the
input array is the same. -/
theorem writeOutput_ok {maxOutputBufferLength : Nat} {buffer after : Buffer}
    {page data : Bytes} (dataNonempty : data ≠ []) (pageNonempty : page ≠ [])
    (written : buffer.writeOutput maxOutputBufferLength page data = .ok after) :
    0 < after.numberBytesToSend ∧ after.inputBufferLength = buffer.inputBufferLength := by
  unfold writeOutput at written
  split at written
  next =>
    have count := (addDataToOutputBuffer_ok written).2.2.1
    have positive := List.length_pos_of_ne_nil pageNonempty
    have sameLength := (addDataToOutputBuffer_input written).1
    exact ⟨by omega, sameLength⟩
  next =>
    have count := (addDataToOutputBuffer_ok written).2.2.1
    have positive := List.length_pos_of_ne_nil dataNonempty
    exact ⟨by omega, (addDataToOutputBuffer_input written).1⟩

/-- A copy into the input half that does not fault. It leaves the output half alone. -/
theorem addDataToInputBuffer_ok {buffer after : Buffer} {data : Bytes}
    (added : buffer.addDataToInputBuffer data = .ok after) :
    buffer.posInputBuffer + data.length ≤ buffer.inputBufferLength ∧
      after.inputBufferLength = buffer.inputBufferLength ∧
      after.numberBytesToSend = buffer.numberBytesToSend ∧
      after.posOutputBuffer = buffer.posOutputBuffer ∧
      after.outputBufferLength = buffer.outputBufferLength := by
  unfold addDataToInputBuffer at added
  split at added
  next inside =>
    cases added
    rw [buffer.inputSize] at inside
    exact ⟨inside, rfl, rfl, rfl, rfl⟩
  next => cases added

/-- A copy to `posOutputBuffer` of a drained buffer is all there is to send. -/
theorem unsent_of_drained {buffer after : Buffer} {data : Bytes}
    (drained : buffer.numberBytesToSend = 0)
    (written : buffer.addDataToOutputBuffer data = .ok after) : after.unsent = data := by
  obtain ⟨fits, samePos, count, _, cells⟩ := addDataToOutputBuffer_ok written
  have position : buffer.posOutputBuffer ≤ buffer.outputBuffer.length := by
    rw [buffer.outputSize]
    omega
  rw [drained, Nat.zero_add] at count
  rw [unsent, cells, samePos, count]
  exact slice_overwrite position

theorem writeOutput_outputLength {maxOutputBufferLength : Nat} {buffer after : Buffer}
    {page data : Bytes}
    (written : buffer.writeOutput maxOutputBufferLength page data = .ok after) :
    after.outputBufferLength = buffer.outputBufferLength := by
  unfold writeOutput at written
  split at written
  next => exact (addDataToOutputBuffer_ok written).2.2.2.1
  next => exact (addDataToOutputBuffer_ok written).2.2.2.1

/-- A write that fits does not fault. -/
theorem addDataToOutputBuffer_of_fits {buffer : Buffer} {data : Bytes}
    (fits : buffer.posOutputBuffer + data.length ≤ buffer.outputBufferLength) :
    ∃ after, buffer.addDataToOutputBuffer data = .ok after := by
  rw [← buffer.outputSize] at fits
  exact ⟨_, dif_pos fits⟩

/-- Data that is not the 413 page itself is what a fresh output buffer has to send
if and only if it is shorter than the buffer. -/
theorem writeOutput_unsent_iff {maxOutputBufferLength : Nat} {buffer : Buffer}
    {page data : Bytes} (drained : buffer.numberBytesToSend = 0)
    (fresh : buffer.posOutputBuffer = 0)
    (capacity : buffer.outputBufferLength = maxOutputBufferLength) (differs : page ≠ data) :
    (∃ after, buffer.writeOutput maxOutputBufferLength page data = .ok after ∧
      after.unsent = data) ↔ data.length < maxOutputBufferLength := by
  have short : buffer.overflows maxOutputBufferLength data ↔
      maxOutputBufferLength ≤ data.length := by
    rw [overflows, fresh, Nat.zero_add]
  unfold writeOutput
  constructor
  · rintro ⟨after, written, shown⟩
    split at written
    next =>
      have replaced := unsent_of_drained rfl written
      exact absurd (replaced.symm.trans shown) differs
    next room => exact Nat.lt_of_not_le (room ∘ short.mpr)
  · intro room
    have fits : buffer.posOutputBuffer + data.length ≤ buffer.outputBufferLength := by omega
    obtain ⟨after, written⟩ := addDataToOutputBuffer_of_fits fits
    rw [if_neg (Nat.not_le_of_lt room ∘ short.mp)]
    exact ⟨after, written, unsent_of_drained drained written⟩

end Buffer

/-! ## The output buffer as a queue -/

/-- The operations on an output buffer, in the order the loop performs them. -/
inductive OutputOperation where
  | write (data datetime : Bytes)
  | send (count : Nat)
  | clear

/-- A buffer together with the queue it is meant to be: the bytes accepted
since the last clear and not yet sent. -/
structure OutputState where
  buffer : Buffer
  queue : Bytes

/-- What an operation means for the queue. A write that overflows clears the
buffer and accepts the 413 page in place of the data. -/
def acceptedQueue (maxOutputBufferLength : Nat) (identity : Identity) (state : OutputState) :
    OutputOperation → Bytes
  | .write data datetime =>
      if state.buffer.overflows maxOutputBufferLength data then page413 identity datetime
      else state.queue ++ data
  | .send count => state.queue.drop count
  | .clear => []

/-- What an operation does to the buffer. -/
def operate (maxOutputBufferLength : Nat) (identity : Identity) (buffer : Buffer) :
    OutputOperation → Except Fault Buffer
  | .write data datetime =>
      buffer.writeOutput maxOutputBufferLength (page413 identity datetime) data
  | .send count => .ok (buffer.sent count)
  | .clear => .ok buffer.clear

/-- The runs of an output buffer made by `bufferFactory(_, maxOutputBufferLength)`. -/
def outputSystem (maxOutputBufferLength : Nat) (identity : Identity) :
    System OutputState OutputOperation Fault where
  initial := fun state => ∃ inLen inputMemory outputMemory,
    bufferFactory inLen maxOutputBufferLength inputMemory outputMemory true = some state.buffer ∧
      state.queue = []
  enabled := fun state operation =>
    match operation with
    | .send count => 0 < count && count ≤ state.buffer.numberBytesToSend
    | _ => true
  step := fun state operation =>
    match operate maxOutputBufferLength identity state.buffer operation with
    | .ok buffer =>
        .ok ⟨buffer, acceptedQueue maxOutputBufferLength identity state operation⟩
    | .error fault => .error fault

/-- The unsent part of the buffer lies inside it and is the queue. -/
structure OutputIntegrity (state : OutputState) : Prop where
  inside : state.buffer.posOutputBuffer + state.buffer.numberBytesToSend ≤
    state.buffer.outputBufferLength
  content : state.buffer.unsent = state.queue

/-- The writes that keep the queue: a write that fits finds the buffer drained
or has nothing to add, and the 413 page fits when it replaces the data. -/
def WritesDrained (maxOutputBufferLength : Nat) (identity : Identity) (state : OutputState) :
    OutputOperation → Prop
  | .write data datetime =>
      if state.buffer.overflows maxOutputBufferLength data then
        (page413 identity datetime).length ≤ maxOutputBufferLength
      else state.buffer.numberBytesToSend = 0 ∨ data = []
  | _ => True

instance (maxOutputBufferLength : Nat) (identity : Identity) (state : OutputState)
    (operation : OutputOperation) :
    Decidable (WritesDrained maxOutputBufferLength identity state operation) := by
  cases operation <;> simp only [WritesDrained] <;> infer_instance

private theorem integrity_of_drained {buffer after : Buffer} {data : Bytes}
    (drained : buffer.numberBytesToSend = 0)
    (written : buffer.addDataToOutputBuffer data = .ok after) :
    OutputIntegrity ⟨after, data⟩ := by
  obtain ⟨fits, samePos, count, sameLength, _⟩ := Buffer.addDataToOutputBuffer_ok written
  rw [drained, Nat.zero_add] at count
  constructor
  · change after.posOutputBuffer + after.numberBytesToSend ≤ after.outputBufferLength
    rw [samePos, count, sameLength]
    exact fits
  · exact Buffer.unsent_of_drained drained written

private theorem integrity_of_empty {state : OutputState} {after : Buffer}
    (integrity : OutputIntegrity state)
    (written : state.buffer.addDataToOutputBuffer [] = .ok after) :
    OutputIntegrity ⟨after, state.queue⟩ := by
  obtain ⟨_, samePos, count, sameLength, cells⟩ := Buffer.addDataToOutputBuffer_ok written
  have sameCells : after.outputBuffer = state.buffer.outputBuffer := by
    rw [cells]
    simp [overwrite]
  rw [List.length_nil, Nat.add_zero] at count
  constructor
  · change after.posOutputBuffer + after.numberBytesToSend ≤ after.outputBufferLength
    rw [samePos, count, sameLength]
    exact integrity.inside
  · change (after.outputBuffer.drop after.posOutputBuffer).take after.numberBytesToSend = _
    rw [sameCells, samePos, count]
    exact integrity.content

private theorem integrity_sent {state : OutputState} {count : Nat}
    (integrity : OutputIntegrity state) (bounded : count ≤ state.buffer.numberBytesToSend) :
    OutputIntegrity ⟨state.buffer.sent count, state.queue.drop count⟩ := by
  constructor
  · have inside := integrity.inside
    simp only [Buffer.sent]
    omega
  · rw [← integrity.content]
    simp only [Buffer.unsent, Buffer.sent, List.drop_take, List.drop_drop]

private theorem write_cases {maxOutputBufferLength : Nat} {identity : Identity}
    {state after : OutputState} {data datetime : Bytes}
    (steps : (outputSystem maxOutputBufferLength identity).step state (.write data datetime) =
      .ok after) :
    (state.buffer.overflows maxOutputBufferLength data ∧
        state.buffer.clear.addDataToOutputBuffer (page413 identity datetime) =
          .ok after.buffer ∧
        after.queue = page413 identity datetime) ∨
      (¬ state.buffer.overflows maxOutputBufferLength data ∧
        state.buffer.addDataToOutputBuffer data = .ok after.buffer ∧
        after.queue = state.queue ++ data) := by
  simp only [outputSystem, operate, Buffer.writeOutput, acceptedQueue] at steps
  by_cases overflow : state.buffer.overflows maxOutputBufferLength data
  · simp only [if_pos overflow] at steps
    split at steps
    next written =>
      cases steps
      exact .inl ⟨overflow, written, rfl⟩
    next => cases steps
  · simp only [if_neg overflow] at steps
    split at steps
    next written =>
      cases steps
      exact .inr ⟨overflow, written, rfl⟩
    next => cases steps

private theorem integrity_step {maxOutputBufferLength : Nat} {identity : Identity}
    {state after : OutputState} {operation : OutputOperation}
    (integrity : OutputIntegrity state)
    (enabled : (outputSystem maxOutputBufferLength identity).enabled state operation = true)
    (meets : WritesDrained maxOutputBufferLength identity state operation)
    (steps : (outputSystem maxOutputBufferLength identity).step state operation = .ok after) :
    OutputIntegrity after := by
  cases operation with
  | write data datetime =>
      obtain ⟨buffer, queue⟩ := after
      simp only [WritesDrained] at meets
      rcases write_cases steps with ⟨overflow, written, rfl⟩ | ⟨room, written, rfl⟩
      · exact integrity_of_drained rfl written
      · rw [if_neg room] at meets
        rcases meets with drained | nothing
        · have noQueue : state.queue = [] := by
            rw [← integrity.content, Buffer.unsent, drained, List.take_zero]
          rw [noQueue, List.nil_append]
          exact integrity_of_drained drained written
        · rw [nothing] at written ⊢
          rw [List.append_nil]
          exact integrity_of_empty integrity written
  | send count =>
      simp only [outputSystem, Bool.and_eq_true, decide_eq_true_eq] at enabled
      cases steps
      exact integrity_sent integrity enabled.2
  | clear =>
      cases steps
      exact ⟨Nat.zero_le _, by simp [Buffer.unsent, Buffer.clear, acceptedQueue]⟩

private theorem outputBufferLength_step {maxOutputBufferLength : Nat} {identity : Identity}
    {state after : OutputState} {operation : OutputOperation}
    (steps : (outputSystem maxOutputBufferLength identity).step state operation = .ok after) :
    after.buffer.outputBufferLength = state.buffer.outputBufferLength := by
  cases operation with
  | write data datetime =>
      rcases write_cases steps with ⟨_, written, _⟩ | ⟨_, written, _⟩
      · exact (Buffer.addDataToOutputBuffer_ok written).2.2.2.1
      · exact (Buffer.addDataToOutputBuffer_ok written).2.2.2.1
  | send count => cases steps; rfl
  | clear => cases steps; rfl

/-- The integrity, and the array that `bufferFactory` allocated. -/
private structure OutputInvariant (maxOutputBufferLength : Nat) (state : OutputState) : Prop where
  integrity : OutputIntegrity state
  capacity : state.buffer.outputBufferLength = maxOutputBufferLength

private theorem outputInvariant_of_reachable {maxOutputBufferLength : Nat} {identity : Identity}
    {state : OutputState}
    (reachable : Reachable (outputSystem maxOutputBufferLength identity)
      (WritesDrained maxOutputBufferLength identity) state) :
    OutputInvariant maxOutputBufferLength state := by
  apply reachable.invariant
  · rintro start ⟨inLen, inputMemory, outputMemory, made, noQueue⟩
    obtain ⟨_, _, capacity, _, position, drained⟩ := bufferFactory_some made
    refine ⟨⟨?_, ?_⟩, capacity⟩
    · rw [position, drained]
      exact Nat.zero_le _
    · rw [noQueue, Buffer.unsent, drained, List.take_zero]
  · intro before operation after holds enabled meets steps
    exact ⟨integrity_step holds.integrity enabled meets steps,
      (outputBufferLength_step steps).trans holds.capacity⟩

/-- **The output buffer is its queue, while writes find it drained.** In every
run whose writes meet `WritesDrained`, the unsent bytes lie inside the array and
are the accepted bytes in order, and no such write leaves the array. -/
theorem output_integrity_of_drained_writes (maxOutputBufferLength : Nat) (identity : Identity)
    (state : OutputState)
    (reachable : Reachable (outputSystem maxOutputBufferLength identity)
      (WritesDrained maxOutputBufferLength identity) state) :
    OutputIntegrity state ∧
      ∀ operation, WritesDrained maxOutputBufferLength identity state operation →
        ∃ after, (outputSystem maxOutputBufferLength identity).step state operation =
          .ok after := by
  obtain ⟨integrity, capacity⟩ := outputInvariant_of_reachable reachable
  refine ⟨integrity, fun operation meets => ?_⟩
  cases operation with
  | write data datetime =>
      simp only [WritesDrained] at meets
      simp only [outputSystem, operate, Buffer.writeOutput]
      by_cases overflow : state.buffer.overflows maxOutputBufferLength data
      · rw [if_pos overflow] at meets
        have fits : state.buffer.clear.posOutputBuffer + (page413 identity datetime).length ≤
            state.buffer.clear.outputBufferLength := by
          simpa [Buffer.clear, capacity] using meets
        obtain ⟨buffer, written⟩ := Buffer.addDataToOutputBuffer_of_fits fits
        rw [if_pos overflow, written]
        exact ⟨_, rfl⟩
      · have fits : state.buffer.posOutputBuffer + data.length ≤
            state.buffer.outputBufferLength := by
          rw [capacity]
          exact Nat.le_of_lt (Nat.lt_of_not_le overflow)
        obtain ⟨buffer, written⟩ := Buffer.addDataToOutputBuffer_of_fits fits
        rw [if_neg overflow, written]
        exact ⟨_, rfl⟩
  | send count => exact ⟨_, rfl⟩
  | clear => exact ⟨_, rfl⟩

/-- A fresh eight-byte output buffer. -/
private def smallOutput : OutputState where
  buffer := {
    inputBuffer := []
    outputBuffer := [0, 0, 0, 0, 0, 0, 0, 0]
    posOutputBuffer := 0
    posInputBuffer := 0
    numberBytesToSend := 0
    inputBufferLength := 0
    outputBufferLength := 8
    inputSize := rfl
    outputSize := rfl
    allocated := by decide }
  queue := []

private theorem smallOutput_initial (identity : Identity) :
    (outputSystem 8 identity).initial smallOutput :=
  ⟨0, [], [0, 0, 0, 0, 0, 0, 0, 0], rfl, rfl⟩

/-- One write and one partial send: the rest is still queued, and any further
operation that meets the condition is performed. -/
theorem output_integrity_after_partial_send :
    ∃ state, state.queue = ascii "B" ∧ OutputIntegrity state ∧
      ∀ operation, WritesDrained 8 ⟨[], 80⟩ state operation →
        ∃ after, (outputSystem 8 ⟨[], 80⟩).step state operation = .ok after :=
  ⟨_, rfl, output_integrity_of_drained_writes 8 ⟨[], 80⟩ _
    ((outputSystem 8 ⟨[], 80⟩).reachable_of_replay (.start (smallOutput_initial _))
      (show (outputSystem 8 ⟨[], 80⟩).replay (WritesDrained 8 ⟨[], 80⟩) smallOutput
        [.write (ascii "AB") [], .send 1] = some _ from rfl))⟩

/-- Two writes with nothing sent in between: four bytes count as unsent, but the
second write has overwritten the first. -/
theorem second_write_overwrites :
    ∃ state, Reachable (outputSystem 8 ⟨[], 80⟩) Unconditional state ∧
      state.queue = ascii "ABCD" ∧ state.buffer.unsent = ascii "CD" ++ [0, 0] ∧
      ¬ OutputIntegrity state := by
  refine ⟨_, (outputSystem 8 ⟨[], 80⟩).reachable_of_replay (.start (smallOutput_initial _))
    (show (outputSystem 8 ⟨[], 80⟩).replay Unconditional smallOutput
      [.write (ascii "AB") [], .write (ascii "CD") []] = some _ from rfl), rfl, rfl, ?_⟩
  intro integrity
  exact absurd integrity.content (by decide)

end Onyxup.Server
