import Onyxup.Server.Responses

/-!
Contract: what the read step can see of bytes that were not received in the
current request cycle.

Owns: the exact condition under which a body is taken from received bytes only,
and the two-run theorem that histories cannot be told apart by a client whose
chunks leave the parser's verdict to the received bytes.

Does not own: when requests are dispatched at all, which is `Segmentation`.

The input buffer is never erased: `Buffer::clear` resets positions. The parser
is given one byte more than was received, and that byte is the only door.
-/

set_option autoImplicit false

namespace Onyxup.Server

open Onyxup.Lib.CString
open Onyxup.Lib.Incremental
open Onyxup.Lib.Memory
open Onyxup.Lib.Transition
open Onyxup.Http
open Onyxup.Http.Parser
open Onyxup.Response

/-! ## Where a body comes from -/

/-- The arguments of `setBody` describe a part of what was received: `stored` is
the buffer behind the copy, `received` everything of this cycle. -/
structure BodyFromReceived (stored : Buffer) (received : Bytes) (result len : Int) : Prop where
  positive : 0 < len
  ends : result + len = stored.posInputBuffer
  bytes : ∀ index : Nat, result ≤ index → (index : Int) < result + len →
    index < received.length ∧ stored.inputBuffer[index]? = received[index]?

/-- The byte of old memory behind the received ones completes a header block
whose Content-Length is `-1`. -/
def CompletedByOldByte (maxInputBufferLength : Nat) (buffer : Buffer) (request : Request)
    (received data : Bytes) : Prop :=
  received.length + data.length < maxInputBufferLength ∧
    ∃ next head text,
      buffer.inputBuffer[received.length + data.length]? = some next ∧
      AcceptsBlock headerSlots (received ++ data ++ [next]) head ∧
      (request.acceptHead head).headers.lookup contentLength = some text ∧
      atoi text = -1

section Bodies

variable {maxInputBufferLength : Nat} {buffer : Buffer} {request : Request}
  {memory received data : Bytes} {result len : Int}

private theorem body_shape {stored : Buffer} {head : RequestHead}
    (filled : stored.Filled memory received) (positive : 0 < result)
    (parsed : phrParseRequest headerSlots stored.window = (result, some head))
    (argument : Connection.bodyArgument ⟨stored, request⟩ result = some len) :
    result + len = received.length ∧
      (0 < len ∨ len = -1 ∧ ∃ next, (memory.drop received.length).take 1 = [next] ∧
        AcceptsBlock headerSlots (received ++ [next]) head) := by
  obtain ⟨rest, succeeds, returned⟩ := phrParseRequest_some parsed
  have bounds := toInt32_bounds (stored.window.length - rest.length)
  have ends := Connection.bodyArgument_position argument filled.position_small positive
    (by omega)
  have nonzero := (Connection.bodyArgument_some argument filled.position_small).2.2.1
  have upper := (toInt32_bounds (result + len)).2
  have position := (Connection.bodyArgument_some argument filled.position_small).2.2.2
  simp only [filled.position] at ends position
  have width : stored.window.length =
      received.length + ((memory.drop received.length).take 1).length := by
    rw [filled.window, List.length_append]
  have single : ((memory.drop received.length).take 1).length ≤ 1 := by
    rw [List.length_take]
    exact Nat.min_le_left _ _
  have read := (measured_parseRequest headerSlots).consumes succeeds
  have exactly : result = (stored.window.length : Int) - rest.length := by
    by_cases small : (stored.window.length : Int) - rest.length < 2147483648
    · rw [returned, toInt32_of_small (by omega) small]
    · have wrapped : toInt32 (stored.window.length - rest.length) < 0 := by
        simp only [toInt32]
        split <;> omega
      omega
  refine ⟨by omega, ?_⟩
  by_cases inside : 0 < len
  · exact .inl inside
  · have oldByte : ((memory.drop received.length).take 1).length = 1 := by omega
    obtain ⟨next, behind⟩ := List.length_eq_one_iff.mp oldByte
    refine .inr ⟨by omega, next, behind, ?_⟩
    rw [AcceptsBlock, ← behind, ← filled.window, parsed]
    congr 1
    omega

private theorem old_byte_eq (filled : buffer.Filled memory received) :
    (memory.drop (received.length + data.length)).take 1 =
      (buffer.inputBuffer[received.length + data.length]?).toList := by
  rw [filled.cells, List.getElem?_append_right (by omega), List.getElem?_drop, List.take_one,
    List.head?_drop]
  congr 2
  omega

private theorem setBodyCall_of_completed (filled : buffer.Filled memory received)
    (size : maxInputBufferLength ≤ memory.length)
    (uploading : request.headerAccept = true → request.bodyExists = true)
    (completed : CompletedByOldByte maxInputBufferLength buffer request received data) :
    ∃ result, Connection.setBodyCall maxInputBufferLength ⟨buffer, request⟩ data =
      some (result, -1) := by
  obtain ⟨fits, next, head, text, oldByte, accepted, found, negative⟩ := completed
  obtain ⟨stored, added, filledAfter⟩ := filled.add
    (show received.length + data.length ≤ memory.length by omega)
  have window : stored.window = received ++ data ++ [next] := by
    rw [filledAfter.window, List.length_append, old_byte_eq filled, oldByte]
    rfl
  have count : ((received ++ data ++ [next]).length : Int) =
      (received.length + data.length : Nat) + 1 := by
    simp only [List.length_append, List.length_singleton]
    omega
  have small := accepted.done.2.2
  have announces : (request.acceptHead head).bodyExists = true := by
    cases before : request.headerAccept with
    | true =>
        rw [acceptHead_of_accepted before]
        exact uploading before
    | false =>
        obtain ⟨uri, params, fields⟩ := acceptHead_fields before head
        rw [fields] at found ⊢
        simp only at found
        simp [announcesBody, found, negative]
  have position : stored.posInputBuffer = received.length + data.length := by
    rw [filledAfter.position, List.length_append]
  have sum : toSizeT (toInt32 ((received ++ data ++ [next]).length + -1)) =
      received.length + data.length := by
    rw [toInt32_of_small (by omega) (by omega)]
    have exactly := toSizeT_of_small
      (show 0 ≤ ((received ++ data ++ [next]).length : Int) + -1 by omega) (by omega)
    omega
  refine ⟨((received ++ data ++ [next]).length : Int), ?_⟩
  have notRefused : ¬ maxInputBufferLength ≤ buffer.posInputBuffer + data.length := by
    rw [filled.position]
    omega
  simp only [Connection.setBodyCall, if_neg notRefused, added, window]
  rw [AcceptsBlock] at accepted
  simp only [accepted, if_pos (show (0 : Int) < (received ++ data ++ [next]).length by omega)]
  simp only [Connection.bodyArgument, Connection.acceptHead, announces, if_true, found, negative,
    position, sum]
  rfl

end Bodies

/-- **Bodies are taken from received bytes.** In every reachable state, for a
connection that reads and any chunk: whatever `setBody` is called with is a part
of the bytes of this cycle, exactly when the byte of old memory behind them does
not complete a header block with Content-Length `-1`. -/
theorem body_from_received_iff (config : Config) (state : State)
    (reachable : Reachable (server config) Unconditional state) (fd : Nat)
    (buffer : Buffer) (request : Request) (reading : (state.slots fd).interest = some .read)
    (has : (state.slots fd).buffer = some buffer)
    (asked : (state.slots fd).request = some request) (data : Bytes) :
    (∀ stored result len, buffer.addDataToInputBuffer data = .ok stored →
        Connection.setBodyCall config.maxInputBufferLength ⟨buffer, request⟩ data =
          some (result, len) →
        BodyFromReceived stored ((state.slots fd).cycle.received ++ data) result len) ↔
      ¬ CompletedByOldByte config.maxInputBufferLength buffer request
        (state.slots fd).cycle.received data := by
  have open_ :=
    ((Invariant.of_reachable reachable).sound fd).connected_at reading has asked
  obtain ⟨memory, filled⟩ := (open_.reading rfl).filled
  have size : config.maxInputBufferLength ≤ memory.length := by
    rw [filled.memorySize, open_.inputLength]
  constructor
  · intro takesReceived completed
    obtain ⟨result, call⟩ :=
      setBodyCall_of_completed filled size (open_.reading rfl).uploading completed
    obtain ⟨stored, _, _, added, _⟩ := Connection.setBodyCall_some call
    exact absurd (takesReceived stored result (-1) added call).positive (by decide)
  · intro notCompleted stored result len added call
    obtain ⟨_, head, fits, addedAgain, positive, parsed, argument⟩ :=
      Connection.setBodyCall_some call
    rw [added] at addedAgain
    cases addedAgain
    have filledAfter := filled.of_added added
    obtain ⟨ends, inside | ⟨negative, next, behind, accepted⟩⟩ :=
      body_shape filledAfter positive parsed argument
    · refine ⟨inside, ends.trans (by rw [filledAfter.position]), fun index _ below => ?_⟩
      refine ⟨by omega, ?_⟩
      rw [filledAfter.cells, List.getElem?_append_left (by omega)]
    · apply absurd _ notCompleted
      obtain ⟨_, ⟨text, found, value⟩, _⟩ :=
        Connection.bodyArgument_some argument filledAfter.position_small
      rw [filled.position] at fits
      refine ⟨fits, next, head, text, ?_, accepted, found, value.trans negative⟩
      rw [List.length_append, old_byte_eq filled] at behind
      exact Option.toList_eq_singleton_iff.mp behind

/-- A request with a body of five bytes. -/
def smallUpload : Bytes :=
  ascii "POST / HTTP/1.1\r\nContent-Length: 5\r\n\r\nhello"

/-- The body of an upload into a zero-filled buffer is the received one. -/
theorem upload_body_is_received :
    ∃ (state : State) (buffer stored : Buffer) (request : Request),
      Connection.setBodyCall smallConfig.maxInputBufferLength ⟨buffer, request⟩ smallUpload =
        some (38, 5) ∧
      (state.slots 1).buffer = some buffer ∧
      BodyFromReceived stored ((state.slots 1).cycle.received ++ smallUpload) 38 5 := by
  obtain ⟨state, reachable, passes⟩ := (server smallConfig).exists_of_replay
    smallState_initial
    (fun state => decide ((state.slots 1).interest = some .read) &&
      decide ((state.slots 1).cycle.received = []) &&
      state.connectionTest 1 fun connection =>
        decide (connection.setBodyCall smallConfig.maxInputBufferLength smallUpload =
          some (38, 5)) &&
        decide (connection.buffer.inputBuffer = List.replicate 64 0))
    (show ((server smallConfig).replay Unconditional smallState [clientConnects]).any _ = true by
      decide +kernel)
  simp only [Bool.and_eq_true, decide_eq_true_eq] at passes
  obtain ⟨⟨reading, nothing⟩, passes⟩ := passes
  obtain ⟨buffer, request, has, asked, passes⟩ := State.connectionTest_true passes
  simp only [Bool.and_eq_true, decide_eq_true_eq] at passes
  obtain ⟨call, zeros⟩ := passes
  have takesReceived := (body_from_received_iff smallConfig state reachable 1 buffer request
    reading has asked smallUpload).mpr (by
      rintro ⟨_, next, head, _, oldByte, accepted, _⟩
      rw [nothing, zeros] at oldByte
      have isZero : next = 0 := by
        have computed : (List.replicate 64 (0 : UInt8))[([] : Bytes).length +
          smallUpload.length]? = some 0 := by decide
        rw [computed] at oldByte
        exact (Option.some.inj oldByte).symm
      rw [nothing, isZero] at accepted
      have computed : (phrParseRequest headerSlots ([] ++ smallUpload ++ [0])).1 = 38 := by
        decide +kernel
      rw [accepted] at computed
      exact absurd computed
        (show (([] ++ smallUpload ++ [0] : Bytes).length : Int) ≠ 38 by decide))
  obtain ⟨stored, _, _, added, _⟩ := Connection.setBodyCall_some call
  exact ⟨state, buffer, stored, request, call, has, takesReceived stored 38 5 added call⟩

/-- The same descriptor, with line feeds in the memory of its input buffer. -/
def clientConnectsOverLineFeeds : Action :=
  .accept ⟨1, true, true, List.replicate 64 10, List.replicate 1024 0, true, true⟩

/-- A header block that lacks its last line end. -/
def unfinishedBlock : Bytes :=
  ascii "GET / HTTP/1.1\r\nContent-Length: -1\r\n"

/-- An unfinished block over line feeds makes `setBody` start behind the received
bytes with length `-1`. -/
theorem negative_body_over_line_feeds :
    ∃ (state : State) (buffer stored : Buffer) (request : Request) (result len : Int),
      Reachable (server smallConfig) Unconditional state ∧
      (state.slots 1).interest = some .read ∧ (state.slots 1).buffer = some buffer ∧
      (state.slots 1).request = some request ∧
      buffer.addDataToInputBuffer unfinishedBlock = .ok stored ∧
      Connection.setBodyCall smallConfig.maxInputBufferLength ⟨buffer, request⟩
        unfinishedBlock = some (result, len) ∧
      ¬ BodyFromReceived stored ((state.slots 1).cycle.received ++ unfinishedBlock)
        result len := by
  obtain ⟨state, reachable, passes⟩ := (server smallConfig).exists_of_replay
    smallState_initial
    (fun state => decide ((state.slots 1).interest = some .read) &&
      state.connectionTest 1 fun connection =>
        decide (connection.setBodyCall smallConfig.maxInputBufferLength unfinishedBlock =
          some (37, -1)))
    (show ((server smallConfig).replay Unconditional smallState
      [clientConnectsOverLineFeeds]).any _ = true by decide +kernel)
  simp only [Bool.and_eq_true, decide_eq_true_eq] at passes
  obtain ⟨reading, passes⟩ := passes
  obtain ⟨buffer, request, has, asked, passes⟩ := State.connectionTest_true passes
  have call := of_decide_eq_true passes
  obtain ⟨stored, _, _, added, _⟩ := Connection.setBodyCall_some call
  exact ⟨state, buffer, stored, request, 37, -1, reachable, reading, has, asked, added, call,
    fun takesReceived => absurd takesReceived.positive (by decide)⟩

/-! ## Two histories of one connection -/

/-- What the received bytes leave open, the byte of old memory leaves open. -/
def OldByteIgnored (memory received : Bytes) : Prop :=
  parseRequest headerSlots received = .incomplete → verdict memory received = .incomplete

instance (memory received : Bytes) : Decidable (OldByteIgnored memory received) :=
  inferInstanceAs (Decidable (_ → _))

/-- At every chunk that is stored, the old byte behind it is ignored. -/
def Undisturbed (maxInputBufferLength : Nat) (memory : Bytes) : Bytes → List Bytes → Prop
  | _, [] => True
  | received, chunk :: rest =>
      received.length + chunk.length < maxInputBufferLength →
        OldByteIgnored memory (received ++ chunk) ∧
          Undisturbed maxInputBufferLength memory (received ++ chunk) rest

instance decidableUndisturbed (maxInputBufferLength : Nat) (memory : Bytes) :
    (received : Bytes) → (chunks : List Bytes) →
      Decidable (Undisturbed maxInputBufferLength memory received chunks)
  | _, [] => isTrue trivial
  | received, chunk :: rest =>
      have := decidableUndisturbed maxInputBufferLength memory (received ++ chunk) rest
      inferInstanceAs (Decidable (_ → _ ∧ _))

/-- A connection at the start of a request cycle, after some run of the server:
just accepted, or reset after any number of answered requests. -/
def AtCycleStart (config : Config) (fd : Nat) (connection : Connection) : Prop :=
  ∃ state, Reachable (server config) Unconditional state ∧
    (state.slots fd).interest = some .read ∧ (state.slots fd).cycle.received = [] ∧
    (state.slots fd).buffer = some connection.buffer ∧
    (state.slots fd).request = some connection.request

/-- The part of a read step's outcome that does not name the buffer. -/
def observed (outcome : Except Fault (Decision × Connection)) :
    Except Fault (Decision × Request) :=
  outcome.map fun result => (result.1, result.2.request)

section Histories

variable {left right : Buffer} {leftMemory rightMemory received : Bytes}

private theorem parsed_of_ignored {buffer : Buffer} {memory : Bytes}
    (filled : buffer.Filled memory received) (ignored : OldByteIgnored memory received) :
    phrParseRequest headerSlots buffer.window = phrParseRequest headerSlots received := by
  have law := measured_parseRequest headerSlots
  rw [filled.window]
  cases alone : parseRequest headerSlots received with
  | done head rest =>
      rw [phrParseRequest_of_done alone, phrParseRequest_of_done (law.done_append _ alone)]
      simp only [List.length_append]
      congr 2
      omega
  | fail => rw [phrParseRequest, phrParseRequest, law.fail_append _ alone, alone]
  | incomplete =>
      have together := ignored alone
      rw [verdict] at together
      rw [phrParseRequest, phrParseRequest, together, alone]

private theorem takeBody_agrees {request : Request} {result : Int}
    (leftFilled : left.Filled leftMemory received)
    (rightFilled : right.Filled rightMemory received)
    (positive : 0 < result) (small : result < 2147483648) :
    observed (Connection.takeBody ⟨left, request⟩ result) =
      observed (Connection.takeBody ⟨right, request⟩ result) := by
  have sameArgument : Connection.bodyArgument ⟨left, request⟩ result =
      Connection.bodyArgument ⟨right, request⟩ result := by
    simp only [Connection.bodyArgument, leftFilled.position, rightFilled.position]
  have sameBody : ∀ len, Connection.bodyArgument ⟨left, request⟩ result = some len → 0 ≤ len →
      (left.inputBuffer.drop result.toNat).take len.toNat =
        (right.inputBuffer.drop result.toNat).take len.toNat := by
    intro len argument notNegative
    have ends := Connection.bodyArgument_position argument leftFilled.position_small positive
      small
    simp only [leftFilled.position] at ends
    have inside : ∀ memory : Bytes,
        ((received ++ memory).drop result.toNat).take len.toNat =
          received.drop result.toNat := by
      intro memory
      rw [List.drop_append_of_le_length (by omega)]
      apply List.take_left'
      rw [List.length_drop]
      omega
    rw [leftFilled.cells, rightFilled.cells, inside, inside]
  unfold Connection.takeBody
  rw [← sameArgument]
  split
  next =>
    split
    next => rfl
    next =>
      split
      next len argument =>
        by_cases negative : len < 0
        · simp only [Connection.setBody, if_pos negative, observed, Except.map]
        · simp only [Connection.setBody, if_neg negative, sameBody len argument (by omega),
            observed, Except.map]
      next =>
        split
        next => rfl
        next => rfl
  next => rfl

private theorem digest_agrees (request : Request)
    (leftFilled : left.Filled leftMemory received)
    (rightFilled : right.Filled rightMemory received)
    (leftIgnored : OldByteIgnored leftMemory received)
    (rightIgnored : OldByteIgnored rightMemory received) :
    observed (Connection.digest ⟨left, request⟩) =
      observed (Connection.digest ⟨right, request⟩) := by
  unfold Connection.digest
  simp only [parsed_of_ignored leftFilled leftIgnored,
    parsed_of_ignored rightFilled rightIgnored]
  split
  next result head parsed =>
    obtain ⟨rest, _, returned⟩ := phrParseRequest_some parsed
    split
    next positive =>
      have small := (toInt32_bounds (received.length - rest.length)).2
      exact takeBody_agrees leftFilled rightFilled positive (by omega)
    next => rfl
  next => rfl

private theorem observed_cases {leftOutcome rightOutcome : Except Fault (Decision × Connection)}
    (agrees : observed leftOutcome = observed rightOutcome) :
    (∃ fault, leftOutcome = .error fault ∧ rightOutcome = .error fault) ∨
      ∃ decision leftAfter rightAfter, leftOutcome = .ok (decision, leftAfter) ∧
        rightOutcome = .ok (decision, rightAfter) ∧
        rightAfter.request = leftAfter.request := by
  cases leftOutcome with
  | error fault =>
      cases rightOutcome with
      | error other =>
          cases agrees
          exact .inl ⟨fault, rfl, rfl⟩
      | ok => cases agrees
  | ok leftResult =>
      cases rightOutcome with
      | error => cases agrees
      | ok rightResult =>
          obtain ⟨decision, leftAfter⟩ := leftResult
          obtain ⟨other, rightAfter⟩ := rightResult
          simp only [observed, Except.map, Except.ok.injEq, Prod.mk.injEq] at agrees
          obtain ⟨rfl, sameRequest⟩ := agrees
          exact .inr ⟨decision, leftAfter, rightAfter, rfl, rfl, sameRequest.symm⟩

private theorem readAll_agrees {maxInputBufferLength : Nat} (chunks : List Bytes)
    (leftSize : maxInputBufferLength ≤ leftMemory.length)
    (rightSize : maxInputBufferLength ≤ rightMemory.length) :
    ∀ {left right : Buffer} {received : Bytes} (request : Request),
      left.Filled leftMemory received → right.Filled rightMemory received →
      Undisturbed maxInputBufferLength leftMemory received chunks →
      Undisturbed maxInputBufferLength rightMemory received chunks →
      Connection.readAll maxInputBufferLength ⟨left, request⟩ chunks =
        Connection.readAll maxInputBufferLength ⟨right, request⟩ chunks := by
  -- Both buffers hold the same received bytes all along.
  induction chunks with
  | nil => intros; rfl
  | cons chunk rest inductionHypothesis =>
      intro left right received request leftFilled rightFilled leftCalm rightCalm
      by_cases fits : received.length + chunk.length < maxInputBufferLength
      · obtain ⟨leftAfter, leftFilledAfter, leftAdded, leftReceives⟩ :=
          leftFilled.receive request chunk leftSize fits
        obtain ⟨rightAfter, rightFilledAfter, rightAdded, rightReceives⟩ :=
          rightFilled.receive request chunk rightSize fits
        obtain ⟨leftIgnored, leftCalmAfter⟩ := leftCalm fits
        obtain ⟨rightIgnored, rightCalmAfter⟩ := rightCalm fits
        have agrees := digest_agrees request leftFilledAfter rightFilledAfter leftIgnored
          rightIgnored
        rw [← leftReceives, ← rightReceives] at agrees
        rcases observed_cases agrees with ⟨fault, leftStep, rightStep⟩ |
          ⟨decision, leftNext, rightNext, leftStep, rightStep, sameRequest⟩
        · simp only [Connection.readAll, leftStep, rightStep]
        · cases decision with
          | wait =>
              have leftBuffer := (Connection.receive_wait leftStep).1
              have rightBuffer := (Connection.receive_wait rightStep).1
              have leftFilledNext := leftFilled.of_added leftBuffer
              have rightFilledNext := rightFilled.of_added rightBuffer
              have later := inductionHypothesis leftNext.request leftFilledNext
                rightFilledNext leftCalmAfter rightCalmAfter
              obtain ⟨_, _⟩ := rightNext
              cases sameRequest
              simp only [Connection.readAll, leftStep, rightStep]
              rw [later]
          | close => simp only [Connection.readAll, leftStep, rightStep]
          | tooLarge => simp only [Connection.readAll, leftStep, rightStep]
          | dispatch seen => simp only [Connection.readAll, leftStep, rightStep]
      · have leftRefused : maxInputBufferLength ≤ left.posInputBuffer + chunk.length := by
          rw [leftFilled.position]
          omega
        have rightRefused : maxInputBufferLength ≤ right.posInputBuffer + chunk.length := by
          rw [rightFilled.position]
          omega
        simp only [Connection.readAll, Connection.receive, if_pos leftRefused,
          if_pos rightRefused]

end Histories

/-- **Keep-alive isolation.** Two histories of one descriptor, each followed by
the same chunks: when in neither of them the byte of old memory behind a chunk
changes what the received bytes leave open, the server takes the same decisions
and dispatches the same content. -/
theorem decisions_independent_of_history (config : Config) (fd : Nat)
    (left right : Connection) (leftStart : AtCycleStart config fd left)
    (rightStart : AtCycleStart config fd right) (chunks : List Bytes)
    (leftCalm : Undisturbed config.maxInputBufferLength left.buffer.inputBuffer [] chunks)
    (rightCalm : Undisturbed config.maxInputBufferLength right.buffer.inputBuffer [] chunks) :
    left.readAll config.maxInputBufferLength chunks =
      right.readAll config.maxInputBufferLength chunks := by
  have start : ∀ connection, AtCycleStart config fd connection →
      connection.buffer.Filled connection.buffer.inputBuffer [] ∧
        config.maxInputBufferLength ≤ connection.buffer.inputBuffer.length ∧
        connection.request = requestFactory fd config.maxOutputBufferLength := by
    intro connection atStart
    obtain ⟨state, reachable, reading, nothing, has, asked⟩ := atStart
    have open_ :=
      ((Invariant.of_reachable reachable).sound fd).connected_at reading has asked
    obtain ⟨memory, filled⟩ := (open_.reading rfl).filled
    rw [nothing] at filled
    refine ⟨.start filled.position, ?_, (open_.reading rfl).fresh nothing⟩
    rw [connection.buffer.inputSize, open_.inputLength]
  obtain ⟨leftBuffer, leftRequest⟩ := left
  obtain ⟨rightBuffer, rightRequest⟩ := right
  obtain ⟨leftFilled, leftSize, leftFresh⟩ := start _ leftStart
  obtain ⟨rightFilled, rightSize, rightFresh⟩ := start _ rightStart
  simp only at leftFresh rightFresh
  rw [leftFresh, rightFresh]
  exact readAll_agrees chunks leftSize rightSize _ leftFilled rightFilled leftCalm rightCalm

/-- A request for which there is no route, on a connection that stays open, and
the same request behind an empty line. -/
def keptAlive : Bytes :=
  ascii "POST / HTTP/1.1\r\nConnection: Keep-Alive\r\n\r\n"

def keptAliveBehindEmptyLine : Bytes :=
  ascii "\r\n" ++ keptAlive

/-- The request is answered with the 404 page, and the page is sent. -/
def answeredCycle (request : Bytes) : List Action :=
  [clientConnects, clientSends request, .send 1 (some 179) true]

private theorem exists_atCycleStart (actions : List Action) (test : Connection → Bool)
    (passes : ((server smallConfig).replay Unconditional smallState actions).any
      (fun state => decide ((state.slots 1).interest = some .read) &&
        decide ((state.slots 1).cycle.received = []) && state.connectionTest 1 test) = true) :
    ∃ connection, AtCycleStart smallConfig 1 connection ∧ test connection = true := by
  obtain ⟨state, reachable, passed⟩ :=
    (server smallConfig).exists_of_replay smallState_initial _ passes
  simp only [Bool.and_eq_true, decide_eq_true_eq] at passed
  obtain ⟨⟨reading, nothing⟩, passed⟩ := passed
  obtain ⟨buffer, request, has, asked, passed⟩ := State.connectionTest_true passed
  exact ⟨⟨buffer, request⟩, ⟨state, reachable, reading, nothing, has, asked⟩, passed⟩

/-- An upload in two chunks is taken the same way after both requests. -/
theorem upload_alike_after_both :
    ∃ left right, AtCycleStart smallConfig 1 left ∧ AtCycleStart smallConfig 1 right ∧
      left.buffer.inputBuffer ≠ right.buffer.inputBuffer ∧
      left.readAll smallConfig.maxInputBufferLength [uploadBegins, ascii "hello"] =
        right.readAll smallConfig.maxInputBufferLength [uploadBegins, ascii "hello"] := by
  obtain ⟨left, leftStart, leftPasses⟩ := exists_atCycleStart (answeredCycle keptAlive)
    (fun connection => decide (Undisturbed 64 connection.buffer.inputBuffer []
      [uploadBegins, ascii "hello"]) && decide (connection.buffer.inputBuffer[0]? = some 80))
    (by decide +kernel)
  obtain ⟨right, rightStart, rightPasses⟩ :=
    exists_atCycleStart (answeredCycle keptAliveBehindEmptyLine)
    (fun connection => decide (Undisturbed 64 connection.buffer.inputBuffer []
      [uploadBegins, ascii "hello"]) && decide (connection.buffer.inputBuffer[0]? = some 13))
    (by decide +kernel)
  simp only [Bool.and_eq_true, decide_eq_true_eq] at leftPasses rightPasses
  refine ⟨left, right, leftStart, rightStart, fun same => ?_,
    decisions_independent_of_history smallConfig 1 left right leftStart rightStart _
      leftPasses.1 rightPasses.1⟩
  rw [same, rightPasses.2] at leftPasses
  exact absurd leftPasses.2 (by decide)

/-- The first byte of a request is waited behind after one request and refused
after the other. -/
theorem first_byte_reveals_history :
    ∃ left right, AtCycleStart smallConfig 1 left ∧ AtCycleStart smallConfig 1 right ∧
      left.readAll smallConfig.maxInputBufferLength [ascii "P"] ≠
        right.readAll smallConfig.maxInputBufferLength [ascii "P"] := by
  obtain ⟨left, leftStart, leftWaits⟩ := exists_atCycleStart (answeredCycle keptAlive)
    (fun connection => decide (connection.readAll 64 [ascii "P"] = [.ok .wait]))
    (by decide +kernel)
  obtain ⟨right, rightStart, rightCloses⟩ :=
    exists_atCycleStart (answeredCycle keptAliveBehindEmptyLine)
    (fun connection => decide (connection.readAll 64 [ascii "P"] = [.ok .close]))
    (by decide +kernel)
  refine ⟨left, right, leftStart, rightStart, ?_⟩
  change left.readAll 64 [ascii "P"] ≠ right.readAll 64 [ascii "P"]
  rw [of_decide_eq_true leftWaits, of_decide_eq_true rightCloses]
  decide

end Onyxup.Server
