import Onyxup.Server.Connection

/-!
Contract: reading one complete request that arrives in pieces.

Owns: what a complete request is, the decisions the read step should take on
any way to cut it, and the exact condition on the cuts and on the old content
of the input buffer under which it takes them.

Does not own: the rest of the connection's life. Exactly one request arrives,
and nobody else touches the connection meanwhile.

A cut inside the header block is the dangerous one: there the parser sees one
byte of old memory behind the bytes received. It may refuse that byte, or take
it for the end of the block.
-/

set_option autoImplicit false

namespace Onyxup.Server

open Onyxup.Lib.CString
open Onyxup.Lib.Incremental
open Onyxup.Lib.Memory
open Onyxup.Http
open Onyxup.Http.Parser

/-- The map that the header loop builds from nothing. -/
def headerMap (head : RequestHead) : Dict :=
  head.headers.foldl addHeader ∅

/-- A header block that the parser accepts as a whole, and the body that its
Content-Length announces. -/
structure CompleteRequest where
  block : Bytes
  body : Bytes
  head : RequestHead
  accepted : AcceptsBlock headerSlots block head
  announced :
    match (headerMap head).lookup contentLength with
    | some text => Decimal text ∧ digitsValue text = body.length
    | none => body = []

namespace CompleteRequest

def bytes (request : CompleteRequest) : Bytes :=
  request.block ++ request.body

theorem length_bytes (request : CompleteRequest) :
    request.bytes.length = request.block.length + request.body.length :=
  List.length_append

theorem bytes_ne_nil (request : CompleteRequest) : request.bytes ≠ [] := by
  have positive := request.accepted.done.2.1
  intro empty
  rw [bytes, List.append_eq_nil_iff] at empty
  rw [empty.1] at positive
  cases positive

/-- What a handler should see, however the request arrives. -/
def expected (request : CompleteRequest) : Content :=
  { content ((requestFactory 0 0).acceptHead request.head) with body := request.body }

/-- A way to cut the request into the results of successive `recv` calls. -/
structure CutInto (request : CompleteRequest) (chunks : List Bytes) : Prop where
  whole : chunks.flatten = request.bytes
  sizes : ∀ chunk ∈ chunks, chunk ≠ [] ∧ chunk.length ≤ 4096

end CompleteRequest

/-- Wait on every chunk but the last, and dispatch on the last one. -/
def dispatchOnLast (chunks : List Bytes) (seen : Content) : List (Except Fault Decision) :=
  List.replicate (chunks.length - 1) (.ok .wait) ++ [.ok (.dispatch seen)]

/-- The old memory does no harm: at no cut inside the header block does the
parser refuse the byte behind the cut, and when it takes it for the end of the
block for the first time, a body is still to come and the headers before the
cut are all there is. -/
def Harmless (request : CompleteRequest) (memory : Bytes) : Bool → Bytes → List Bytes → Prop
  | _, _, [] => True
  | acceptedBefore, received, chunk :: rest =>
      rest = [] ∨ request.block.length ≤ (received ++ chunk).length ∨
        match verdict memory (received ++ chunk) with
        | .fail => False
        | .incomplete => Harmless request memory acceptedBefore (received ++ chunk) rest
        | .done premature _ =>
            (acceptedBefore = true ∨
              request.body ≠ [] ∧ headerMap premature = headerMap request.head) ∧
            Harmless request memory true (received ++ chunk) rest

/-! ## The two requests a harmless run goes through -/

section Stages

variable (request : CompleteRequest) (fd maxOutputBufferLength : Nat)

/-- The request object once the header block has been accepted. -/
private def acceptedRequest : Request :=
  (requestFactory fd maxOutputBufferLength).acceptHead request.head

/-- The request object of a run before and after the acceptance. -/
private def stageRequest : Bool → Request
  | false => requestFactory fd maxOutputBufferLength
  | true => acceptedRequest request fd maxOutputBufferLength

private theorem acceptedRequest_fields :
    (acceptedRequest request fd maxOutputBufferLength).headerAccept = true ∧
      (acceptedRequest request fd maxOutputBufferLength).bodyAccept = false ∧
      (acceptedRequest request fd maxOutputBufferLength).body = [] ∧
      (acceptedRequest request fd maxOutputBufferLength).headers = headerMap request.head ∧
      (acceptedRequest request fd maxOutputBufferLength).bodyExists =
        announcesBody (headerMap request.head) := by
  obtain ⟨uri, params, fields⟩ :=
    acceptHead_fields (show (requestFactory fd maxOutputBufferLength).headerAccept = false
      from rfl) request.head
  unfold acceptedRequest
  rw [fields]
  exact ⟨rfl, rfl, rfl, rfl, rfl⟩

private theorem content_acceptedRequest :
    { content (acceptedRequest request fd maxOutputBufferLength) with body := request.body } =
      request.expected := by
  have owner := acceptHead_owner (requestFactory 0 0) fd maxOutputBufferLength request.head
  unfold acceptedRequest CompleteRequest.expected
  rw [show requestFactory fd maxOutputBufferLength = { requestFactory 0 0 with
    fd := fd, maxOutputBufferLength := maxOutputBufferLength } from rfl, owner]
  rfl

private theorem stageRequest_acceptHead (stage : Bool) :
    (stageRequest request fd maxOutputBufferLength stage).acceptHead request.head =
      acceptedRequest request fd maxOutputBufferLength := by
  cases stage with
  | false => rfl
  | true =>
      exact acceptHead_of_accepted (acceptedRequest_fields request fd maxOutputBufferLength).1 _

end Stages

private theorem announcesBody_of_nil {request : CompleteRequest} (empty : request.body = []) :
    announcesBody (headerMap request.head) = false := by
  have announced := request.announced
  unfold announcesBody
  cases found : (headerMap request.head).lookup contentLength with
  | none => rfl
  | some text =>
      rw [found, empty] at announced
      have value := atoi_of_decimal announced.1 (by rw [announced.2]; decide)
      simp only [value, announced.2]
      rfl

private theorem contentLength_of_body {request : CompleteRequest} (nonempty : request.body ≠ [])
    (small : request.body.length < 2147483648) :
    ∃ text, (headerMap request.head).lookup contentLength = some text ∧
      atoi text = request.body.length := by
  have announced := request.announced
  cases found : (headerMap request.head).lookup contentLength with
  | none =>
      rw [found] at announced
      exact absurd announced nonempty
  | some text =>
      rw [found] at announced
      refine ⟨text, rfl, ?_⟩
      rw [atoi_of_decimal announced.1 (by omega), announced.2]

/-! ## One chunk -/

section Steps

variable {request : CompleteRequest} {fd maxOutputBufferLength : Nat}
variable {connection : Connection} {buffer : Buffer} {current : Request}
variable {memory received : Bytes} {stage : Bool}

private theorem takeBody_waits (nonempty : request.body ≠ [])
    (small : request.bytes.length < 2147483648)
    (isAccepted : connection.request = acceptedRequest request fd maxOutputBufferLength)
    {result : Nat} (bounded : result ≤ request.block.length)
    (early : connection.buffer.posInputBuffer ≠ result + request.body.length) :
    connection.takeBody result = .ok (.wait, connection) := by
  obtain ⟨_, noBody, _, headers, exists_⟩ :=
    acceptedRequest_fields request fd maxOutputBufferLength
  have total := request.length_bytes
  obtain ⟨text, found, value⟩ := contentLength_of_body nonempty (by omega)
  rw [← isAccepted] at noBody headers exists_
  have announces : connection.request.bodyExists = true := by
    have positive := List.length_pos_of_ne_nil nonempty
    rw [exists_, announcesBody, found]
    simp only [value, bne_iff_ne, ne_eq]
    omega
  have noArgument : connection.bodyArgument result = none := by
    have sum : toSizeT (toInt32 ((result : Int) + request.body.length)) =
        result + request.body.length := by
      rw [toInt32_of_small (by omega) (by omega)]
      have converted : (toSizeT ((result : Int) + request.body.length) : Int) =
          result + request.body.length := toSizeT_of_small (by omega) (by omega)
      omega
    simp only [Connection.bodyArgument, announces, if_true, headers, found, value, sum]
    exact if_neg (fun both => early both.2)
  exact Connection.takeBody_of_missing announces (by rw [headers, found]) noBody noArgument

private theorem takeBody_silent (empty : request.body = [])
    (isAccepted : connection.request = acceptedRequest request fd maxOutputBufferLength)
    (result : Int) :
    connection.takeBody result = .ok (.dispatch request.expected, connection) := by
  obtain ⟨_, _, bodyNil, _, exists_⟩ := acceptedRequest_fields request fd maxOutputBufferLength
  have seen := content_acceptedRequest request fd maxOutputBufferLength
  rw [← isAccepted] at bodyNil exists_ seen
  have noBody : connection.request.bodyExists = false := by
    rw [exists_, announcesBody_of_nil empty]
  have same : content connection.request = request.expected := by
    rw [← seen, empty, ← bodyNil]
    rfl
  rw [Connection.takeBody_of_silent noBody, same]

private theorem takeBody_last (small : request.body = [] ∨ request.bytes.length < 2147483648)
    (isAccepted : connection.request = acceptedRequest request fd maxOutputBufferLength)
    (filled : connection.buffer.Filled memory request.bytes) :
    ∃ after, connection.takeBody request.block.length =
      .ok (.dispatch request.expected, after) := by
  by_cases empty : request.body = []
  · exact ⟨connection, takeBody_silent empty isAccepted _⟩
  · obtain ⟨_, _, _, headers, exists_⟩ :=
      acceptedRequest_fields request fd maxOutputBufferLength
    have seen := content_acceptedRequest request fd maxOutputBufferLength
    rw [← isAccepted] at headers exists_ seen
    have short := small.resolve_left empty
    have total := request.length_bytes
    have positive := List.length_pos_of_ne_nil empty
    obtain ⟨text, found, value⟩ := contentLength_of_body empty (by omega)
    have announces : connection.request.bodyExists = true := by
      rw [exists_, announcesBody, found]
      simp only [value, bne_iff_ne, ne_eq]
      omega
    have argument : connection.bodyArgument request.block.length =
        some (request.body.length : Int) := by
      have converted : (toSizeT ((request.block.length : Int) + request.body.length) : Int) =
          request.block.length + request.body.length := toSizeT_of_small (by omega) (by omega)
      simp only [Connection.bodyArgument, announces, if_true, headers, found, value,
        filled.position, toInt32_of_small (show -2147483648 ≤
          (request.block.length : Int) + request.body.length by omega) (by omega)]
      exact if_pos ⟨by omega, by omega⟩
    have slice : (connection.buffer.inputBuffer.drop request.block.length).take
        request.body.length = request.body := by
      rw [filled.cells, CompleteRequest.bytes, List.append_assoc, List.drop_left, List.take_left]
    obtain ⟨after, shape, taken⟩ := Connection.takeBody_of_argument argument (by omega)
    refine ⟨after, ?_⟩
    rw [taken, shape, Int.toNat_natCast, Int.toNat_natCast, slice, ← seen]
    rfl

private theorem digest_complete {part : Bytes}
    (filled : buffer.Filled memory (request.block ++ part))
    (isStage : current = stageRequest request fd maxOutputBufferLength stage) :
    Connection.digest ⟨buffer, current⟩ =
      Connection.takeBody ⟨buffer, acceptedRequest request fd maxOutputBufferLength⟩
        request.block.length := by
  have window : buffer.window = request.block ++
      (part ++ (memory.drop (request.block ++ part).length).take 1) := by
    rw [filled.window, List.append_assoc]
  have parsed := request.accepted.append
    (part ++ (memory.drop (request.block ++ part).length).take 1)
  rw [← window] at parsed
  have positive := request.accepted.done.2.1
  rw [Connection.digest_of_parsed parsed (by omega), isStage, stageRequest_acceptHead]

private theorem digest_premature (current : Request) {back rest : Bytes}
    {premature : RequestHead} (filled : buffer.Filled memory received)
    (cut : received ++ back = request.block) (proper : back ≠ [])
    (early : verdict memory received = .done premature rest) :
    Connection.digest ⟨buffer, current⟩ =
        Connection.takeBody ⟨buffer, current.acceptHead premature⟩ (received.length + 1 : Nat) ∧
      premature.method = request.head.method ∧ premature.path = request.head.path := by
  have accepted := request.accepted
  rw [← cut] at accepted
  have waiting := accepted.incomplete_of_prefix proper
  have bounds := accepted.done.2.2
  have backPositive := List.length_pos_of_ne_nil proper
  rw [List.length_append] at bounds
  have parsed := Connection.parsed_of_premature filled (by omega) waiting early
  obtain ⟨restNil, last, behind⟩ := verdict_of_incomplete waiting early
  rw [verdict, behind, restNil] at early
  exact ⟨Connection.digest_of_parsed parsed (by omega),
    same_line_of_extensions early accepted.done.1⟩

private theorem takeBody_keeps_headers {result : Int} {after : Connection} {decision : Decision}
    (taken : connection.takeBody result = .ok (decision, after))
    (accepted : connection.request.headerAccept = true) :
    after.request.headerAccept = true ∧
      after.request.headers = connection.request.headers ∧
      ∀ seen, decision = .dispatch seen → seen.headers = connection.request.headers := by
  rcases Connection.takeBody_cases taken with ⟨rfl, rfl, _⟩ | ⟨rfl, rfl, _⟩ | ⟨rfl, rfl, _⟩ |
    ⟨len, _, _, rfl, rfl⟩
  · exact ⟨accepted, rfl, by simp⟩
  · exact ⟨accepted, rfl, by simp⟩
  · exact ⟨accepted, rfl, fun seen same => by cases same; rfl⟩
  · exact ⟨accepted, rfl, fun seen same => by cases same; rfl⟩

private theorem receive_keeps_headers {maxInputBufferLength : Nat} {after : Connection}
    {data : Bytes} {decision : Decision} (accepted : connection.request.headerAccept = true)
    (step : connection.receive maxInputBufferLength data = .ok (decision, after)) :
    after.request.headerAccept = true ∧
      after.request.headers = connection.request.headers ∧
      ∀ seen, decision = .dispatch seen → seen.headers = connection.request.headers := by
  rcases Connection.receive_cases step with ⟨rfl, rfl, _⟩ | ⟨buffer, _, _, digested⟩
  · exact ⟨accepted, rfl, by simp⟩
  · rcases Connection.digest_cases digested with ⟨rfl | rfl, rfl⟩ | ⟨result, head, _, _, taken⟩
    · exact ⟨accepted, rfl, by simp⟩
    · exact ⟨accepted, rfl, by simp⟩
    · have kept := acceptHead_of_accepted accepted head
      simp only [Connection.acceptHead, kept] at taken
      have shown := takeBody_keeps_headers taken accepted
      exact shown

end Steps

/-! ## All chunks -/

section Runs

variable {request : CompleteRequest} {fd maxOutputBufferLength maxInputBufferLength : Nat}
variable {memory : Bytes}

private theorem readAll_of_wait {connection after : Connection} {chunk : Bytes}
    {rest : List Bytes}
    (waits : connection.receive maxInputBufferLength chunk = .ok (.wait, after)) :
    connection.readAll maxInputBufferLength (chunk :: rest) =
      .ok .wait :: after.readAll maxInputBufferLength rest := by
  rw [Connection.readAll, waits]

private theorem readAll_of_stop {connection after : Connection} {chunk : Bytes}
    {rest : List Bytes} {decision : Decision} (stops : decision ≠ .wait)
    (step : connection.receive maxInputBufferLength chunk = .ok (decision, after)) :
    connection.readAll maxInputBufferLength (chunk :: rest) = [.ok decision] := by
  rw [Connection.readAll, step]
  cases decision with
  | wait => exact absurd rfl stops
  | close => rfl
  | tooLarge => rfl
  | dispatch seen => rfl

private theorem readAll_keeps_headers {chunks : List Bytes} :
    ∀ {connection : Connection}, connection.request.headerAccept = true →
      ∀ seen, .ok (.dispatch seen) ∈ connection.readAll maxInputBufferLength chunks →
        seen.headers = connection.request.headers := by
  induction chunks with
  | nil =>
      intro connection _ seen member
      cases member
  | cons chunk rest inductionHypothesis =>
      intro connection accepted seen member
      cases step : connection.receive maxInputBufferLength chunk with
      | error fault =>
          rw [Connection.readAll, step] at member
          simp at member
      | ok stepped =>
          obtain ⟨decision, after⟩ := stepped
          obtain ⟨stillAccepted, sameHeaders, shows⟩ := receive_keeps_headers accepted step
          by_cases waits : decision = .wait
          · rw [waits] at step
            rw [readAll_of_wait step] at member
            have later := inductionHypothesis stillAccepted seen (by simpa using member)
            rw [later, sameHeaders]
          · rw [readAll_of_stop waits step] at member
            simp only [List.mem_singleton, Except.ok.injEq] at member
            exact shows seen member.symm

private theorem dispatchOnLast_cons {chunk : Bytes} {rest : List Bytes} (more : rest ≠ [])
    (seen : Content) :
    dispatchOnLast (chunk :: rest) seen = .ok .wait :: dispatchOnLast rest seen := by
  have positive := List.length_pos_of_ne_nil more
  obtain ⟨count, length⟩ : ∃ count, rest.length = count + 1 := ⟨rest.length - 1, by omega⟩
  simp [dispatchOnLast, length, List.replicate_succ]

private theorem stop_ne_dispatchOnLast {chunk : Bytes} {rest : List Bytes} (more : rest ≠ [])
    {decision : Decision} (stops : decision ≠ .wait) (seen : Content) :
    [.ok decision] ≠ dispatchOnLast (chunk :: rest) seen := by
  rw [dispatchOnLast_cons more]
  intro same
  injection same with sameHead _
  injection sameHead with sameDecision
  exact stops sameDecision

private theorem harmless_of_block {stage : Bool} {received : Bytes} {chunks : List Bytes}
    (complete : request.block.length ≤ received.length) :
    Harmless request memory stage received chunks := by
  cases chunks with
  | nil => trivial
  | cons chunk rest =>
      refine .inr (.inl ?_)
      rw [List.length_append]
      omega

variable {buffer : Buffer} {received chunk back : Bytes}

private theorem receive_last
    (small : request.body = [] ∨ request.bytes.length < 2147483648)
    (size : maxInputBufferLength ≤ memory.length)
    (fits : request.bytes.length < maxInputBufferLength)
    (filled : buffer.Filled memory received) (stage : Bool)
    (whole : received ++ chunk = request.bytes) :
    ∃ after, Connection.receive maxInputBufferLength
        ⟨buffer, stageRequest request fd maxOutputBufferLength stage⟩ chunk =
      .ok (.dispatch request.expected, after) := by
  have length := congrArg List.length whole
  rw [List.length_append] at length
  obtain ⟨after, filledAfter, _, step⟩ := filled.receive
    (stageRequest request fd maxOutputBufferLength stage) chunk size (by omega)
  rw [whole] at filledAfter
  rw [step, digest_complete filledAfter rfl]
  exact takeBody_last small rfl filledAfter

/-- A request that arrives at once, with other bytes behind it. They stand in the way
of the body only. -/
theorem receive_followed {rest : Bytes} (small : request.bytes.length < 2147483648)
    (size : maxInputBufferLength ≤ memory.length)
    (fits : (request.bytes ++ rest).length < maxInputBufferLength)
    (filled : buffer.Filled memory []) :
    ∃ after, Connection.receive maxInputBufferLength
        ⟨buffer, requestFactory fd maxOutputBufferLength⟩ (request.bytes ++ rest) =
      .ok (if request.body = [] ∨ rest = [] then .dispatch request.expected else .wait,
        after) := by
  have total := request.length_bytes
  obtain ⟨after, filledAfter, _, step⟩ := filled.receive
    (requestFactory fd maxOutputBufferLength) (request.bytes ++ rest) size
      (by rw [List.length_nil]; omega)
  rw [List.nil_append] at filledAfter
  have filledBlock : after.Filled memory (request.block ++ (request.body ++ rest)) := by
    rw [← List.append_assoc]
    exact filledAfter
  have fresh : requestFactory fd maxOutputBufferLength =
      stageRequest request fd maxOutputBufferLength false := rfl
  rw [step, digest_complete filledBlock fresh]
  by_cases empty : request.body = []
  · rw [if_pos (.inl empty)]
    exact ⟨_, takeBody_silent empty rfl _⟩
  · by_cases alone : rest = []
    · rw [alone, List.append_nil] at filledAfter
      rw [if_pos (.inr alone)]
      exact takeBody_last (.inr small) rfl filledAfter
    · rw [if_neg (not_or_intro empty alone)]
      have behind := List.length_pos_of_ne_nil alone
      refine ⟨_, takeBody_waits empty small rfl (Nat.le_refl _) ?_⟩
      rw [filledAfter.position, List.length_append]
      omega

private theorem receive_inside_body
    (small : request.body = [] ∨ request.bytes.length < 2147483648)
    (size : maxInputBufferLength ≤ memory.length)
    (fits : request.bytes.length < maxInputBufferLength)
    (filled : buffer.Filled memory received) (stage : Bool)
    (whole : received ++ chunk ++ back = request.bytes) (proper : back ≠ [])
    (complete : request.block.length ≤ (received ++ chunk).length) :
    ∃ after, after.Filled memory (received ++ chunk) ∧ request.body ≠ [] ∧
      Connection.receive maxInputBufferLength
          ⟨buffer, stageRequest request fd maxOutputBufferLength stage⟩ chunk =
        .ok (.wait, ⟨after, stageRequest request fd maxOutputBufferLength true⟩) := by
  have total := request.length_bytes
  have length := congrArg List.length whole
  have positive := List.length_pos_of_ne_nil proper
  rw [List.length_append, List.length_append] at length
  rw [List.length_append] at complete
  obtain ⟨after, filledAfter, _, step⟩ := filled.receive
    (stageRequest request fd maxOutputBufferLength stage) chunk size (by omega)
  obtain ⟨part, split⟩ : request.block <+: received ++ chunk :=
    List.prefix_of_prefix_length_le (List.prefix_append _ _) ⟨back, whole⟩
      (by rw [List.length_append]; exact complete)
  have nonempty : request.body ≠ [] := by
    intro empty
    rw [empty, List.length_nil] at total
    omega
  refine ⟨after, filledAfter, nonempty, ?_⟩
  have filledSplit := filledAfter
  rw [← split] at filledSplit
  rw [step, digest_complete filledSplit rfl]
  refine takeBody_waits nonempty (small.resolve_left nonempty) rfl (Nat.le_refl _) ?_
  rw [filledAfter.position, List.length_append]
  omega

private theorem receive_premature {rest : Bytes} {premature : RequestHead}
    (small : request.body = [] ∨ request.bytes.length < 2147483648)
    (size : maxInputBufferLength ≤ memory.length)
    (fits : request.block.length < maxInputBufferLength)
    (filled : buffer.Filled memory received) (stage : Bool)
    (cut : received ++ chunk ++ back = request.block) (proper : back ≠ [])
    (early : verdict memory (received ++ chunk) = .done premature rest)
    (nonempty : request.body ≠ [])
    (sameMap : stage = true ∨ headerMap premature = headerMap request.head) :
    ∃ after, after.Filled memory (received ++ chunk) ∧
      Connection.receive maxInputBufferLength
          ⟨buffer, stageRequest request fd maxOutputBufferLength stage⟩ chunk =
        .ok (.wait, ⟨after, stageRequest request fd maxOutputBufferLength true⟩) := by
  have length := congrArg List.length cut
  have positive := List.length_pos_of_ne_nil proper
  rw [List.length_append, List.length_append] at length
  obtain ⟨after, filledAfter, _, step⟩ := filled.receive
    (stageRequest request fd maxOutputBufferLength stage) chunk size (by omega)
  obtain ⟨digested, sameMethod, samePath⟩ := digest_premature
    (stageRequest request fd maxOutputBufferLength stage) filledAfter cut proper early
  have accepts : (stageRequest request fd maxOutputBufferLength stage).acceptHead premature =
      acceptedRequest request fd maxOutputBufferLength := by
    cases stage with
    | false =>
        exact acceptHead_congr sameMethod samePath (sameMap.resolve_left Bool.false_ne_true)
    | true =>
        exact acceptHead_of_accepted (acceptedRequest_fields request fd maxOutputBufferLength).1 _
  refine ⟨after, filledAfter, ?_⟩
  rw [step, digested, accepts]
  refine takeBody_waits nonempty (small.resolve_left nonempty) rfl ?_ ?_
  · rw [List.length_append]
    omega
  · have bodyPositive := List.length_pos_of_ne_nil nonempty
    rw [filledAfter.position]
    omega

private theorem not_dispatchOnLast_of_premature {rest : Bytes} {premature : RequestHead}
    {chunks : List Bytes} (size : maxInputBufferLength ≤ memory.length)
    (fits : request.block.length < maxInputBufferLength)
    (filled : buffer.Filled memory received)
    (cut : received ++ chunk ++ back = request.block) (proper : back ≠ [])
    (more : chunks ≠ [])
    (early : verdict memory (received ++ chunk) = .done premature rest)
    (wrong : ¬ (request.body ≠ [] ∧ headerMap premature = headerMap request.head)) :
    Connection.readAll maxInputBufferLength
        ⟨buffer, requestFactory fd maxOutputBufferLength⟩ (chunk :: chunks) ≠
      dispatchOnLast (chunk :: chunks) request.expected := by
  have length := congrArg List.length cut
  have positive := List.length_pos_of_ne_nil proper
  rw [List.length_append, List.length_append] at length
  obtain ⟨after, filledAfter, _, step⟩ := filled.receive
    (requestFactory fd maxOutputBufferLength) chunk size (by omega)
  obtain ⟨digested, sameMethod, samePath⟩ := digest_premature
    (requestFactory fd maxOutputBufferLength) filledAfter cut proper early
  rw [digested] at step
  intro good
  by_cases sameMap : headerMap premature = headerMap request.head
  · -- The map is right, so no body is to come and the request goes out too early.
    have empty : request.body = [] := by
      by_contra nonempty
      exact wrong ⟨nonempty, sameMap⟩
    have accepts : (requestFactory fd maxOutputBufferLength).acceptHead premature =
        acceptedRequest request fd maxOutputBufferLength :=
      acceptHead_congr sameMethod samePath sameMap
    have silent : (acceptedRequest request fd maxOutputBufferLength).bodyExists = false := by
      rw [(acceptedRequest_fields request fd maxOutputBufferLength).2.2.2.2,
        announcesBody_of_nil empty]
    rw [accepts, Connection.takeBody_of_silent silent] at step
    rw [readAll_of_stop (by simp) step] at good
    exact stop_ne_dispatchOnLast more (by simp) _ good
  · -- The map is wrong, and every later dispatch would show it.
    obtain ⟨uri, params, fields⟩ := acceptHead_fields
      (show (requestFactory fd maxOutputBufferLength).headerAccept = false from rfl) premature
    have accepted : ((requestFactory fd maxOutputBufferLength).acceptHead
        premature).headerAccept = true := by
      rw [fields]
    have map : ((requestFactory fd maxOutputBufferLength).acceptHead premature).headers =
        headerMap premature := by
      rw [fields]
      rfl
    have shown : request.expected.headers = headerMap request.head :=
      (acceptedRequest_fields request 0 0).2.2.2.1
    cases outcome : Connection.receive maxInputBufferLength
        ⟨buffer, requestFactory fd maxOutputBufferLength⟩ chunk with
    | error fault =>
        rw [dispatchOnLast_cons more, Connection.readAll, outcome] at good
        simp at good
    | ok stepped =>
        obtain ⟨decision, next⟩ := stepped
        rw [step] at outcome
        obtain ⟨stillAccepted, sameHeaders, _⟩ := takeBody_keeps_headers outcome accepted
        rw [← step] at outcome
        by_cases waits : decision = .wait
        · rw [waits] at outcome
          rw [readAll_of_wait outcome, dispatchOnLast_cons more] at good
          injection good with _ later
          have member : Except.ok (.dispatch request.expected) ∈
              next.readAll maxInputBufferLength chunks := by
            rw [later]
            simp [dispatchOnLast]
          have seen := readAll_keeps_headers stillAccepted _ member
          rw [shown, sameHeaders, map] at seen
          exact sameMap seen.symm
        · rw [readAll_of_stop waits outcome] at good
          exact stop_ne_dispatchOnLast more waits _ good

end Runs

private theorem harmless_cons {request : CompleteRequest} {memory received chunk : Bytes}
    {rest : List Bytes} (stage : Bool) (more : rest ≠ [])
    (inside : ¬ request.block.length ≤ (received ++ chunk).length) :
    Harmless request memory stage received (chunk :: rest) ↔
      match verdict memory (received ++ chunk) with
      | .fail => False
      | .incomplete => Harmless request memory stage (received ++ chunk) rest
      | .done premature _ =>
          (stage = true ∨
            request.body ≠ [] ∧ headerMap premature = headerMap request.head) ∧
          Harmless request memory true (received ++ chunk) rest := by
  rw [Harmless]
  constructor
  · intro harmless
    exact (harmless.resolve_left more).resolve_left inside
  · intro here
    exact .inr (.inr here)

private theorem readAll_iff_harmless {request : CompleteRequest}
    {fd maxOutputBufferLength maxInputBufferLength : Nat} {memory : Bytes}
    (small : request.body = [] ∨ request.bytes.length < 2147483648)
    (size : maxInputBufferLength ≤ memory.length)
    (fits : request.bytes.length < maxInputBufferLength) {chunks : List Bytes} :
    ∀ (buffer : Buffer) (stage : Bool) {received : Bytes}, chunks ≠ [] →
      (∀ chunk ∈ chunks, chunk ≠ []) →
      received ++ chunks.flatten = request.bytes →
      (stage = true → request.body ≠ []) →
      buffer.Filled memory received →
      (Connection.readAll maxInputBufferLength
          ⟨buffer, stageRequest request fd maxOutputBufferLength stage⟩ chunks =
          dispatchOnLast chunks request.expected ↔
        Harmless request memory stage received chunks) := by
  have total := request.length_bytes
  -- The stage says whether the header block has been accepted; after a premature acceptance
  -- a body must be to come.
  induction chunks with
  | nil =>
      intro buffer stage received nonempty
      exact absurd rfl nonempty
  | cons chunk rest inductionHypothesis =>
      intro buffer stage received _ sizes whole withBody filled
      by_cases last : rest = []
      · -- The last chunk completes the request.
        have complete : received ++ chunk = request.bytes := by
          rw [← whole, last]
          simp
        obtain ⟨after, step⟩ := receive_last small size fits filled stage complete
        rw [readAll_of_stop (by simp) step]
        refine ⟨fun _ => .inl last, fun _ => ?_⟩
        rw [last]
        rfl
      · have restSizes : ∀ chunk ∈ rest, chunk ≠ [] :=
          fun chunk member => sizes chunk (List.mem_cons_of_mem _ member)
        have restBytes : rest.flatten ≠ [] := by
          intro empty
          obtain ⟨first, others, isCons⟩ := List.exists_cons_of_ne_nil last
          rw [isCons, List.flatten_cons] at empty
          exact restSizes first (by simp [isCons]) (List.append_eq_nil_iff.mp empty).1
        have split : received ++ chunk ++ rest.flatten = request.bytes := by
          rw [← whole, List.flatten_cons, List.append_assoc]
        have lengths := congrArg List.length split
        rw [List.length_append, List.length_append] at lengths
        by_cases complete : request.block.length ≤ (received ++ chunk).length
        · -- The block is there, the body is not.
          obtain ⟨after, filledAfter, nonempty, step⟩ := receive_inside_body small size fits
            filled stage split restBytes complete
          have later := inductionHypothesis after true last restSizes split
            (fun _ => nonempty) filledAfter
          rw [readAll_of_wait step, dispatchOnLast_cons last, List.cons_inj_right, later]
          exact ⟨fun _ => .inr (.inl complete), fun _ => harmless_of_block complete⟩
        · -- The cut is inside the block: the verdict on the old byte decides.
          obtain ⟨back, cut⟩ : received ++ chunk <+: request.block :=
            List.prefix_of_prefix_length_le ⟨_, split⟩ (List.prefix_append _ _) (by omega)
          have proper : back ≠ [] := by
            intro empty
            rw [empty, List.append_nil] at cut
            rw [cut] at complete
            exact complete (Nat.le_refl _)
          rw [harmless_cons stage last complete]
          obtain ⟨after, filledAfter, _, step⟩ := filled.receive
            (stageRequest request fd maxOutputBufferLength stage) chunk size (by omega)
          cases answer : verdict memory (received ++ chunk) with
          | fail =>
              rw [Connection.digest_of_fail filledAfter answer] at step
              rw [readAll_of_stop (by simp) step]
              exact iff_of_false (stop_ne_dispatchOnLast last (by simp) _) not_false
          | incomplete =>
              rw [Connection.digest_of_incomplete filledAfter answer] at step
              rw [readAll_of_wait step, dispatchOnLast_cons last, List.cons_inj_right]
              exact inductionHypothesis after stage last restSizes split withBody filledAfter
          | done premature remaining =>
              by_cases good : stage = true ∨
                  request.body ≠ [] ∧ headerMap premature = headerMap request.head
              · have nonempty : request.body ≠ [] := good.elim withBody And.left
                obtain ⟨kept, filledKept, waits⟩ := receive_premature small size (by omega)
                  filled stage cut proper answer nonempty (good.imp_right And.right)
                rw [readAll_of_wait waits, dispatchOnLast_cons last, List.cons_inj_right,
                  inductionHypothesis kept true last restSizes split (fun _ => nonempty)
                    filledKept]
                exact ⟨fun harmless => ⟨good, harmless⟩, And.right⟩
              · have notYet : stage = false := by
                  cases stage with
                  | false => rfl
                  | true => exact absurd (.inl rfl) good
                rw [notYet] at good ⊢
                exact iff_of_false
                  (not_dispatchOnLast_of_premature size (by omega) filled cut proper last
                    answer (fun wrong => good (.inr wrong)))
                  (fun both => good both.1)

/-- When the first piece brings the whole header block, the parser never looks at
an old byte: the request is dispatched on its last piece, over any memory. -/
theorem readAll_of_whole_block {request : CompleteRequest} {chunk : Bytes} {rest : List Bytes}
    (cut : request.CutInto (chunk :: rest)) (whole : request.block.length ≤ chunk.length)
    {buffer : Buffer} {memory : Bytes} (filled : buffer.Filled memory [])
    {fd maxInputBufferLength maxOutputBufferLength : Nat}
    (size : maxInputBufferLength ≤ memory.length)
    (fits : request.bytes.length < maxInputBufferLength)
    (small : request.bytes.length < 2147483648) :
    Connection.readAll maxInputBufferLength ⟨buffer, requestFactory fd maxOutputBufferLength⟩
        (chunk :: rest) = dispatchOnLast (chunk :: rest) request.expected := by
  have sizes : ∀ piece ∈ chunk :: rest, piece ≠ [] :=
    fun piece member => (cut.sizes piece member).1
  exact (readAll_iff_harmless (.inr small) size fits buffer false (List.cons_ne_nil _ _) sizes
    cut.whole (fun impossible => absurd impossible Bool.false_ne_true) filled).mpr
    (.inr (.inl (by rwa [List.nil_append])))

private theorem dispatched_body {connection after : Connection} {maxInputBufferLength : Nat}
    {memory received data : Bytes} {decision : Decision}
    (filled : connection.buffer.Filled memory received)
    (noBody : connection.request.body = [])
    (step : connection.receive maxInputBufferLength data = .ok (decision, after)) :
    (decision = .wait → after.request.body = [] ∧
        after.buffer.Filled memory (received ++ data)) ∧
      ∀ seen, decision = .dispatch seen →
        seen.body = [] ∨ received.length + data.length < 2147483648 := by
  rcases Connection.receive_cases step with ⟨rfl, rfl, _⟩ | ⟨buffer, added, fits, digested⟩
  · exact ⟨by simp, by simp⟩
  · have filledAfter : buffer.Filled memory (received ++ data) := filled.of_added added
    rcases Connection.digest_cases digested with ⟨rfl | rfl, rfl⟩ | ⟨result, head, _, _, taken⟩
    · exact ⟨fun _ => ⟨noBody, filledAfter⟩, by simp⟩
    · exact ⟨by simp, by simp⟩
    · have stillNone : (connection.request.acceptHead head).body = [] := by
        rw [(acceptHead_frame connection.request head).1, noBody]
      rcases Connection.takeBody_cases taken with ⟨rfl, rfl, _⟩ | ⟨rfl, rfl, _⟩ | ⟨rfl, rfl, _⟩ |
        ⟨len, _, argument, _, rfl⟩
      · exact ⟨by simp, by simp⟩
      · exact ⟨fun _ => ⟨stillNone, filledAfter⟩, by simp⟩
      · refine ⟨by simp, fun seen same => .inl ?_⟩
        cases same
        exact stillNone
      · refine ⟨by simp, fun _ _ => .inr ?_⟩
        have position :=
          (Connection.bodyArgument_some argument filledAfter.position_small).2.2.2
        have upper := (toInt32_bounds (result + len)).2
        simp only [Connection.acceptHead, filledAfter.position, List.length_append] at position
        omega

private theorem small_of_dispatchOnLast {maxInputBufferLength : Nat} {memory : Bytes}
    {seen : Content} {chunks : List Bytes} :
    ∀ {connection : Connection} {received : Bytes}, chunks ≠ [] →
      connection.buffer.Filled memory received →
      connection.request.body = [] →
      connection.readAll maxInputBufferLength chunks = dispatchOnLast chunks seen →
      seen.body = [] ∨ (received ++ chunks.flatten).length < 2147483648 := by
  induction chunks with
  | nil =>
      intro connection received nonempty
      exact absurd rfl nonempty
  | cons chunk rest inductionHypothesis =>
      intro connection received _ filled noBody good
      cases step : connection.receive maxInputBufferLength chunk with
      | error fault =>
          rw [Connection.readAll, step] at good
          cases rest <;> simp [dispatchOnLast, List.replicate_succ] at good
      | ok stepped =>
          obtain ⟨decision, after⟩ := stepped
          obtain ⟨waiting, dispatching⟩ := dispatched_body filled noBody step
          by_cases last : rest = []
          · rw [last] at good ⊢
            by_cases waits : decision = .wait
            · rw [waits] at step
              rw [readAll_of_wait step] at good
              simp [dispatchOnLast] at good
            · rw [readAll_of_stop waits step] at good
              simp only [dispatchOnLast, List.length_singleton, Nat.sub_self,
                List.replicate_zero, List.nil_append, List.cons.injEq, Except.ok.injEq,
                and_true] at good
              have short := dispatching seen good
              simpa using short
          · by_cases waits : decision = .wait
            · obtain ⟨stillNone, filledAfter⟩ := waiting waits
              rw [waits] at step
              rw [readAll_of_wait step, dispatchOnLast_cons last] at good
              injection good with _ later
              have short := inductionHypothesis last filledAfter stillNone later
              rwa [List.append_assoc, ← List.flatten_cons] at short
            · rw [readAll_of_stop waits step] at good
              exact absurd good (stop_ne_dispatchOnLast last waits seen)

/-- **Segmentation.** On a newly accepted connection, a complete request that
arrives in any pieces is dispatched exactly once, on its last piece and as it
was sent, if and only if the old memory is harmless at every cut and, when there
is a body, the positions fit an `int`. -/
theorem dispatched_once_iff_harmless (request : CompleteRequest) (chunks : List Bytes)
    (cut : request.CutInto chunks) (fd maxInputBufferLength maxOutputBufferLength : Nat)
    (inputMemory outputMemory : Bytes) (buffer : Buffer)
    (made : bufferFactory maxInputBufferLength maxOutputBufferLength inputMemory outputMemory
      true = some buffer)
    (fits : request.bytes.length < maxInputBufferLength) :
    Connection.readAll maxInputBufferLength ⟨buffer, requestFactory fd maxOutputBufferLength⟩
        chunks = dispatchOnLast chunks request.expected ↔
      Harmless request inputMemory false [] chunks ∧
        (request.body = [] ∨ request.bytes.length < 2147483648) := by
  obtain ⟨memory, length, _, position, _, _⟩ := bufferFactory_some made
  have filled : buffer.Filled inputMemory [] := memory ▸ Buffer.Filled.start position
  have size : maxInputBufferLength ≤ inputMemory.length := by
    rw [filled.memorySize, length]
  have nonempty : chunks ≠ [] := by
    intro empty
    have whole := cut.whole
    rw [empty, List.flatten_nil] at whole
    exact request.bytes_ne_nil whole.symm
  have sizes : ∀ chunk ∈ chunks, chunk ≠ [] := fun chunk member => (cut.sizes chunk member).1
  constructor
  · intro good
    have short := small_of_dispatchOnLast nonempty filled rfl good
    rw [List.nil_append, cut.whole] at short
    exact ⟨(readAll_iff_harmless short size fits buffer false nonempty sizes cut.whole
      (fun impossible => absurd impossible Bool.false_ne_true) filled).mp good, short⟩
  · rintro ⟨harmless, short⟩
    exact (readAll_iff_harmless short size fits buffer false nonempty sizes cut.whole
      (fun impossible => absurd impossible Bool.false_ne_true) filled).mpr harmless

/-- `GET / HTTP/1.1` without headers. -/
private def plainGet : CompleteRequest where
  block := ascii "GET / HTTP/1.1\r\n\r\n"
  body := []
  head := ⟨ascii "GET", ascii "/", 1, []⟩
  accepted := by unfold AcceptsBlock; decide
  announced := by exact rfl

/-- A 32-byte input buffer on memory that holds one value throughout. -/
private def uniformBuffer (value : UInt8) : Buffer where
  inputBuffer := List.replicate 32 value
  outputBuffer := [0]
  posOutputBuffer := 0
  posInputBuffer := 0
  numberBytesToSend := 0
  inputBufferLength := 32
  outputBufferLength := 1
  inputSize := List.length_replicate
  outputSize := rfl
  allocated := by decide

/-- The first byte of the request alone, the rest behind it. -/
private def splitGet : List Bytes :=
  [ascii "G", ascii "ET / HTTP/1.1\r\n\r\n"]

/-- Over memory that holds letters, the request in two pieces is dispatched. -/
theorem dispatched_over_letters :
    Connection.readAll 32 ⟨uniformBuffer 65, requestFactory 5 1⟩ splitGet =
      dispatchOnLast splitGet plainGet.expected :=
  (dispatched_once_iff_harmless plainGet splitGet ⟨by decide, by decide⟩ 5 32 1
    (List.replicate 32 65) [0] (uniformBuffer 65) rfl (by decide)).mpr
    ⟨.inr (.inr (show Harmless plainGet (List.replicate 32 65) false (ascii "G")
      [ascii "ET / HTTP/1.1\r\n\r\n"] from .inl rfl)), .inl rfl⟩

/-- Over memory that holds zeros, the first piece is taken for a bad request. -/
theorem closed_over_zeros :
    ¬ ∀ (request : CompleteRequest) (chunks : List Bytes) (fd maxInputBufferLength
        maxOutputBufferLength : Nat) (inputMemory outputMemory : Bytes) (buffer : Buffer),
      request.CutInto chunks →
      bufferFactory maxInputBufferLength maxOutputBufferLength inputMemory outputMemory true =
        some buffer →
      request.bytes.length < maxInputBufferLength →
      Connection.readAll maxInputBufferLength
          ⟨buffer, requestFactory fd maxOutputBufferLength⟩ chunks =
        dispatchOnLast chunks request.expected := by
  intro always
  have good := always plainGet splitGet 5 32 1 (List.replicate 32 0) [0] (uniformBuffer 0)
    ⟨by decide, by decide⟩ rfl (by decide)
  have closes : Connection.readAll 32 ⟨uniformBuffer 0, requestFactory 5 1⟩ splitGet =
      [.ok .close] := rfl
  rw [closes] at good
  exact stop_ne_dispatchOnLast (by decide) (by simp) _ good

end Onyxup.Server
