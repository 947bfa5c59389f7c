import Onyxup.Http.Query
import Onyxup.Http.Rendering
import Onyxup.Server.Segmentation

/-!
Contract: a request from the client that writes it to the handler that sees it.

Owns: what a client can ask for, how it writes it down, and the theorem that a
handler is given exactly that.

Does not own: cuts inside the header block, where the parser sees old memory.

Neither side escapes anything: names and values of parameters are free of the
separators, and those of headers are free of control characters. Header names
arrive in lower case, header values without the blanks around them.
-/

set_option autoImplicit false

namespace Onyxup.Server

open Onyxup.Lib.CString
open Onyxup.Lib.Pieces
open Onyxup.Lib.Incremental
open Onyxup.Lib.Memory
open Onyxup.Http
open Onyxup.Http.Parser

/-- A byte of the request target. -/
def TargetByte (byte : UInt8) : Prop :=
  byte ≠ 32 ∧ isTokenControl byte = false

/-- A header as a handler finds it. -/
def fieldSeen (field : Bytes × Bytes) : Bytes × Bytes :=
  (field.1.map toLower, (fieldRead field).value)

/-- What a client asks for. The length of the body is not among the fields: it is
written behind them. -/
structure ClientRequest where
  method : Bytes
  path : Bytes
  params : List (Bytes × Bytes)
  fields : List (Bytes × Bytes)
  body : Bytes
  isMethod : RequestToken method
  isPath : RequestToken path ∧ 63 ∉ path
  isParams : ∀ entry ∈ params, Joinable entry ∧
    (∀ byte ∈ entry.1, TargetByte byte) ∧ ∀ byte ∈ entry.2, TargetByte byte
  paramKeys : (params.map Prod.fst).Nodup
  isFields : ∀ field ∈ fields, WritableField field
  fieldNames : (fields.map fun field => field.1.map toLower).Nodup
  noLength : ∀ field ∈ fields, field.1.map toLower ≠ contentLength
  few : fields.length + (if body = [] then 0 else 1) ≤ headerSlots

namespace ClientRequest

variable (client : ClientRequest)

def target : Bytes :=
  if client.params = [] then client.path else client.path ++ 63 :: joinParams client.params

/-- The fields that are written, Content-Length last. -/
def allFields : List (Bytes × Bytes) :=
  if client.body = [] then client.fields
  else client.fields ++ [(ascii "Content-Length", decimal client.body.length)]

/-- The request line and the header block. -/
def block : Bytes :=
  client.method ++ [32] ++ client.target ++ [32] ++ ascii "HTTP/1." ++ [49] ++ [13, 10] ++
    fieldBlock client.allFields

def head : RequestHead where
  method := client.method
  path := client.target
  minorVersion := 1
  headers := client.allFields.map fieldRead

/-! ## What is written is accepted -/

theorem isTarget : RequestToken client.target := by
  unfold target
  split
  next => exact client.isPath.1
  next =>
    refine ⟨by simp, ?_⟩
    intro byte member
    rcases List.mem_append.mp member with inPath | inQuery
    · exact client.isPath.1.2 byte inPath
    rcases List.mem_cons.mp inQuery with rfl | inParams
    · exact ⟨by decide, by decide⟩
    by_cases separator : byte = 38
    · rw [separator]
      exact ⟨by decide, by decide⟩
    obtain ⟨segment, isSegment, inSegment⟩ :=
      exists_of_mem_intercalate inParams (by simpa using separator)
    obtain ⟨entry, isEntry, rfl⟩ := List.mem_map.mp isSegment
    obtain ⟨_, keyBytes, valueBytes⟩ := client.isParams entry isEntry
    rcases List.mem_append.mp inSegment with inKey | inRest
    · exact keyBytes byte inKey
    rcases List.mem_cons.mp inRest with rfl | inValue
    · exact ⟨by decide, by decide⟩
    · exact valueBytes byte inValue

theorem isAllFields : ∀ field ∈ client.allFields, WritableField field := by
  intro field member
  unfold allFields at member
  split at member
  next => exact client.isFields field member
  next =>
    rcases List.mem_append.mp member with given | length
    · exact client.isFields field given
    · obtain rfl := List.mem_singleton.mp length
      exact writableField_of (by decide +kernel) (by decide +kernel) (lineText_decimal _)

theorem fewFields : client.allFields.length ≤ headerSlots := by
  have few := client.few
  unfold allFields
  split
  next empty => rwa [if_pos empty] at few
  next nonempty =>
    rw [if_neg nonempty] at few
    rwa [List.length_append, List.length_singleton]

theorem isBlock : RequestBlock client.head client.block := by
  have isMinor : isDigit 49 = true := by decide
  have line := RequestLine.intro (.inl rfl) client.isMethod client.isTarget isMinor (.inl rfl)
  exact .intro line (headerBlock_of_fields client.isAllFields true)

/-! ## What is accepted is what was meant -/

/-- No header is written twice, in whatever case. -/
theorem distinctNames :
    ((client.allFields.map fieldSeen).map Prod.fst).Nodup := by
  rw [List.map_map]
  change (client.allFields.map fun field => field.1.map toLower).Nodup
  unfold allFields
  split
  next => exact client.fieldNames
  next =>
    have lower : (ascii "Content-Length").map toLower = contentLength := by decide
    rw [List.map_append, List.map_singleton, lower, List.nodup_append]
    refine ⟨client.fieldNames, List.nodup_singleton _, ?_⟩
    intro name member other isLength same
    obtain ⟨field, isField, rfl⟩ := List.mem_map.mp member
    rw [List.mem_singleton.mp isLength] at same
    exact client.noLength field isField same

/-- The header map has the fields that were written, and nothing else. -/
theorem headers_enumerated :
    Enumerates (headerMap client.head) (client.allFields.map fieldSeen) := by
  have folded : headerMap client.head = (client.allFields.map fieldSeen).foldl
      (fun headers entry => headers.insert entry.1 entry.2) ∅ := by
    rw [headerMap, head, List.foldl_map, List.foldl_map]
    rfl
  rw [folded]
  exact enumerates_foldl_insert client.distinctNames

/-- The Content-Length that the server finds is that of the body. -/
theorem announced :
    match (headerMap client.head).lookup contentLength with
    | some text => Decimal text ∧ digitsValue text = client.body.length
    | none => client.body = [] := by
  cases found : (headerMap client.head).lookup contentLength with
  | none =>
      dsimp only
      by_contra nonempty
      have written : (ascii "Content-Length", decimal client.body.length) ∈ client.allFields := by
        rw [allFields, if_neg nonempty]
        exact List.mem_append_right _ List.mem_cons_self
      have lower : (ascii "Content-Length").map toLower = contentLength := by decide
      have seen := (client.headers_enumerated.lookup _ _).mpr (List.mem_map_of_mem written)
      dsimp only [fieldSeen] at seen
      rw [lower, found] at seen
      cases seen
  | some text =>
      obtain ⟨field, member, same⟩ := List.mem_map.mp
        ((client.headers_enumerated.lookup _ _).mp found)
      obtain ⟨name, value⟩ := Prod.mk.inj same
      unfold allFields at member
      split at member
      next => exact absurd name (client.noLength field member)
      next =>
        rcases List.mem_append.mp member with given | length
        · exact absurd name (client.noLength field given)
        · obtain rfl := List.mem_singleton.mp length
          rw [← value, fieldRead_decimal]
          exact ⟨plain_decimal _, digitsValue_decimal _⟩

/-- The request as the server knows it. -/
def complete (small : client.block.length < 2147483648) : CompleteRequest where
  block := client.block
  body := client.body
  head := client.head
  accepted := by
    have few : client.head.headers.length ≤ headerSlots := by
      rw [head, List.length_map]
      exact client.fewFields
    have succeeds : parseRequest headerSlots client.block = .done client.head [] :=
      (reads_parseRequest headerSlots _ _ _).mpr
        ⟨client.block, (List.append_nil _).symm, client.isBlock, few⟩
    rw [AcceptsBlock, phrParseRequest_of_done succeeds]
    simp only [List.length_nil]
    rw [toInt32_of_small (by omega) (by omega)]
    simp
  announced := client.announced

/-- The handler sees what the client has asked for. -/
structure Sees (seen : Content) : Prop where
  method : seen.method = client.method
  fullUri : seen.fullUri = client.target
  uri : seen.uri = client.path
  headers : Enumerates seen.headers (client.allFields.map fieldSeen)
  params : Enumerates seen.params client.params
  body : seen.body = client.body

/-- Path and parameters come back from the target. -/
theorem parseParamsRequest_target (request : Request) (target : request.fullUri = client.target)
    (fresh : request.params = ∅) :
    parseParamsRequest request client.target.length =
      { request with
        uri := client.path
        params := client.params.foldl (fun params entry => params.insert entry.1 entry.2) ∅ } := by
  have nulFree : 0 ∉ request.fullUri := by
    rw [target]
    intro member
    exact absurd (client.isTarget.2 0 member).2 (by decide)
  rw [← target, parseParamsRequest_eq request nulFree, referenceRequest, target]
  by_cases silent : client.params = []
  · have path : client.target = client.path := if_pos silent
    rw [path, cutAt_eq_none_iff.mpr client.isPath.2, silent, List.foldl_nil, ← fresh]
  · have query : client.target = client.path ++ 63 :: joinParams client.params := if_neg silent
    rw [query, cutAt_append client.isPath.2, ← addSegments_joinParams fun entry member =>
      (client.isParams entry member).1, ← fresh]

/-- The accepted header block, up to the flag that a body is to come. -/
theorem acceptHead_head :
    ∃ bodyExists, (requestFactory 0 0).acceptHead client.head =
      { requestFactory 0 0 with
        headerAccept := true
        fullUri := client.target
        method := client.method
        headers := headerMap client.head
        uri := client.path
        params := client.params.foldl (fun params entry => params.insert entry.1 entry.2) ∅
        bodyExists := bodyExists } := by
  have fresh : (requestFactory 0 0).headerAccept = false := rfl
  have filled := client.parseParamsRequest_target
    { requestFactory 0 0 with
      headerAccept := true
      fullUri := client.head.path
      method := client.head.method
      headers := client.head.headers.foldl addHeader (requestFactory 0 0).headers } rfl rfl
  change parseParamsRequest _ client.head.path.length = _ at filled
  simp only [Request.acceptHead, fresh, Bool.false_eq_true, if_false, filled]
  split
  next => exact ⟨true, rfl⟩
  next => exact ⟨false, rfl⟩

theorem sees_expected (small : client.block.length < 2147483648) :
    client.Sees (client.complete small).expected := by
  obtain ⟨bodyExists, accepted⟩ := client.acceptHead_head
  have expected : (client.complete small).expected =
      { content ((requestFactory 0 0).acceptHead client.head) with body := client.body } := rfl
  rw [expected, accepted]
  exact ⟨rfl, rfl, rfl, client.headers_enumerated, enumerates_foldl_insert client.paramKeys, rfl⟩

end ClientRequest

/-- **From the client to the handler.** Whatever a client asks for that fits into the
input buffer and is shorter than `2 ^ 31` bytes, cut into pieces in any way that leaves
the header block whole, over any old memory: the server waits for the last piece, and
dispatches then what was asked for. -/
theorem handler_sees_request (client : ClientRequest) (chunk : Bytes) (rest : List Bytes)
    (whole : (chunk :: rest).flatten = client.block ++ client.body)
    (sizes : ∀ piece ∈ chunk :: rest, piece ≠ [] ∧ piece.length ≤ 4096)
    (first : client.block.length ≤ chunk.length) (buffer : Buffer) (memory : Bytes)
    (filled : buffer.Filled memory []) (fd maxInputBufferLength maxOutputBufferLength : Nat)
    (size : maxInputBufferLength ≤ memory.length)
    (fits : (client.block ++ client.body).length < maxInputBufferLength)
    (small : (client.block ++ client.body).length < 2147483648) :
    ∃ seen, client.Sees seen ∧
      Connection.readAll maxInputBufferLength ⟨buffer, requestFactory fd maxOutputBufferLength⟩
        (chunk :: rest) = dispatchOnLast (chunk :: rest) seen := by
  have blockSmall : client.block.length < 2147483648 := by
    rw [List.length_append] at small
    omega
  exact ⟨_, client.sees_expected blockSmall,
    readAll_of_whole_block ⟨whole, sizes⟩ first filled size fits small⟩

/-- `POST /p?k=v` with a header of the client's and a body. -/
def postHello : ClientRequest where
  method := ascii "POST"
  path := ascii "/p"
  params := [(ascii "k", ascii "v")]
  fields := [(ascii "X-Trace", ascii " 17 ")]
  body := ascii "hello"
  isMethod := ⟨by decide +kernel, by decide +kernel⟩
  isPath := ⟨⟨by decide +kernel, by decide +kernel⟩, by decide +kernel⟩
  isParams := by
    intro entry member
    obtain rfl := List.mem_singleton.mp member
    refine ⟨⟨by decide, by decide⟩, ?_, ?_⟩
    · unfold TargetByte
      decide +kernel
    · unfold TargetByte
      decide +kernel
  paramKeys := by decide
  isFields := by decide +kernel
  fieldNames := by decide
  noLength := by decide
  few := by decide

/-- An input buffer of 128 bytes on memory that holds zeros. -/
def zeroBuffer : Buffer where
  inputBuffer := List.replicate 128 0
  outputBuffer := List.replicate 16 0
  posOutputBuffer := 0
  posInputBuffer := 0
  numberBytesToSend := 0
  inputBufferLength := 128
  outputBufferLength := 16
  inputSize := List.length_replicate
  outputSize := List.length_replicate
  allocated := by decide

/-- The body arrives in two pieces, the first behind the header block. -/
theorem post_in_two_pieces :
    ∃ seen, postHello.Sees seen ∧
      Connection.readAll 128 ⟨zeroBuffer, requestFactory 5 1⟩
        [postHello.block ++ ascii "he", ascii "llo"] =
      [.ok .wait, .ok (.dispatch seen)] :=
  handler_sees_request postHello (postHello.block ++ ascii "he") [ascii "llo"] (by decide)
    (by decide) (by decide) zeroBuffer (List.replicate 128 0) (Buffer.Filled.start rfl) 5 128 1
    (Nat.le_of_eq List.length_replicate.symm) (by decide +kernel) (by decide +kernel)

end Onyxup.Server
