import Onyxup.Response.Framing

/-!
Contract: which transformation the chain applies, and what becomes of the handler's code.

Owns: the choice of the chain apart from its work, the exact condition under which every
predicate it consults has a value, and the turn of a worker from the handler's response to
the bytes of the answer.

Does not own: what the transformations do to the body.
-/

set_option autoImplicit false

namespace Onyxup.Response

open Onyxup.Lib.CString
open Onyxup.Lib.Fallible
open Onyxup.Http

/-! ## The choice -/

/-- What the members of the chain do to a response. -/
inductive Transformation where
  | head
  | partialContent (ranges : List ByteRange)
  | notSatisfiable
  | compressed
  | default
deriving DecidableEq, Repr

/-- The work of the member that is chosen. -/
def Transformation.apply (deflate : Bytes → Bytes) (response : ResponseBase) :
    Transformation → Except ChainFault ResponseBase
  | head => .ok { addContentLength response with body := [] }
  | partialContent ranges => prepareRangeResponse response ranges
  | notSatisfiable => .ok (prepareRangeNotSatisfiableResponse response)
  | compressed => prepareCompressResponse deflate response
  | default => executeDefault response

/-- The choice of the Range member. -/
def selectRange (library : RangeLibrary) (request : Request) (response : ResponseBase) :
    Except ChainFault Transformation :=
  let src := (request.headers.lookup (ascii "range")).getD []
  match parseRangesRequest library src (lastIndex response.body) with
  | .ok ranges => .ok (.partialContent ranges)
  | .error .onyxupException => .ok .notSatisfiable
  | .error .outOfRange => .error .outOfRange

/-- The choice between Compress and Default. -/
def selectCompress (compressStaticResources : Bool) (request : Request) (type : EnumTaskType)
    (response : ResponseBase) : Except ChainFault Transformation := do
  let supported ← checkSupportGzipEncoding request
  if supported && response.compress then .ok .compressed
  else if type = .staticResourcesTask ∧ compressStaticResources = true then .ok .compressed
  else .ok .default

/-- The choice of the whole chain. -/
def selectTransformation (library : RangeLibrary) (compressStaticResources : Bool)
    (request : Request) (type : EnumTaskType) (response : ResponseBase) :
    Except ChainFault Transformation :=
  if request.method = ascii "HEAD" then .ok .head
  else do
    let ranged ← checkRequestRange request
    if ranged then selectRange library request response
    else selectCompress compressStaticResources request type response

section Choice

variable (library : RangeLibrary) (deflate : Bytes → Bytes) (compressStaticResources : Bool)
variable (request : Request) (type : EnumTaskType) (response : ResponseBase)

private theorem executeCompress_eq :
    executeCompress deflate compressStaticResources executeDefault request type response =
      selectCompress compressStaticResources request type response >>=
        (·.apply deflate response) := by
  unfold executeCompress selectCompress
  cases checkSupportGzipEncoding request with
  | error fault => rfl
  | ok supported =>
      change (if (supported && response.compress) = true then _ else _) =
        (if (supported && response.compress) = true then _ else _) >>= _
      split
      next => rfl
      next => split <;> rfl

/-- The chain does what it has chosen. -/
theorem executeChain_eq :
    executeChain library deflate compressStaticResources request type response =
      selectTransformation library compressStaticResources request type response >>=
        (·.apply deflate response) := by
  unfold executeChain executeHead selectTransformation
  split
  next => rfl
  next =>
    unfold executeRange
    cases checkRequestRange request with
    | error fault => rfl
    | ok ranged =>
        cases ranged with
        | false => exact executeCompress_eq deflate compressStaticResources request type response
        | true =>
            change _ = selectRange library request response >>= _
            unfold selectRange
            dsimp only
            cases parseRangesRequest library ((request.headers.lookup (ascii "range")).getD [])
                (lastIndex response.body) with
            | ok ranges => rfl
            | error fault => cases fault <;> rfl

end Choice

/-! ## The predicates that are consulted -/

/-- Every predicate that the chain gets to has a value. -/
def ConsultedReturn (request : Request) : Prop :=
  request.method ≠ ascii "HEAD" →
    ∃ ranged, checkRequestRange request = .ok ranged ∧
      (ranged = false → ∃ supported, checkSupportGzipEncoding request = .ok supported)

/-- The predicates return, and the chain applies exactly one transformation. -/
structure OutcomeDefined (library : RangeLibrary) (deflate : Bytes → Bytes)
    (compressStaticResources : Bool) (request : Request) (type : EnumTaskType)
    (response : ResponseBase) : Prop where
  returns : ConsultedReturn request
  applies : ∃! transformation : Transformation,
    selectTransformation library compressStaticResources request type response =
        .ok transformation ∧
      executeChain library deflate compressStaticResources request type response =
        transformation.apply deflate response

/-- A Range header mentions `bytes` and does not lose the position behind it; without a Range
header, an Accept-Encoding header mentions `gzip`. -/
def Answerable (request : Request) (response : ResponseBase) : Prop :=
  match request.headers.lookup (ascii "range") with
  | none => EncodingDecided request
  | some src => (find src (ascii "bytes")).isSome = true ∧
      (lastIndex response.body = 0 ∨ ¬ PositionLost src)

section Consulted

variable {library : RangeLibrary} {deflate : Bytes → Bytes} {compressStaticResources : Bool}
variable {request : Request} {type : EnumTaskType} {response : ResponseBase}

private theorem checkHeader_ok_iff {name wanted : Bytes} :
    (∃ answer, checkHeader request name wanted = .ok answer) ↔ Decided request name wanted := by
  constructor
  · rintro ⟨answer, returned⟩
    by_contra undecided
    rw [checkHeader_of_undecided undecided] at returned
    cases returned
  · intro decided
    exact ⟨_, checkHeader_of_decided decided⟩

private theorem selectCompress_ok_iff :
    (∃ transformation, selectCompress compressStaticResources request type response =
        .ok transformation) ↔ EncodingDecided request := by
  rw [EncodingDecided, ← checkHeader_ok_iff]
  constructor
  · rintro ⟨transformation, selected⟩
    obtain ⟨supported, returned, _⟩ := bind_ok selected
    exact ⟨supported, returned⟩
  · rintro ⟨supported, returned⟩
    have consulted : checkSupportGzipEncoding request = .ok supported := returned
    rw [selectCompress, consulted]
    change ∃ transformation, (if (supported && response.compress) = true then _ else _) = _
    split
    next => exact ⟨_, rfl⟩
    next => split <;> exact ⟨_, rfl⟩

private theorem selectRange_ok_iff {src : Bytes}
    (asked : request.headers.lookup (ascii "range") = some src) :
    (∃ transformation, selectRange library request response = .ok transformation) ↔
      lastIndex response.body = 0 ∨ ¬ PositionLost src := by
  have lost := parseRangesRequest_outOfRange library src (lastIndex response.body)
  simp only [selectRange, asked, Option.getD_some]
  rw [← not_iff_not, not_or, not_not, ← Ne, ← lost]
  cases parseRangesRequest library src (lastIndex response.body) with
  | ok ranges => simp
  | error fault => cases fault <;> simp

/-- A choice is made, and every predicate on the way to it returns, under one condition. -/
theorem selected_iff (notHead : request.method ≠ ascii "HEAD") :
    (ConsultedReturn request ∧
        ∃ transformation, selectTransformation library compressStaticResources request type
          response = .ok transformation) ↔
      Answerable request response := by
  unfold ConsultedReturn selectTransformation Answerable
  rw [if_neg notHead]
  cases asked : request.headers.lookup (ascii "range") with
  | none =>
      have absent : checkRequestRange request = .ok false := by
        rw [checkRequestRange, checkHeader, asked]
      rw [absent]
      change _ ∧ (∃ transformation, selectCompress compressStaticResources request type response =
        .ok transformation) ↔ _
      rw [selectCompress_ok_iff]
      constructor
      · exact And.right
      · intro decided
        exact ⟨fun _ => ⟨false, rfl, fun _ => ⟨_, checkHeader_of_decided decided⟩⟩, decided⟩
  | some src =>
      dsimp only
      by_cases mentions : (find src (ascii "bytes")).isSome = true
      · have present : checkRequestRange request = .ok true := by
          simp only [checkRequestRange, checkHeader, asked, mentions, if_true]
        rw [present]
        change _ ∧ (∃ transformation, selectRange library request response = .ok transformation) ↔ _
        rw [selectRange_ok_iff asked]
        constructor
        · rintro ⟨_, kept⟩
          exact ⟨mentions, kept⟩
        · rintro ⟨_, kept⟩
          exact ⟨fun _ => ⟨true, rfl, fun impossible => absurd impossible (by decide)⟩, kept⟩
      · have failed : checkRequestRange request = .error .noReturn := by
          simp only [checkRequestRange, checkHeader, asked, if_neg mentions]
        rw [failed]
        apply iff_of_false
        · rintro ⟨_, _, impossible⟩
          cases impossible
        · rintro ⟨contains, _⟩
          exact mentions contains

end Consulted

/-- **The chain's outcome is defined** exactly for HEAD and for requests whose headers have
what the chain looks for. With another range unit, or another content coding, a predicate
runs off its end. -/
theorem outcome_defined_iff (library : RangeLibrary) (deflate : Bytes → Bytes)
    (compressStaticResources : Bool) (request : Request) (type : EnumTaskType)
    (response : ResponseBase) :
    OutcomeDefined library deflate compressStaticResources request type response ↔
      request.method = ascii "HEAD" ∨ Answerable request response := by
  have unique : (∃! transformation : Transformation,
      selectTransformation library compressStaticResources request type response =
          .ok transformation ∧
        executeChain library deflate compressStaticResources request type response =
          transformation.apply deflate response) ↔
      ∃ transformation, selectTransformation library compressStaticResources request type
        response = .ok transformation := by
    constructor
    · rintro ⟨transformation, ⟨selected, _⟩, _⟩
      exact ⟨transformation, selected⟩
    · rintro ⟨transformation, selected⟩
      refine ⟨transformation, ⟨selected, ?_⟩, ?_⟩
      · rw [executeChain_eq, selected]
        rfl
      · rintro other ⟨alsoSelected, _⟩
        rw [selected] at alsoSelected
        cases alsoSelected
        rfl
  by_cases isHead : request.method = ascii "HEAD"
  · refine iff_of_true ⟨fun notHead => absurd isHead notHead, unique.mpr ⟨.head, ?_⟩⟩ (.inl isHead)
    rw [selectTransformation, if_pos isHead]
  · rw [or_iff_right isHead, ← selected_iff isHead]
    constructor
    · intro defined
      exact ⟨defined.returns, unique.mp defined.applies⟩
    · rintro ⟨returns, selected⟩
      exact ⟨returns, unique.mpr selected⟩

/-- A client that takes another coding only. -/
theorem other_coding_without_answer :
    checkSupportGzipEncoding (encodingRequest (ascii "br")) = .error .noReturn ∧
      ¬ OutcomeDefined stableLibrary id false (encodingRequest (ascii "br")) .localTask
        tenBytes := by
  have failed : checkSupportGzipEncoding (encodingRequest (ascii "br")) = .error .noReturn := by
    decide +kernel
  have absent : checkRequestRange (encodingRequest (ascii "br")) = .ok false := by
    decide +kernel
  refine ⟨failed, ?_⟩
  intro defined
  obtain ⟨ranged, returned, consulted⟩ := defined.returns (by decide)
  rw [absent] at returned
  cases returned
  obtain ⟨supported, answered⟩ := consulted rfl
  rw [failed] at answered
  cases answered

/-! ## The handler's code -/

/-- What a worker writes into a task. -/
structure Performed where
  code : Int
  responseData : Bytes
deriving DecidableEq, Repr

/-- The turn of `tasksHandler` behind the handler. The code is taken from the response before
the chain runs, the bytes after it; `entries` are the headers that the chain leaves, in the
order of the map. JSON-RPC tasks are passed on as they are. -/
def performResponse (identity : Identity) (datetime : Bytes)
    (entries : List (Bytes × Bytes)) (library : RangeLibrary) (deflate : Bytes → Bytes)
    (compressStaticResources : Bool) (request : Request) (type : EnumTaskType)
    (response : ResponseBase) : Except ChainFault (Option Performed) :=
  match type with
  | .jsonRpcTask => .ok none
  | _ => do
      let prepared ← executeChain library deflate compressStaticResources request type response
      .ok (some {
        code := response.code
        responseData := prepared.prepareResponse identity datetime entries })

/-- The bytes of an answer state this code. -/
def HasStatus (data : Bytes) (code : Int) : Prop :=
  ascii "HTTP/1.1 " ++ decimalInt code ++ ascii " " <+: data

instance (data : Bytes) (code : Int) : Decidable (HasStatus data code) :=
  inferInstanceAs (Decidable (_ <+: _))

section Status

private theorem space_not_mem_decimalInt (value : Int) : 32 ∉ decimalInt value := by
  have digits : 32 ∉ decimal value.natAbs :=
    fun member => absurd (isDigit_of_mem_decimal member) (by decide)
  unfold decimalInt
  split
  · rw [List.mem_cons, not_or]
    exact ⟨by decide, digits⟩
  · exact digits

private theorem takeWhile_decimalInt (value : Int) (rest : Bytes) :
    (decimalInt value ++ 32 :: rest).takeWhile (· != 32) = decimalInt value := by
  rw [List.takeWhile_append_of_pos]
  · simp
  · intro byte member
    rw [bne_iff_ne]
    rintro rfl
    exact space_not_mem_decimalInt value member

theorem decimalInt_injective : Function.Injective decimalInt := by
  have noSign : ∀ (value : Nat) (rest : Bytes), decimal value ≠ 45 :: rest := by
    intro value rest same
    have member : 45 ∈ decimal value := same ▸ List.mem_cons_self
    exact absurd (isDigit_of_mem_decimal member) (by decide)
  intro left right same
  unfold decimalInt at same
  split at same <;> split at same
  next =>
    have magnitude := decimal_injective (List.cons.inj same).2
    omega
  next => exact absurd same.symm (noSign _ _)
  next => exact absurd same (noSign _ _)
  next =>
    have magnitude := decimal_injective same
    omega

private theorem length_decimalInt {value : Int} (lower : -2147483648 ≤ value)
    (upper : value < 2147483648) : (decimalInt value).length ≤ 11 := by
  have digits : (decimal value.natAbs).length ≤ 10 := by
    rw [decimal, List.length_map, Nat.length_toDigits_le_iff (by decide) (by decide)]
    omega
  unfold decimalInt
  split
  · rw [List.length_cons]
    omega
  · omega

/-- The code that is stated is the code of the response. -/
theorem hasStatus_prepareResponse (identity : Identity) (datetime : Bytes)
    (entries : List (Bytes × Bytes)) {response : ResponseBase}
    (lower : -2147483648 ≤ response.code) (upper : response.code < 2147483648) (code : Int) :
    HasStatus (response.prepareResponse identity datetime entries) code ↔
      response.code = code := by
  have own : HasStatus (response.prepareResponse identity datetime entries) response.code := by
    refine List.IsPrefix.trans ?_ (List.prefix_append _ _)
    rw [List.prefix_take_iff]
    constructor
    · simp only [ResponseBase.headerText, List.append_assoc, List.prefix_append_right_inj,
        List.prefix_append]
    · have digits := length_decimalInt lower upper
      have version : (ascii "HTTP/1.1 ").length = 9 := by decide
      have space : (ascii " ").length = 1 := by decide
      simp only [List.length_append, version, space]
      omega
  constructor
  · intro stated
    obtain ⟨rest, isText⟩ := own
    obtain ⟨other, alsoText⟩ := stated
    have same := isText.trans alsoText.symm
    have space : ascii " " = [32] := by decide
    simp only [List.append_assoc, List.append_cancel_left_eq, space, List.singleton_append] at same
    have codes := congrArg (List.takeWhile (· != 32)) same
    rw [takeWhile_decimalInt, takeWhile_decimalInt] at codes
    exact decimalInt_injective codes
  · rintro rfl
    exact own

end Status

/-! ## What is stated and what was returned -/

/-- The code of the response is the one that the Range member would set. -/
def CodeOfRange (library : RangeLibrary) (src : Bytes) (response : ResponseBase) : Prop :=
  match parseRangesRequest library src (lastIndex response.body) with
  | .ok _ => response.code = 206
  | .error _ => response.code = 416

/-- Without a Range header the code stays; with one it becomes 206 or 416. -/
theorem prepared_code_iff {library : RangeLibrary} {deflate : Bytes → Bytes}
    {compressStaticResources : Bool} {request : Request} {type : EnumTaskType}
    {response after : ResponseBase}
    (prepared : Prepared library deflate compressStaticResources request type response after) :
    after.code = response.code ↔
      ∀ src, request.headers.lookup (ascii "range") = some src →
        CodeOfRange library src response := by
  cases prepared with
  | compressed absent => simp [absent, addContentLength, ResponseBase.addHeader]
  | plain absent => simp [absent, addContentLength, ResponseBase.addHeader]
  | ranged asked mentions parsed prepared =>
      simp only [asked, Option.some.injEq, forall_eq', CodeOfRange, parsed,
        prepareRangeResponse_code prepared, eq_comm]
  | refused asked mentions parsed =>
      simp only [asked, Option.some.injEq, forall_eq', CodeOfRange, parsed,
        prepareRangeNotSatisfiableResponse, eq_comm]

/-- The worker records the handler's code, and the bytes of the answer state it. -/
def StatusKept (identity : Identity) (datetime : Bytes) (entries : List (Bytes × Bytes))
    (library : RangeLibrary) (deflate : Bytes → Bytes) (compressStaticResources : Bool)
    (request : Request) (type : EnumTaskType) (response : ResponseBase) : Prop :=
  ∃ performed, performResponse identity datetime entries library deflate compressStaticResources
      request type response = .ok performed ∧
    ∀ task ∈ performed, task.code = response.code ∧ HasStatus task.responseData response.code

private theorem executeChain_code {library : RangeLibrary} {deflate : Bytes → Bytes}
    {compressStaticResources : Bool} {request : Request} {type : EnumTaskType}
    {response after : ResponseBase}
    (executed : executeChain library deflate compressStaticResources request type response =
      .ok after) :
    after.code = response.code ∨ after.code = 206 ∨ after.code = 416 := by
  by_cases isHead : request.method = ascii "HEAD"
  · rw [executeChain_of_head isHead] at executed
    cases executed
    exact .inl rfl
  · cases (executeChain_ok_iff isHead).mp executed with
    | compressed => exact .inl rfl
    | plain => exact .inl rfl
    | ranged _ _ _ prepared => exact .inr (.inl (prepareRangeResponse_code prepared))
    | refused => exact .inr (.inr rfl)

private theorem statusKept_iff_code {identity : Identity} {datetime : Bytes}
    {entries : List (Bytes × Bytes)} {library : RangeLibrary} {deflate : Bytes → Bytes}
    {compressStaticResources : Bool} {request : Request} {type : EnumTaskType}
    {response : ResponseBase} (run : type ≠ .jsonRpcTask)
    (lower : -2147483648 ≤ response.code) (upper : response.code < 2147483648) :
    StatusKept identity datetime entries library deflate compressStaticResources request type
        response ↔
      ∃ after, executeChain library deflate compressStaticResources request type response =
        .ok after ∧ after.code = response.code := by
  have performs : performResponse identity datetime entries library deflate compressStaticResources
      request type response =
      executeChain library deflate compressStaticResources request type response >>=
        fun prepared => .ok (some {
          code := response.code
          responseData := prepared.prepareResponse identity datetime entries }) := by
    cases type with
    | jsonRpcTask => exact absurd rfl run
    | localTask => rfl
    | staticResourcesTask => rfl
  rw [StatusKept, performs]
  cases executed : executeChain library deflate compressStaticResources request type response with
  | error fault =>
      apply iff_of_false
      · rintro ⟨_, impossible, _⟩
        cases impossible
      · rintro ⟨_, impossible, _⟩
        cases impossible
  | ok prepared =>
      have bounds : -2147483648 ≤ prepared.code ∧ prepared.code < 2147483648 := by
        rcases executeChain_code executed with same | same | same <;> omega
      have stated := hasStatus_prepareResponse identity datetime entries
        bounds.1 bounds.2 response.code
      constructor
      · rintro ⟨performed, isPerformed, kept⟩
        cases isPerformed
        exact ⟨prepared, rfl, stated.mp (kept _ rfl).2⟩
      · rintro ⟨after, same, code⟩
        cases same
        refine ⟨_, rfl, ?_⟩
        rintro task ⟨⟩
        exact ⟨rfl, stated.mpr code⟩

/-- **The handler's code reaches the client** exactly if the chain returns and there is no Range
header, or the code is already the one that the header leads to. The Range member looks at
the request only: an error page becomes a 206 or a 416. -/
theorem status_kept_iff (identity : Identity) (datetime : Bytes)
    (entries : List (Bytes × Bytes)) (library : RangeLibrary) (deflate : Bytes → Bytes)
    (compressStaticResources : Bool) (request : Request) (type : EnumTaskType)
    (response : ResponseBase) (lower : -2147483648 ≤ response.code)
    (upper : response.code < 2147483648) :
    StatusKept identity datetime entries library deflate compressStaticResources request type
        response ↔
      type = .jsonRpcTask ∨ request.method = ascii "HEAD" ∨
        Returns library compressStaticResources request type response ∧
          ∀ src, request.headers.lookup (ascii "range") = some src →
            CodeOfRange library src response := by
  by_cases passedOn : type = .jsonRpcTask
  · refine iff_of_true ⟨none, ?_, by simp⟩ (.inl passedOn)
    rw [passedOn]
    rfl
  · rw [or_iff_right passedOn, statusKept_iff_code passedOn lower upper]
    by_cases isHead : request.method = ascii "HEAD"
    · refine iff_of_true ⟨_, executeChain_of_head isHead, rfl⟩ (.inl isHead)
    · have returns : (∃ after, executeChain library deflate compressStaticResources request type
          response = .ok after) ↔ Returns library compressStaticResources request type response :=
        executeChain_returns_iff isHead
      rw [or_iff_right isHead, ← returns]
      simp only [executeChain_ok_iff isHead]
      constructor
      · rintro ⟨after, prepared, code⟩
        exact ⟨⟨after, prepared⟩, (prepared_code_iff prepared).mp code⟩
      · rintro ⟨⟨after, prepared⟩, codeOfRange⟩
        exact ⟨after, prepared, (prepared_code_iff prepared).mpr codeOfRange⟩

/-- An error page. -/
def notFoundPage : ResponseBase :=
  .make 404 (ascii "Not Found") mimeTextHtml (ascii "0123456789")

/-- Without a Range header the page stays a 404. -/
theorem not_found_kept :
    StatusKept ⟨ascii "0.0.0.0", 80⟩ (ascii "2020-01-01 00:00:00")
      [(ascii "Content-Length", ascii "10")] stableLibrary id false
      { requestFactory 1 1024 with method := ascii "GET" } .localTask notFoundPage := by
  apply (status_kept_iff ⟨ascii "0.0.0.0", 80⟩ (ascii "2020-01-01 00:00:00")
    [(ascii "Content-Length", ascii "10")] stableLibrary id false
    { requestFactory 1 1024 with method := ascii "GET" } .localTask notFoundPage (by decide)
    (by decide)).mpr
  refine .inr (.inr ⟨⟨?_, fun asked => absurd asked (by decide)⟩, ?_⟩)
  · rintro text ⟨⟩
  · rintro src ⟨⟩

/-- With a Range header the client gets a partial success, and 404 is what is recorded. -/
theorem not_found_becomes_partial :
    ∃ data, performResponse ⟨ascii "0.0.0.0", 80⟩ (ascii "2020-01-01 00:00:00")
        [(ascii "Content-Length", ascii "4"), (ascii "Content-Range", ascii "bytes 0-3/10")]
        stableLibrary id false (rangeRequest (ascii "bytes=0-3")) .localTask notFoundPage =
          .ok (some ⟨404, data⟩) ∧ HasStatus data 206 ∧
      ¬ StatusKept ⟨ascii "0.0.0.0", 80⟩ (ascii "2020-01-01 00:00:00")
        [(ascii "Content-Length", ascii "4"), (ascii "Content-Range", ascii "bytes 0-3/10")]
        stableLibrary id false (rangeRequest (ascii "bytes=0-3")) .localTask notFoundPage := by
  refine ⟨_, rfl, by decide +kernel, ?_⟩
  rintro ⟨performed, isPerformed, kept⟩
  cases isPerformed
  exact absurd (kept _ rfl).2 (by decide +kernel)

end Onyxup.Response
