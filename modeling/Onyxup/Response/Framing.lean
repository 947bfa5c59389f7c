import Onyxup.Response.Chain

/-!
Contract: what leaves the chain.

Owns: three laws of the prepared response, each with the exact condition under
which the chain keeps it. The stated length is the length of the body; HEAD is
answered as GET is, without the body; the content coding is one the client has
asked for and is undone by decoding.

Does not own: what a Range answer copies, and the handler's own headers.

Every law asks for a response, so each condition says first that the chain
returns one: the predicates it consults reach a `return`, the ranges it copies
are there, and `gzip::compress` accepts the size.
-/

set_option autoImplicit false

namespace Onyxup.Response

open Onyxup.Lib.CString
open Onyxup.Lib.Fallible
open Onyxup.Http

/-! ## The predicates -/

/-- A header that the chain looks into is absent or contains what it looks for. -/
def Decided (request : Request) (name wanted : Bytes) : Prop :=
  ∀ text, request.headers.lookup name = some text → (find text wanted).isSome = true

/-- The chain's question whether the client takes gzip has an answer. -/
def EncodingDecided (request : Request) : Prop :=
  Decided request (ascii "accept-encoding") (ascii "gzip")

/-- The client takes gzip. -/
def supportsGzip (request : Request) : Bool :=
  (request.headers.lookup (ascii "accept-encoding")).any fun text =>
    (find text (ascii "gzip")).isSome

/-- The chain calls `prepareCompressResponse`. -/
def compresses (compressStaticResources : Bool) (request : Request) (type : EnumTaskType)
    (response : ResponseBase) : Bool :=
  supportsGzip request && response.compress ||
    decide (type = .staticResourcesTask) && compressStaticResources

section Predicates

variable {request : Request} {name wanted : Bytes}

theorem checkHeader_of_decided (decided : Decided request name wanted) :
    checkHeader request name wanted =
      .ok ((request.headers.lookup name).any fun text => (find text wanted).isSome) := by
  unfold checkHeader
  cases found : request.headers.lookup name with
  | none => rfl
  | some text =>
      rw [Option.any_some, decided text found]
      exact if_pos (decided text found)

theorem checkHeader_of_undecided (undecided : ¬ Decided request name wanted) :
    checkHeader request name wanted = .error .noReturn := by
  simp only [Decided, not_forall] at undecided
  obtain ⟨text, found, missing⟩ := undecided
  rw [checkHeader, found]
  exact if_neg missing

variable {deflate : Bytes → Bytes} {compressStaticResources : Bool} {next : Next}
variable {type : EnumTaskType} {response : ResponseBase}

/-- The two tests of the Compress member are one. -/
theorem executeCompress_of_decided (decided : EncodingDecided request) :
    executeCompress deflate compressStaticResources next request type response =
      if compresses compressStaticResources request type response = true then
        prepareCompressResponse deflate response
      else next response := by
  have supported : checkSupportGzipEncoding request = .ok (supportsGzip request) :=
    checkHeader_of_decided decided
  have either : compresses compressStaticResources request type response = true ↔
      (supportsGzip request && response.compress) = true ∨
        type = .staticResourcesTask ∧ compressStaticResources = true := by
    simp only [compresses, Bool.or_eq_true, Bool.and_eq_true, decide_eq_true_eq]
  rw [executeCompress, supported]
  change (if (supportsGzip request && response.compress) = true then _ else _) = _
  by_cases asked : (supportsGzip request && response.compress) = true
  · rw [if_pos asked, if_pos (either.mpr (.inl asked))]
  · rw [if_neg asked]
    apply if_congr ?_ rfl rfl
    rw [either, or_iff_right asked]

theorem executeCompress_of_undecided (undecided : ¬ EncodingDecided request) :
    executeCompress deflate compressStaticResources next request type response =
      .error .noReturn := by
  have failed : checkSupportGzipEncoding request = .error .noReturn :=
    checkHeader_of_undecided undecided
  rw [executeCompress, failed]
  rfl

end Predicates

/-! ## The chain by the request -/

section Chain

variable {library : RangeLibrary} {deflate : Bytes → Bytes} {compressStaticResources : Bool}
variable {request : Request} {type : EnumTaskType} {response after : ResponseBase}

theorem executeChain_of_head (isHead : request.method = ascii "HEAD") :
    executeChain library deflate compressStaticResources request type response =
      .ok { addContentLength response with body := [] } := by
  rw [executeChain, executeHead, if_pos isHead]

/-- Without a Range header, Compress decides. -/
theorem executeChain_of_noRange (notHead : request.method ≠ ascii "HEAD")
    (absent : request.headers.lookup (ascii "range") = none) :
    executeChain library deflate compressStaticResources request type response =
      executeCompress deflate compressStaticResources executeDefault request type response := by
  rw [executeChain, executeHead, if_neg notHead, executeRange, checkRequestRange, checkHeader,
    absent]

/-- With one, Range decides. -/
theorem executeChain_of_range {src : Bytes} (notHead : request.method ≠ ascii "HEAD")
    (asked : request.headers.lookup (ascii "range") = some src) :
    executeChain library deflate compressStaticResources request type response =
      if (find src (ascii "bytes")).isSome = true then
        match parseRangesRequest library src (lastIndex response.body) with
        | .ok ranges => prepareRangeResponse response ranges
        | .error .onyxupException => .ok (prepareRangeNotSatisfiableResponse response)
        | .error .outOfRange => .error .outOfRange
      else .error .noReturn := by
  rw [executeChain, executeHead, if_neg notHead, executeRange, checkRequestRange, checkHeader,
    asked]
  dsimp only
  by_cases mentions : (find src (ascii "bytes")).isSome = true
  · rw [if_pos mentions, if_pos mentions]
    rfl
  · rw [if_neg mentions, if_neg mentions]

theorem prepareCompressResponse_ok
    (prepared : prepareCompressResponse deflate response = .ok after) :
    response.body.length ≤ gzipMaxBytes ∧
      after = addContentLength { response.addHeader (ascii "Content-Encoding") (ascii "gzip") with
        body := deflate response.body } := by
  obtain ⟨compressed, accepted, prepared⟩ := bind_ok prepared
  unfold gzipCompress at accepted
  split at accepted
  next => cases accepted
  next fits =>
    cases accepted
    cases prepared
    exact ⟨Nat.le_of_not_lt fits, rfl⟩

theorem prepareCompressResponse_of_fits (fits : response.body.length ≤ gzipMaxBytes) :
    prepareCompressResponse deflate response =
      .ok (addContentLength
        { response.addHeader (ascii "Content-Encoding") (ascii "gzip") with
          body := deflate response.body }) := by
  rw [prepareCompressResponse, gzipCompress, if_neg (Nat.not_lt.mpr fits)]
  rfl

/-- The four endings of a chain that does not end at Head. -/
inductive Prepared (library : RangeLibrary) (deflate : Bytes → Bytes)
    (compressStaticResources : Bool) (request : Request) (type : EnumTaskType)
    (response : ResponseBase) : ResponseBase → Prop where
  | compressed (absent : request.headers.lookup (ascii "range") = none)
      (decided : EncodingDecided request)
      (asked : compresses compressStaticResources request type response = true)
      (fits : response.body.length ≤ gzipMaxBytes) :
      Prepared library deflate compressStaticResources request type response
        (addContentLength { response.addHeader (ascii "Content-Encoding") (ascii "gzip") with
          body := deflate response.body })
  | plain (absent : request.headers.lookup (ascii "range") = none)
      (decided : EncodingDecided request)
      (unasked : compresses compressStaticResources request type response = false) :
      Prepared library deflate compressStaticResources request type response
        (addContentLength response)
  | ranged {src : Bytes} {ranges : List ByteRange} {after : ResponseBase}
      (asked : request.headers.lookup (ascii "range") = some src)
      (mentions : (find src (ascii "bytes")).isSome = true)
      (parsed : parseRangesRequest library src (lastIndex response.body) = .ok ranges)
      (prepared : prepareRangeResponse response ranges = .ok after) :
      Prepared library deflate compressStaticResources request type response after
  | refused {src : Bytes} (asked : request.headers.lookup (ascii "range") = some src)
      (mentions : (find src (ascii "bytes")).isSome = true)
      (parsed : parseRangesRequest library src (lastIndex response.body) =
        .error .onyxupException) :
      Prepared library deflate compressStaticResources request type response
        (prepareRangeNotSatisfiableResponse response)

private theorem prepared_of_noRange
    (absent : request.headers.lookup (ascii "range") = none)
    (executed : executeCompress deflate compressStaticResources executeDefault request type
      response = .ok after) :
    Prepared library deflate compressStaticResources request type response after := by
  by_cases decided : EncodingDecided request
  · rw [executeCompress_of_decided decided] at executed
    split at executed
    next asked =>
      obtain ⟨fits, rfl⟩ := prepareCompressResponse_ok executed
      exact .compressed absent decided asked fits
    next unasked =>
      cases executed
      exact .plain absent decided (Bool.eq_false_iff.mpr unasked)
  · rw [executeCompress_of_undecided decided] at executed
    cases executed

private theorem prepared_of_range {src : Bytes} (notHead : request.method ≠ ascii "HEAD")
    (asked : request.headers.lookup (ascii "range") = some src)
    (executed : executeChain library deflate compressStaticResources request type response =
      .ok after) :
    Prepared library deflate compressStaticResources request type response after := by
  rw [executeChain_of_range notHead asked] at executed
  split at executed
  next mentions =>
    split at executed
    next ranges parsed => exact .ranged asked mentions parsed executed
    next parsed =>
      cases executed
      exact .refused asked mentions parsed
    next => cases executed
  next => cases executed

/-- What the chain returns, if it returns. -/
theorem executeChain_ok_iff (notHead : request.method ≠ ascii "HEAD") :
    executeChain library deflate compressStaticResources request type response = .ok after ↔
      Prepared library deflate compressStaticResources request type response after := by
  constructor
  · intro executed
    cases asked : request.headers.lookup (ascii "range") with
    | none =>
        rw [executeChain_of_noRange notHead asked] at executed
        exact prepared_of_noRange asked executed
    | some src => exact prepared_of_range notHead asked executed
  · intro prepared
    cases prepared with
    | compressed absent decided asked fits =>
        rw [executeChain_of_noRange notHead absent, executeCompress_of_decided decided,
          if_pos asked, prepareCompressResponse_of_fits fits]
    | plain absent decided unasked =>
        rw [executeChain_of_noRange notHead absent, executeCompress_of_decided decided,
          if_neg (Bool.eq_false_iff.mp unasked), executeDefault]
    | ranged asked mentions parsed prepared =>
        rw [executeChain_of_range notHead asked, if_pos mentions, parsed]
        exact prepared
    | refused asked mentions parsed =>
        rw [executeChain_of_range notHead asked, if_pos mentions, parsed]

/-- The chain returns: without a Range header the question for gzip is decided
and what is compressed is not too large; with one it mentions `bytes`, and it is
refused, or accepted for a body that has bytes. -/
def Returns (library : RangeLibrary) (compressStaticResources : Bool) (request : Request)
    (type : EnumTaskType) (response : ResponseBase) : Prop :=
  match request.headers.lookup (ascii "range") with
  | none => EncodingDecided request ∧
      (compresses compressStaticResources request type response = true →
        response.body.length ≤ gzipMaxBytes)
  | some src => (find src (ascii "bytes")).isSome = true ∧
      match parseRangesRequest library src (lastIndex response.body) with
      | .ok _ => response.body ≠ []
      | .error .onyxupException => True
      | .error .outOfRange => False

/-- Nothing can be copied from an empty body. -/
theorem prepareRangeResponse_of_empty {ranges : List ByteRange} (empty : response.body = [])
    (nonempty : ranges ≠ []) : prepareRangeResponse response ranges = .error .outOfBounds := by
  have outside : ∀ range, copyRange [] range = .error .outOfBounds := by
    intro range
    apply if_neg
    simp
  match ranges, nonempty with
  | [], nonempty => exact absurd rfl nonempty
  | [range], _ => simp only [prepareRangeResponse, empty, outside]; rfl
  | first :: second :: rest, _ =>
      simp only [prepareRangeResponse, empty, List.mapM_cons, outside]
      rfl

theorem executeChain_returns_iff (notHead : request.method ≠ ascii "HEAD") :
    (∃ after, executeChain library deflate compressStaticResources request type response =
        .ok after) ↔
      Returns library compressStaticResources request type response := by
  simp only [executeChain_ok_iff notHead]
  constructor
  · rintro ⟨after, prepared⟩
    cases prepared with
    | compressed absent decided asked fits =>
        rw [Returns, absent]
        exact ⟨decided, fun _ => fits⟩
    | plain absent decided unasked =>
        rw [Returns, absent]
        exact ⟨decided, fun asked => absurd asked (Bool.eq_false_iff.mp unasked)⟩
    | ranged asked mentions parsed prepared =>
        simp only [Returns, asked, parsed]
        refine ⟨mentions, fun empty => ?_⟩
        rw [prepareRangeResponse_of_empty empty (parseRangesRequest_bounded parsed).1] at prepared
        cases prepared
    | refused asked mentions parsed =>
        simp only [Returns, asked, parsed]
        exact ⟨mentions, trivial⟩
  · intro returns
    unfold Returns at returns
    split at returns
    next absent =>
      obtain ⟨decided, fits⟩ := returns
      by_cases asked : compresses compressStaticResources request type response = true
      · exact ⟨_, .compressed absent decided asked (fits asked)⟩
      · exact ⟨_, .plain absent decided (Bool.eq_false_iff.mpr asked)⟩
    next src asked =>
      obtain ⟨mentions, outcome⟩ := returns
      split at outcome
      next ranges parsed =>
        obtain ⟨after, prepared, _⟩ :=
          prepareRangeResponse_of_inside parsed (inside_of_parsed parsed outcome)
        exact ⟨after, .ranged asked mentions parsed prepared⟩
      next parsed => exact ⟨_, .refused asked mentions parsed⟩
      next => exact outcome.elim

end Chain

/-! ## The stated length -/

/-- Content-Length states the size of the body. -/
def Framed (response : ResponseBase) : Prop :=
  response.headers.lookup (ascii "Content-Length") = some (decimal response.body.length)

theorem framed_addContentLength (response : ResponseBase) :
    Framed (addContentLength response) :=
  Finmap.lookup_insert _

/-- Both forms of a 206 answer state their length. -/
theorem framed_of_ranges {response after : ResponseBase} {ranges : List ByteRange}
    (prepared : prepareRangeResponse response ranges = .ok after) : Framed after := by
  unfold prepareRangeResponse at prepared
  split at prepared
  next =>
    obtain ⟨body, _, prepared⟩ := bind_ok prepared
    cases prepared
    exact Finmap.lookup_insert _
  next =>
    obtain ⟨parts, _, prepared⟩ := bind_ok prepared
    cases prepared
    exact Finmap.lookup_insert _

/-- The 416 answer keeps the length that the handler stated. -/
theorem framed_notSatisfiable_iff (response : ResponseBase) :
    Framed (prepareRangeNotSatisfiableResponse response) ↔
      response.headers.lookup (ascii "Content-Length") = some (ascii "0") := by
  have zero : decimal 0 = ascii "0" := by decide
  unfold Framed prepareRangeNotSatisfiableResponse ResponseBase.addHeader
  rw [Finmap.lookup_insert_of_ne _ (by decide), ← zero]
  rfl

/-- **Message framing.** For every request that is not HEAD and every response of
a handler: the chain returns a response whose Content-Length is the size of its
body exactly when it returns one, and a range that is refused comes with a
response that states the length zero already. -/
theorem framed_iff (library : RangeLibrary) (deflate : Bytes → Bytes)
    (compressStaticResources : Bool) (request : Request) (type : EnumTaskType)
    (response : ResponseBase) (notHead : request.method ≠ ascii "HEAD") :
    (∃ after, executeChain library deflate compressStaticResources request type response =
        .ok after ∧ Framed after) ↔
      Returns library compressStaticResources request type response ∧
        ∀ src, request.headers.lookup (ascii "range") = some src →
          parseRangesRequest library src (lastIndex response.body) = .error .onyxupException →
          response.headers.lookup (ascii "Content-Length") = some (ascii "0") := by
  constructor
  · rintro ⟨after, executed, framed⟩
    refine ⟨(executeChain_returns_iff notHead).mp ⟨after, executed⟩, ?_⟩
    intro src asked parsed
    have refused : executeChain library deflate compressStaticResources request type response =
        .ok (prepareRangeNotSatisfiableResponse response) := by
      rw [executeChain_of_range notHead asked] at executed ⊢
      split at executed
      next mentions => rw [if_pos mentions, parsed]
      next => cases executed
    rw [executed] at refused
    cases refused
    exact (framed_notSatisfiable_iff response).mp framed
  · rintro ⟨returns, stated⟩
    obtain ⟨after, executed⟩ := (executeChain_returns_iff notHead).mpr returns
    refine ⟨after, executed, ?_⟩
    cases (executeChain_ok_iff notHead).mp executed with
    | compressed => exact framed_addContentLength _
    | plain => exact framed_addContentLength _
    | ranged _ _ _ prepared => exact framed_of_ranges prepared
    | refused asked _ parsed =>
        exact (framed_notSatisfiable_iff response).mpr (stated _ asked parsed)

/-- Ten bytes of plain text, as a handler returns them. -/
def tenBytes : ResponseBase :=
  .make 200 (ascii "OK") mimeTextHtml (ascii "0123456789")

/-- A range of ten bytes is stated with its length. -/
theorem range_of_ten_bytes_framed :
    ∃ after, executeChain stableLibrary id false (rangeRequest (ascii "bytes=2-4")) .localTask
      tenBytes = .ok after ∧ Framed after := by
  have parsed : parseRangesRequest stableLibrary (ascii "bytes=2-4") (lastIndex tenBytes.body) =
      .ok [⟨2, 4⟩] := by
    decide +kernel
  have asked : (rangeRequest (ascii "bytes=2-4")).headers.lookup (ascii "range") =
      some (ascii "bytes=2-4") := Finmap.lookup_insert _
  refine (framed_iff stableLibrary id false _ .localTask tenBytes (by decide)).mpr ⟨?_, ?_⟩
  · simp only [Returns, asked, parsed]
    decide
  · intro src found refused
    rw [asked] at found
    cases found
    rw [parsed] at refused
    cases refused

/-- A range behind the end is refused without a Content-Length. -/
theorem refused_range_not_framed :
    (rangeRequest (ascii "bytes=20-30")).method ≠ ascii "HEAD" ∧
      (executeChain stableLibrary id false (rangeRequest (ascii "bytes=20-30")) .localTask
        tenBytes).toOption.any (fun after =>
          decide (after.headers.lookup (ascii "Content-Length") = none)) = true ∧
      ¬ ∃ after, executeChain stableLibrary id false (rangeRequest (ascii "bytes=20-30"))
        .localTask tenBytes = .ok after ∧ Framed after := by
  refine ⟨by decide, by decide +kernel, ?_⟩
  rintro ⟨after, executed, framed⟩
  have unstated : (executeChain stableLibrary id false (rangeRequest (ascii "bytes=20-30"))
      .localTask tenBytes).toOption.any (fun after =>
        decide (after.headers.lookup (ascii "Content-Length") = none)) = true := by
    decide +kernel
  rw [executed] at unstated
  rw [Framed, of_decide_eq_true unstated] at framed
  cases framed

/-! ## HEAD and GET -/

/-- The answer to HEAD states what the answer to GET states, and has no body. -/
structure AgreesWithGet (head get : ResponseBase) : Prop where
  code : head.code = get.code
  codeMsg : head.codeMsg = get.codeMsg
  mimeType : head.mimeType = get.mimeType
  headers : head.headers = get.headers
  noBody : head.body = []

/-- A compressed response states what the plain one would only when the handler
has announced gzip itself and the compressed body happens to be as long. -/
theorem compressed_headers_iff (deflate : Bytes → Bytes) (response : ResponseBase) :
    (addContentLength response).headers =
        (addContentLength { response.addHeader (ascii "Content-Encoding") (ascii "gzip") with
          body := deflate response.body }).headers ↔
      response.headers.lookup (ascii "Content-Encoding") = some (ascii "gzip") ∧
        (deflate response.body).length = response.body.length := by
  simp only [addContentLength, ResponseBase.addHeader]
  constructor
  · intro same
    have coding := congrArg (Finmap.lookup (ascii "Content-Encoding")) same
    have length := congrArg (Finmap.lookup (ascii "Content-Length")) same
    rw [Finmap.lookup_insert_of_ne _ (by decide), Finmap.lookup_insert_of_ne _ (by decide),
      Finmap.lookup_insert] at coding
    rw [Finmap.lookup_insert, Finmap.lookup_insert] at length
    exact ⟨coding, (decimal_injective (Option.some.inj length)).symm⟩
  · rintro ⟨coding, length⟩
    have kept : response.headers.insert (ascii "Content-Encoding") (ascii "gzip") =
        response.headers := by
      apply Finmap.ext_lookup
      intro key
      by_cases same : key = ascii "Content-Encoding"
      · rw [same, Finmap.lookup_insert, coding]
      · rw [Finmap.lookup_insert_of_ne _ same]
    rw [kept, length]

/-- **HEAD agrees with GET.** For every request without a Range header and every
response of a handler: the two answers agree exactly when the question for gzip
is decided and GET is not compressed, or compressed without a trace. -/
theorem head_agrees_iff (library : RangeLibrary) (deflate : Bytes → Bytes)
    (compressStaticResources : Bool) (request : Request) (type : EnumTaskType)
    (response : ResponseBase) (absent : request.headers.lookup (ascii "range") = none) :
    (∃ head get,
        executeChain library deflate compressStaticResources
          { request with method := ascii "HEAD" } type response = .ok head ∧
        executeChain library deflate compressStaticResources
          { request with method := ascii "GET" } type response = .ok get ∧
        AgreesWithGet head get) ↔
      EncodingDecided request ∧
        (compresses compressStaticResources request type response = true →
          response.body.length ≤ gzipMaxBytes ∧
          response.headers.lookup (ascii "Content-Encoding") = some (ascii "gzip") ∧
          (deflate response.body).length = response.body.length) := by
  rw [executeChain_of_head rfl]
  simp only [Except.ok.injEq, exists_and_left, exists_eq_left']
  have notHead : ({ request with method := ascii "GET" } : Request).method ≠ ascii "HEAD" :=
    show ascii "GET" ≠ ascii "HEAD" by decide
  constructor
  · rintro ⟨get, executed, agrees⟩
    cases (executeChain_ok_iff notHead).mp executed with
    | compressed _ decided _ fits =>
        have stated := (compressed_headers_iff deflate response).mp agrees.headers
        exact ⟨decided, fun _ => ⟨fits, stated⟩⟩
    | plain _ decided unasked =>
        exact ⟨decided, fun asked => absurd asked (Bool.eq_false_iff.mp unasked)⟩
    | ranged asked | refused asked =>
        rw [absent] at asked
        cases asked
  · rintro ⟨decided, traceless⟩
    by_cases asked : compresses compressStaticResources request type response = true
    · obtain ⟨fits, stated⟩ := traceless asked
      exact ⟨_, (executeChain_ok_iff notHead).mpr (.compressed absent decided asked fits),
        rfl, rfl, rfl, (compressed_headers_iff deflate response).mpr stated, rfl⟩
    · exact ⟨_, (executeChain_ok_iff notHead).mpr
        (.plain absent decided (Bool.eq_false_iff.mpr asked)), rfl, rfl, rfl, rfl, rfl⟩

/-- A request with the given Accept-Encoding. -/
def encodingRequest (accepted : Bytes) : Request :=
  { requestFactory 1 1024 with
    method := ascii "GET"
    headers := (∅ : Dict).insert (ascii "accept-encoding") accepted }

/-- The body `hello`, with the wish to have it compressed. -/
def helloCompressed : ResponseBase :=
  { ResponseBase.make 200 (ascii "OK") mimeTextHtml (ascii "hello") with compress := true }

/-- What zlib makes of `hello`. -/
def gzippedHello : Bytes :=
  [31, 139, 8, 0, 0, 0, 0, 0, 0, 3, 203, 72, 205, 201, 201, 7, 0, 134, 166, 16, 54, 5, 0, 0, 0]

/-- A `deflate` that is right on `hello`. -/
def deflateHello (data : Bytes) : Bytes :=
  if data = ascii "hello" then gzippedHello else 0 :: data

private theorem encodingDecided_of_gzip : EncodingDecided (encodingRequest (ascii "gzip")) := by
  intro text found
  rw [encodingRequest, Finmap.lookup_insert] at found
  cases found
  decide

/-- A page that is not to be compressed is answered alike. -/
theorem head_agrees_on_plain_page :
    ∃ head get,
      executeChain stableLibrary deflateHello false
        { encodingRequest (ascii "gzip") with method := ascii "HEAD" } .localTask tenBytes =
          .ok head ∧
      executeChain stableLibrary deflateHello false
        { encodingRequest (ascii "gzip") with method := ascii "GET" } .localTask tenBytes =
          .ok get ∧
      AgreesWithGet head get :=
  (head_agrees_iff stableLibrary deflateHello false (encodingRequest (ascii "gzip")) .localTask
    tenBytes (by decide)).mpr
    ⟨encodingDecided_of_gzip, fun asked => absurd asked (by decide)⟩

/-- A page that is compressed is announced by HEAD with the length of the plain
one. -/
theorem head_differs_on_compressed_page :
    (encodingRequest (ascii "gzip")).headers.lookup (ascii "range") = none ∧
      ¬ ∃ head get,
        executeChain stableLibrary deflateHello false
          { encodingRequest (ascii "gzip") with method := ascii "HEAD" } .localTask
            helloCompressed = .ok head ∧
        executeChain stableLibrary deflateHello false
          { encodingRequest (ascii "gzip") with method := ascii "GET" } .localTask
            helloCompressed = .ok get ∧
        AgreesWithGet head get := by
  refine ⟨by decide, ?_⟩
  rintro ⟨head, get, headed, got, agrees⟩
  rw [executeChain_of_head rfl] at headed
  cases headed
  have stated : (executeChain stableLibrary deflateHello false
      { encodingRequest (ascii "gzip") with method := ascii "GET" } .localTask
        helloCompressed).toOption.any (fun get =>
          decide (get.headers.lookup (ascii "Content-Length") = some (ascii "25"))) = true := by
    decide +kernel
  rw [got] at stated
  have lengths := congrArg (Finmap.lookup (ascii "Content-Length")) agrees.headers
  rw [of_decide_eq_true stated] at lengths
  exact absurd lengths (by decide)

/-! ## Content coding -/

/-- The body a client gets that undoes the stated coding. -/
def decoded (decode : Bytes → Bytes → Bytes) (response : ResponseBase) : Bytes :=
  match response.headers.lookup (ascii "Content-Encoding") with
  | some coding => decode coding response.body
  | none => response.body

/-- The response states the coding gzip. -/
def StatesGzip (response : ResponseBase) : Prop :=
  response.headers.lookup (ascii "Content-Encoding") = some (ascii "gzip")

/-- What leaves the chain states gzip, and the handler has not stated it for the
same body. -/
def GzipByChain (response after : ResponseBase) : Prop :=
  StatesGzip after ∧ (StatesGzip response → after.body ≠ response.body)

section Codings

variable {deflate : Bytes → Bytes} {decode : Bytes → Bytes → Bytes} {response : ResponseBase}

private theorem coding_addContentLength :
    (addContentLength response).headers.lookup (ascii "Content-Encoding") =
      response.headers.lookup (ascii "Content-Encoding") := by
  simp only [addContentLength, ResponseBase.addHeader]
  rw [Finmap.lookup_insert_of_ne _ (by decide)]

private theorem coding_compressed :
    (addContentLength { response.addHeader (ascii "Content-Encoding") (ascii "gzip") with
      body := deflate response.body }).headers.lookup (ascii "Content-Encoding") =
        some (ascii "gzip") := by
  rw [coding_addContentLength]
  exact Finmap.lookup_insert _

/-- Compression shows, unless the handler has stated gzip and the body stays the same. -/
theorem gzipByChain_compressed_iff :
    GzipByChain response
        (addContentLength { response.addHeader (ascii "Content-Encoding") (ascii "gzip") with
          body := deflate response.body }) ↔
      ¬ (StatesGzip response ∧ deflate response.body = response.body) := by
  rw [GzipByChain, StatesGzip, coding_compressed, not_and]
  exact and_iff_right rfl

/-- A response that is left alone states what the handler has stated. -/
theorem not_gzipByChain_plain : ¬ GzipByChain response (addContentLength response) := by
  rintro ⟨states, changed⟩
  rw [StatesGzip, coding_addContentLength] at states
  exact changed states rfl

theorem decoded_compressed (undoes : ∀ data, decode (ascii "gzip") (deflate data) = data) :
    decoded decode
        (addContentLength { response.addHeader (ascii "Content-Encoding") (ascii "gzip") with
          body := deflate response.body }) = response.body := by
  rw [decoded, coding_compressed]
  exact undoes response.body

theorem decoded_plain_iff :
    decoded decode (addContentLength response) = response.body ↔
      ∀ coding, response.headers.lookup (ascii "Content-Encoding") = some coding →
        decode coding response.body = response.body := by
  rw [decoded, coding_addContentLength]
  cases response.headers.lookup (ascii "Content-Encoding") with
  | none => simp [addContentLength, ResponseBase.addHeader]
  | some coding => simp [addContentLength, ResponseBase.addHeader]

end Codings

/-- **Content coding.** For every request that is not HEAD and has no Range
header, and every response of a handler: what leaves the chain states gzip of the
chain's own only to a client that takes it, and decodes to the handler's body,
exactly when the question for gzip is decided, a static task under the flag comes
from such a client or is compressed without a trace, what is compressed is not
too large, and what is not has no coding of the handler's that would change it. -/
theorem negotiated_iff (library : RangeLibrary) (deflate : Bytes → Bytes)
    (decode : Bytes → Bytes → Bytes) (undoes : ∀ data, decode (ascii "gzip") (deflate data) = data)
    (compressStaticResources : Bool) (request : Request) (type : EnumTaskType)
    (response : ResponseBase) (notHead : request.method ≠ ascii "HEAD")
    (absent : request.headers.lookup (ascii "range") = none) :
    (∃ after, executeChain library deflate compressStaticResources request type response =
        .ok after ∧
        (GzipByChain response after → supportsGzip request = true) ∧
        decoded decode after = response.body) ↔
      EncodingDecided request ∧
        (type = .staticResourcesTask → compressStaticResources = true →
          supportsGzip request = true ∨
            StatesGzip response ∧ deflate response.body = response.body) ∧
        if compresses compressStaticResources request type response = true then
          response.body.length ≤ gzipMaxBytes
        else
          ∀ coding, response.headers.lookup (ascii "Content-Encoding") = some coding →
            decode coding response.body = response.body := by
  have either : compresses compressStaticResources request type response = true ↔
      supportsGzip request = true ∧ response.compress = true ∨
        type = .staticResourcesTask ∧ compressStaticResources = true := by
    simp only [compresses, Bool.or_eq_true, Bool.and_eq_true, decide_eq_true_eq]
  constructor
  · rintro ⟨after, executed, negotiated, decodes⟩
    cases (executeChain_ok_iff notHead).mp executed with
    | compressed _ decided asked fits =>
        rw [if_pos asked]
        refine ⟨decided, fun _ _ => ?_, fits⟩
        by_contra neither
        obtain ⟨unsupported, traces⟩ := not_or.mp neither
        exact unsupported (negotiated (gzipByChain_compressed_iff.mpr traces))
    | plain _ decided unasked =>
        have notAsked := Bool.eq_false_iff.mp unasked
        rw [if_neg notAsked]
        exact ⟨decided, fun isStatic isSet => absurd (either.mpr (.inr ⟨isStatic, isSet⟩)) notAsked,
          decoded_plain_iff.mp decodes⟩
    | ranged asked | refused asked =>
        rw [absent] at asked
        cases asked
  · rintro ⟨decided, static, condition⟩
    by_cases asked : compresses compressStaticResources request type response = true
    · rw [if_pos asked] at condition
      refine ⟨_, (executeChain_ok_iff notHead).mpr (.compressed absent decided asked condition),
        fun shows => ?_, decoded_compressed undoes⟩
      rcases either.mp asked with ⟨supported, _⟩ | ⟨isStatic, isSet⟩
      · exact supported
      · exact (static isStatic isSet).resolve_right (gzipByChain_compressed_iff.mp shows)
    · rw [if_neg asked] at condition
      exact ⟨_, (executeChain_ok_iff notHead).mpr
        (.plain absent decided (Bool.eq_false_iff.mpr asked)),
        fun shows => absurd shows not_gzipByChain_plain, decoded_plain_iff.mpr condition⟩

/-- The decoder for `deflateHello`. -/
def inflateHello (_coding data : Bytes) : Bytes :=
  if data = gzippedHello then ascii "hello" else data.tail

private theorem inflateHello_undoes (data : Bytes) :
    inflateHello (ascii "gzip") (deflateHello data) = data := by
  unfold inflateHello deflateHello
  by_cases same : data = ascii "hello"
  · rw [if_pos same, if_pos rfl, same]
  · rw [if_neg same, if_neg (by simp [gzippedHello]), List.tail_cons]

/-- A client that takes gzip gets `hello` back. -/
theorem hello_negotiated :
    ∃ after, executeChain stableLibrary deflateHello false (encodingRequest (ascii "gzip"))
        .localTask helloCompressed = .ok after ∧
      (GzipByChain helloCompressed after →
        supportsGzip (encodingRequest (ascii "gzip")) = true) ∧
      decoded inflateHello after = ascii "hello" := by
  have compressed : compresses false (encodingRequest (ascii "gzip")) .localTask
      helloCompressed = true := by
    decide
  refine (negotiated_iff stableLibrary deflateHello inflateHello inflateHello_undoes false
    (encodingRequest (ascii "gzip")) .localTask helloCompressed (by decide) (by decide)).mpr
    ⟨encodingDecided_of_gzip, fun impossible => ?_, ?_⟩
  · cases impossible
  · rw [if_pos compressed]
    decide

/-- A static page is compressed for a client that has not asked for gzip. -/
theorem static_page_compressed_unasked :
    (requestFactory 1 1024).method ≠ ascii "HEAD" ∧
      (requestFactory 1 1024).headers.lookup (ascii "range") = none ∧
      (requestFactory 1 1024).headers.lookup (ascii "accept-encoding") = none ∧
      (executeChain stableLibrary deflateHello true (requestFactory 1 1024)
        .staticResourcesTask (.make 200 (ascii "OK") mimeTextHtml (ascii "hello"))).toOption.any
          (fun after => decide (after.headers.lookup (ascii "Content-Encoding") =
            some (ascii "gzip"))) = true ∧
      ¬ ∃ after, executeChain stableLibrary deflateHello true (requestFactory 1 1024)
          .staticResourcesTask (.make 200 (ascii "OK") mimeTextHtml (ascii "hello")) =
            .ok after ∧
        (GzipByChain (.make 200 (ascii "OK") mimeTextHtml (ascii "hello")) after →
          supportsGzip (requestFactory 1 1024) = true) ∧
        decoded inflateHello after = ascii "hello" := by
  have stated : (executeChain stableLibrary deflateHello true (requestFactory 1 1024)
      .staticResourcesTask (.make 200 (ascii "OK") mimeTextHtml (ascii "hello"))).toOption.any
        (fun after => decide (after.headers.lookup (ascii "Content-Encoding") =
          some (ascii "gzip"))) = true := by
    decide +kernel
  refine ⟨by decide, rfl, rfl, stated, ?_⟩
  rintro ⟨after, executed, negotiated, _⟩
  rw [executed] at stated
  have coded : after.headers.lookup (ascii "Content-Encoding") = some (ascii "gzip") :=
    of_decide_eq_true stated
  -- The handler has stated no coding, so the one that is stated is the chain's.
  have unstated : ¬ StatesGzip (.make 200 (ascii "OK") mimeTextHtml (ascii "hello")) := by
    rw [StatesGzip]
    decide
  exact absurd (negotiated ⟨coded, fun states => absurd states unstated⟩) (by decide)

end Onyxup.Response
