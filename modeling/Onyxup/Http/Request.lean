import Mathlib.Data.Finmap
import Onyxup.Http.Parser

/-!
Contract: the `Request` object and how a parsed request line and its headers
are written into it.

Owns: `Request` with its factories and `clear`, `parseParamsRequest`, and the
part of the read step that runs once per request, when the header block is
first accepted.

Does not own: the buffer the request is parsed from, nor the decision when to
parse it.

An `unordered_map` is a finite map; its iteration order is not used here. The
`new (std::nothrow)` of `parseParamsRequest` is taken to succeed, and lengths
of names and values are below `2 ^ 31`, where the casts to `int` are the
identity.
-/

set_option autoImplicit false

namespace Onyxup.Http

open Onyxup.Lib.CString
open Onyxup.Http.Parser

/-- `std::unordered_map<std::string, std::string>`. -/
abbrev Dict := Finmap fun _ : Bytes => Bytes

/-- `class Request`. -/
structure Request where
  fd : Nat
  fullUri : Bytes
  uri : Bytes
  method : Bytes
  body : Bytes
  headers : Dict
  params : Dict
  headerAccept : Bool
  bodyAccept : Bool
  bodyExists : Bool
  closingConnect : Bool
  maxOutputBufferLength : Nat
deriving DecidableEq

/-- `requestFactory` followed by the two setters of the accept branch. -/
def requestFactory (fd maxOutputBufferLength : Nat) : Request where
  fd := fd
  fullUri := []
  uri := []
  method := []
  body := []
  headers := ∅
  params := ∅
  headerAccept := false
  bodyAccept := false
  bodyExists := false
  closingConnect := false
  maxOutputBufferLength := maxOutputBufferLength

namespace Request

/-- `Request::clear`. -/
def clear (request : Request) : Request :=
  { request with
    headerAccept := false
    bodyAccept := false
    bodyExists := false
    fullUri := []
    uri := []
    method := []
    body := []
    headers := ∅
    params := ∅ }

end Request

/-- A cleared request that is not closing is as good as new. -/
theorem clear_eq_requestFactory {request : Request} {fd maxOutputBufferLength : Nat}
    (stays : request.closingConnect = false) (owner : request.fd = fd)
    (limit : request.maxOutputBufferLength = maxOutputBufferLength) :
    request.clear = requestFactory fd maxOutputBufferLength := by
  rw [← owner, ← limit]
  simp only [Request.clear, requestFactory, stays]

/-- The tokens `strtok_r(buffer, "&", ...)` returns one after the other. -/
def ampersandTokens (buffer : Bytes) : List Bytes :=
  ((cString buffer).splitOn 38).filter (· != [])

/-- One turn of the token loop: a token with `=` is passed to `addParam`. -/
def addParamToken (params : Dict) (token : Bytes) : Dict :=
  match strchr token 61 with
  | some position => params.insert (token.take position) (token.drop (position + 1))
  | none => params

/-- `parseParamsRequest`. The copied buffer ends with the terminator of
`c_str()` when `uriLen` is the length of the full URI. -/
def parseParamsRequest (request : Request) (uriLen : Nat) : Request :=
  match strchr request.fullUri 63 with
  | some position =>
      let buffer := ((request.fullUri ++ [0]).drop (position + 1)).take (uriLen - position)
      { request with
        uri := request.fullUri.take position
        params := (ampersandTokens buffer).foldl addParamToken request.params }
  | none => { request with uri := request.fullUri }

/-- One turn of the header loop of the read step: `addHeader` under the
lower-case name. Lengths are taken to fit into an `int`. -/
def addHeader (headers : Dict) (header : PhrHeader) : Dict :=
  headers.insert (header.name.map toLower) header.value

def contentLength : Bytes := ascii "content-length"

/-- Whether the header map announces a body: `atoi` of Content-Length is not
zero. -/
def announcesBody (headers : Dict) : Bool :=
  match headers.lookup contentLength with
  | some text => atoi text != 0
  | none => false

/-- What the read step writes into the request when the parser accepts its
header block for the first time in a cycle. -/
def Request.acceptHead (request : Request) (head : RequestHead) : Request :=
  if request.headerAccept then request
  else
    let filled := parseParamsRequest
      { request with
        headerAccept := true
        fullUri := head.path
        method := head.method
        headers := head.headers.foldl addHeader request.headers }
      head.path.length
    if announcesBody filled.headers then { filled with bodyExists := true } else filled

/-! ## Frames -/

/-- Everything that `parseParamsRequest` leaves alone. -/
theorem parseParamsRequest_frame (request : Request) (uriLen : Nat) :
    ∃ uri params, parseParamsRequest request uriLen =
      { request with uri := uri, params := params } := by
  unfold parseParamsRequest
  split
  next => exact ⟨_, _, rfl⟩
  next => exact ⟨_, _, rfl⟩

/-- A request that has its header block keeps it. -/
theorem acceptHead_of_accepted {request : Request} (accepted : request.headerAccept = true)
    (head : RequestHead) : request.acceptHead head = request := by
  simp [Request.acceptHead, accepted]

/-- The first acceptance, field by field: the flags and fields that are not
computed from the parameters. -/
theorem acceptHead_fields {request : Request} (fresh : request.headerAccept = false)
    (head : RequestHead) :
    ∃ uri params, request.acceptHead head =
      { request with
        headerAccept := true
        fullUri := head.path
        method := head.method
        headers := head.headers.foldl addHeader request.headers
        uri := uri
        params := params
        bodyExists := request.bodyExists ||
          announcesBody (head.headers.foldl addHeader request.headers) } := by
  simp only [Request.acceptHead, fresh, Bool.false_eq_true, if_false]
  obtain ⟨uri, params, filled⟩ := parseParamsRequest_frame
    { request with
      headerAccept := true
      fullUri := head.path
      method := head.method
      headers := head.headers.foldl addHeader request.headers } head.path.length
  refine ⟨uri, params, ?_⟩
  rw [filled]
  cases announcesBody (head.headers.foldl addHeader request.headers) <;> simp

/-- Accepting a header block does not touch what belongs to the body or to the
end of the connection. -/
theorem acceptHead_frame (request : Request) (head : RequestHead) :
    (request.acceptHead head).body = request.body ∧
      (request.acceptHead head).bodyAccept = request.bodyAccept ∧
      (request.acceptHead head).closingConnect = request.closingConnect ∧
      (request.acceptHead head).fd = request.fd ∧
      (request.acceptHead head).maxOutputBufferLength = request.maxOutputBufferLength ∧
      (request.acceptHead head).headerAccept = true := by
  cases accepted : request.headerAccept with
  | true =>
      rw [acceptHead_of_accepted accepted]
      exact ⟨rfl, rfl, rfl, rfl, rfl, accepted⟩
  | false =>
      obtain ⟨uri, params, fields⟩ := acceptHead_fields accepted head
      rw [fields]
      exact ⟨rfl, rfl, rfl, rfl, rfl, rfl⟩

/-- The first acceptance reads the header list only through the map it builds. -/
theorem acceptHead_congr {request : Request} {left right : RequestHead}
    (method : left.method = right.method) (path : left.path = right.path)
    (headers : left.headers.foldl addHeader request.headers =
      right.headers.foldl addHeader request.headers) :
    request.acceptHead left = request.acceptHead right := by
  simp only [Request.acceptHead, method, path, headers]

private theorem parseParamsRequest_owner (request : Request) (fd maxOutputBufferLength uriLen : Nat) :
    parseParamsRequest
        { request with fd := fd, maxOutputBufferLength := maxOutputBufferLength } uriLen =
      { parseParamsRequest request uriLen with
        fd := fd
        maxOutputBufferLength := maxOutputBufferLength } := by
  unfold parseParamsRequest
  dsimp only
  cases strchr request.fullUri 63 <;> rfl

/-- The acceptance does not look at the descriptor or at the configuration. -/
theorem acceptHead_owner (request : Request) (fd maxOutputBufferLength : Nat)
    (head : RequestHead) :
    { request with fd := fd, maxOutputBufferLength := maxOutputBufferLength }.acceptHead head =
      { request.acceptHead head with
        fd := fd
        maxOutputBufferLength := maxOutputBufferLength } := by
  unfold Request.acceptHead
  by_cases accepted : request.headerAccept = true
  · rw [if_pos accepted, if_pos accepted]
  · rw [if_neg accepted, if_neg accepted]
    have owner := parseParamsRequest_owner
      { request with
        headerAccept := true
        fullUri := head.path
        method := head.method
        headers := head.headers.foldl addHeader request.headers }
      fd maxOutputBufferLength head.path.length
    simp only [owner]
    split <;> rfl

end Onyxup.Http
