import Onyxup.Http.Request

/-!
Contract: `ResponseBase`, its serialisation, and the fixed error pages.

Owns: the kinds of tasks, the fields of a response, `addHeader`,
`prepareResponse` with its 4096-byte formatting buffer, and the four pages the
event loop sends by itself.

Does not own: the chain that prepares a handler's response, nor the 177 kB
image in the body of the 404 page, which is a parameter.

`unordered_map` iteration order is not specified, so serialisation takes the
entries of the header map as a list. The time of day is a parameter too.
-/

set_option autoImplicit false

namespace Onyxup.Response

open Onyxup.Lib.CString
open Onyxup.Http

/-- `EnumTaskType`. -/
inductive EnumTaskType where
  | localTask
  | staticResourcesTask
  | jsonRpcTask
deriving DecidableEq, Repr

/-- `class ResponseBase`. -/
structure ResponseBase where
  code : Int
  codeMsg : Bytes
  mimeType : Bytes
  body : Bytes
  compress : Bool
  headers : Dict
deriving DecidableEq

/-- `ResponseBase::SERVER_IP` and `SERVER_PORT`. -/
structure Identity where
  serverIp : Bytes
  serverPort : Int

/-- `%d`. -/
def decimalInt (value : Int) : Bytes :=
  if value < 0 then 45 :: decimal value.natAbs else decimal value.natAbs

namespace ResponseBase

/-- The constructor with a body. -/
def make (code : Int) (codeMsg mimeType body : Bytes) : ResponseBase where
  code := code
  codeMsg := codeMsg
  mimeType := mimeType
  body := body
  compress := false
  headers := ∅

def addHeader (response : ResponseBase) (key value : Bytes) : ResponseBase :=
  { response with headers := response.headers.insert key value }

/-- The line of one header, as `prepareResponse` streams it. -/
def headerLine (entry : Bytes × Bytes) : Bytes :=
  ascii "\r\n" ++ entry.1 ++ ascii ": " ++ entry.2

/-- `ResponseBase::HEADER` filled in, before `snprintf` cuts it. -/
def headerText (identity : Identity) (datetime : Bytes) (entries : List (Bytes × Bytes))
    (response : ResponseBase) : Bytes :=
  ascii "HTTP/1.1 " ++ decimalInt response.code ++ ascii " " ++ cString response.codeMsg ++
  ascii "\r\nHost: " ++ cString identity.serverIp ++ ascii ":" ++
  decimalInt identity.serverPort ++ ascii "\r\nServer: onyxup/1.1.0" ++
  ascii "\r\nConnection: Keep-Alive\r\nDate: " ++ cString datetime ++
  ascii "\r\nAccept-Ranges: bytes\r\nContent-Type: " ++ cString response.mimeType ++
  cString (entries.flatMap headerLine) ++ ascii "\r\n\r\n"

/-- `prepareResponse`: `snprintf` into `char buffer[4096]`, then the body. -/
def prepareResponse (identity : Identity) (datetime : Bytes) (entries : List (Bytes × Bytes))
    (response : ResponseBase) : Bytes :=
  (headerText identity datetime entries response).take 4095 ++ response.body

/-- `entries` is the header map in some order. -/
def lists (response : ResponseBase) (entries : List (Bytes × Bytes)) : Bool :=
  decide ((entries.map Prod.fst).Nodup) &&
    decide ((entries.map fun entry => (⟨entry.1, entry.2⟩ : Sigma fun _ : Bytes => Bytes)).toFinmap
      = response.headers)

/-- Whatever is serialised starts with the status line. -/
theorem prepareResponse_ne_nil (identity : Identity) (datetime : Bytes)
    (entries : List (Bytes × Bytes)) (response : ResponseBase) :
    prepareResponse identity datetime entries response ≠ [] := by
  have literal : ascii "HTTP/1.1 " ≠ [] := by decide
  intro empty
  have cut := (List.append_eq_nil_iff.mp empty).1
  rcases List.take_eq_nil_iff.mp cut with zero | noText
  · cases zero
  · simp [headerText, literal] at noText

end ResponseBase

def mimeTextHtml : Bytes := ascii "text/html; charset=utf-8"

/-- A page with its Content-Length, serialised by `toString`. -/
def page (identity : Identity) (datetime : Bytes) (code : Int) (codeMsg body : Bytes) : Bytes :=
  let length := (ascii "Content-Length", decimal body.length)
  ((ResponseBase.make code codeMsg mimeTextHtml body).addHeader length.1 length.2).prepareResponse
    identity datetime [length]

/-- `Response404`. -/
def page404 (identity : Identity) (body datetime : Bytes) : Bytes :=
  page identity datetime 404 (ascii "Not Found") body

/-- `Response408`. -/
def page408 (identity : Identity) (datetime : Bytes) : Bytes :=
  page identity datetime 408 (ascii "Request Timeout")
    (ascii "<html><head><title>413</title></head><body bgcolor=\"white\"><center><h1>Request Timeout</h1></center><center>onyxup</center></body></html>")

/-- `Response413`. -/
def page413 (identity : Identity) (datetime : Bytes) : Bytes :=
  page identity datetime 413 (ascii "Payload Too Large")
    (ascii "<html><head><title>413</title></head><body bgcolor=\"white\"><center><h1>Payload Too Large 413</h1></center><center>onyxup</center></body></html>")

/-- `Response503`. -/
def page503 (identity : Identity) (datetime : Bytes) : Bytes :=
  page identity datetime 503 (ascii "Service Unavailable")
    (ascii "<html><head><title>413</title></head><body bgcolor=\"white\"><center><h1>Service Temporarily Unavailable 503</h1></center><center>onyxup</center></body></html>")

/-- No page is empty. -/
theorem page_ne_nil (identity : Identity) (datetime : Bytes) (code : Int)
    (codeMsg body : Bytes) : page identity datetime code codeMsg body ≠ [] :=
  ResponseBase.prepareResponse_ne_nil _ _ _ _

end Onyxup.Response
