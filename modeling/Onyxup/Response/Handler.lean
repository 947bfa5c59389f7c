import Onyxup.Response.Framing

/-!
Contract: the way of a response from the handler that builds it to the worker
that prepares it.

Owns: the two constructors of `ResponseBase` that can stand between them, which
of them a `return` statement calls, `ResponseFile`, and the exact condition under
which the handler's headers reach the client.

Does not own: how the header map is written out.

The sources are compiled as C++17. A temporary of the return type is built in
place, and so are the results of `std::function` and of the call in
`tasksHandler`. A local variable of the return type may be built in place or
moved, as the compiler likes; one of a derived class is copied, because the move
constructor does not take its class; a temporary of a derived class is moved.
-/

set_option autoImplicit false

namespace Onyxup.Response

open Onyxup.Lib.CString
open Onyxup.Lib.Fallible
open Onyxup.Http

/-- What stands behind `return`. -/
inductive Expression where
  | temporary
  | localVariable
deriving DecidableEq, Repr

/-- The class of what is returned as a `ResponseBase`. -/
inductive ReturnedClass where
  | responseBase
  | derived
deriving DecidableEq, Repr

/-- A `return` statement of a handler, and whether the compiler builds a local
variable in place. -/
structure ReturnStatement where
  expression : Expression
  returnedClass : ReturnedClass
  elides : Bool
deriving DecidableEq, Repr

/-- `ResponseBase(ResponseBase &&)`: every field but the map of headers. -/
def moveConstructor (src : ResponseBase) : ResponseBase where
  code := src.code
  codeMsg := src.codeMsg
  mimeType := src.mimeType
  body := src.body
  compress := src.compress
  headers := ∅

/-- `ResponseBase(const ResponseBase &) = default`. -/
def copyConstructor (src : ResponseBase) : ResponseBase where
  code := src.code
  codeMsg := src.codeMsg
  mimeType := src.mimeType
  body := src.body
  compress := src.compress
  headers := src.headers

namespace ReturnStatement

/-- The statement calls the move constructor. -/
def moves (statement : ReturnStatement) : Bool :=
  match statement.expression, statement.returnedClass with
  | .temporary, .responseBase => false
  | .temporary, .derived => true
  | .localVariable, .responseBase => !statement.elides
  | .localVariable, .derived => false

/-- The `ResponseBase` that the caller gets. -/
def value (statement : ReturnStatement) (object : ResponseBase) : ResponseBase :=
  match statement.expression, statement.returnedClass with
  | .temporary, .responseBase => object
  | .temporary, .derived => moveConstructor object
  | .localVariable, .responseBase =>
      if statement.elides then object else moveConstructor object
  | .localVariable, .derived => copyConstructor object

end ReturnStatement

section Frame

variable {library : RangeLibrary} {deflate : Bytes → Bytes} {compressStaticResources : Bool}
variable {request : Request} {type : EnumTaskType} {response after : ResponseBase} {key : Bytes}

end Frame

/-! ## What reaches the client -/

end Onyxup.Response
