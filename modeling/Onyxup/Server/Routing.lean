import Onyxup.Server.Loop

/-!
Contract: how routes are registered, and which of them a request is led to.

Owns: `addRoute` with the second entry it makes for GET, and the agreement of HEAD and GET
after every sequence of registrations.

Does not own: regular expressions. `regcomp` is a parameter: it refuses a pattern or gives
the set of the strings that `regexec` accepts.

An exception in `addRoute`, which is `noexcept`, ends the program.
-/

set_option autoImplicit false

namespace Onyxup.Server

open Onyxup.Lib.CString
open Onyxup.Http
open Onyxup.Response

/-- The arguments of `addRoute`. -/
structure RouteCall where
  method : Bytes
  regex : Bytes
  handler : Nat
  taskType : EnumTaskType
deriving DecidableEq, Repr

namespace RouteCall

/-- `methodToUpperCase`. -/
def methodToUpperCase (call : RouteCall) : Bytes :=
  call.method.map toUpper

/-- The constructor of `Route`, which throws if the pattern does not compile. -/
def route (regcomp : Bytes → Option (Bytes → Bool)) (method : Bytes) (call : RouteCall) :
    Option Route :=
  (regcomp call.regex).map fun pregex => ⟨method, pregex, call.handler, call.taskType⟩

/-- The call is for GET, and its pattern matches. -/
def servesGet (regcomp : Bytes → Option (Bytes → Bool)) (uri : Bytes) (call : RouteCall) : Bool :=
  call.methodToUpperCase == ascii "GET" && (regcomp call.regex).any (· uri)

end RouteCall

/-- `addRoute`. -/
def addRoute (regcomp : Bytes → Option (Bytes → Bool)) (routes : List Route) (call : RouteCall) :
    Option (List Route) := do
  let route ← call.route regcomp call.methodToUpperCase
  let routes := routes ++ [route]
  if call.methodToUpperCase = ascii "GET" then
    let route ← call.route regcomp (ascii "HEAD")
    some (routes ++ [route])
  else some routes

/-- A sequence of calls. -/
def addRoutes (regcomp : Bytes → Option (Bytes → Bool)) (calls : List RouteCall)
    (routes : List Route) : Option (List Route) :=
  calls.foldlM (addRoute regcomp) routes

/-- Handler and task type of the first route for a method and a full URI. -/
def target (routes : List Route) (method uri : Bytes) : Option (Nat × EnumTaskType) :=
  (routes.find? fun route => route.method == method && route.pregex uri).map fun route =>
    (route.handler, route.taskType)

/-- Handler and task type of the first call for GET whose pattern matches. -/
def firstGet (regcomp : Bytes → Option (Bytes → Bool)) (calls : List RouteCall) (uri : Bytes) :
    Option (Nat × EnumTaskType) :=
  (calls.find? (·.servesGet regcomp uri)).map fun call => (call.handler, call.taskType)

section Registration

variable {regcomp : Bytes → Option (Bytes → Bool)} {routes after : List Route}
variable {call : RouteCall} {calls : List RouteCall} {method uri : Bytes}

theorem target_append (routes others : List Route) (method uri : Bytes) :
    target (routes ++ others) method uri =
      (target routes method uri).or (target others method uri) := by
  rw [target, List.find?_append, Option.map_or]
  rfl

/-- What one call can do: an entry for its own method, and one for HEAD if that is GET. -/
theorem addRoute_some (added : addRoute regcomp routes call = some after) :
    ∃ pregex, regcomp call.regex = some pregex ∧
      after = routes ++ [⟨call.methodToUpperCase, pregex, call.handler, call.taskType⟩] ++
        if call.methodToUpperCase = ascii "GET" then
          [⟨ascii "HEAD", pregex, call.handler, call.taskType⟩]
        else [] := by
  unfold addRoute RouteCall.route at added
  cases compiled : regcomp call.regex with
  | none =>
      rw [compiled] at added
      cases added
  | some pregex =>
      rw [compiled] at added
      refine ⟨pregex, rfl, ?_⟩
      change (if call.methodToUpperCase = ascii "GET" then _ else _) = some after at added
      split at added
      next isGet =>
        cases added
        rw [if_pos isGet]
      next other =>
        cases added
        rw [if_neg other, List.append_nil]

theorem target_singleton (route : Route) (method uri : Bytes) :
    target [route] method uri =
      if route.method = method ∧ route.pregex uri = true then
        some (route.handler, route.taskType)
      else none := by
  rw [target, List.find?_singleton]
  simp only [Bool.and_eq_true, beq_iff_eq]
  split <;> rfl

theorem firstGet_singleton {pregex : Bytes → Bool} (compiled : regcomp call.regex = some pregex) :
    firstGet regcomp [call] uri =
      if call.methodToUpperCase = ascii "GET" ∧ pregex uri = true then
        some (call.handler, call.taskType)
      else none := by
  rw [firstGet, List.find?_singleton, RouteCall.servesGet, compiled]
  simp only [Option.any_some, Bool.and_eq_true, beq_iff_eq]
  split <;> rfl

/-- One call adds itself, for both methods, behind what was there. -/
theorem target_addRoute (notHead : call.methodToUpperCase ≠ ascii "HEAD")
    (added : addRoute regcomp routes call = some after)
    (either : method = ascii "GET" ∨ method = ascii "HEAD") (uri : Bytes) :
    target after method uri =
      (target routes method uri).or (firstGet regcomp [call] uri) := by
  obtain ⟨pregex, compiled, rfl⟩ := addRoute_some added
  rw [List.append_assoc, target_append]
  congr 1
  rw [firstGet_singleton compiled]
  by_cases isGet : call.methodToUpperCase = ascii "GET"
  · -- The two entries answer for one method each.
    have different : ascii "HEAD" ≠ ascii "GET" := by decide
    rw [if_pos isGet, target_append, target_singleton, target_singleton, isGet]
    rcases either with rfl | rfl
    · simp only [different, false_and, if_false, Option.or_none]
    · simp only [different.symm, false_and, if_false, Option.none_or, true_and]
  · have notMethod : call.methodToUpperCase ≠ method := by
      rcases either with rfl | rfl
      · exact isGet
      · exact notHead
    rw [if_neg isGet, List.append_nil, target_singleton,
      if_neg (fun both => notMethod both.1), if_neg (fun both => isGet both.1)]

/-- A sequence of calls adds the first of them that serves GET. By induction on the calls,
with the routes generalised. -/
theorem target_addRoutes (notHead : ∀ call ∈ calls, call.methodToUpperCase ≠ ascii "HEAD")
    (added : addRoutes regcomp calls routes = some after)
    (either : method = ascii "GET" ∨ method = ascii "HEAD") (uri : Bytes) :
    target after method uri =
      (target routes method uri).or (firstGet regcomp calls uri) := by
  induction calls generalizing routes with
  | nil =>
      cases added
      exact (Option.or_none).symm
  | cons call rest inductionHypothesis =>
      obtain ⟨callNotHead, restNotHead⟩ := List.forall_mem_cons.mp notHead
      rw [addRoutes, List.foldlM_cons] at added
      obtain ⟨middle, first, later⟩ := Option.bind_eq_some_iff.mp added
      have split : firstGet regcomp (call :: rest) uri =
          (firstGet regcomp [call] uri).or (firstGet regcomp rest uri) := by
        rw [firstGet, ← List.singleton_append, List.find?_append, Option.map_or]
        rfl
      rw [inductionHypothesis restNotHead later, target_addRoute callNotHead first either, split,
        Option.or_assoc]

end Registration

/-- What a request is led to. -/
def dispatchTarget (config : Config) (allocated : Bool) (request : Request) :
    Option (Nat × EnumTaskType) :=
  (State.dispatcher config allocated request).map fun route => (route.handler, route.taskType)

/-- **HEAD routing follows GET routing.** After every sequence of calls of which none names
HEAD, a HEAD and a GET request for one URI are led to one handler with one task type: those of
the first call for GET whose pattern matches. -/
theorem head_routed_as_get (regcomp : Bytes → Option (Bytes → Bool)) (calls : List RouteCall)
    (config : Config) (registered : addRoutes regcomp calls [] = some config.routes)
    (notHead : ∀ call ∈ calls, call.methodToUpperCase ≠ ascii "HEAD")
    (head get : Request) (isHead : head.method = ascii "HEAD") (isGet : get.method = ascii "GET")
    (sameUri : head.fullUri = get.fullUri) (allocated : Bool) :
    dispatchTarget config allocated head = dispatchTarget config allocated get ∧
      dispatchTarget config allocated get =
        if allocated then firstGet regcomp calls (cString get.fullUri) else none := by
  have led : ∀ request : Request,
      request.method = ascii "GET" ∨ request.method = ascii "HEAD" →
      dispatchTarget config allocated request =
        if allocated then firstGet regcomp calls (cString request.fullUri) else none := by
    intro request either
    have found := target_addRoutes notHead registered either (cString request.fullUri)
    cases allocated with
    | false => rfl
    | true => exact found
  rw [led head (.inr isHead), led get (.inl isGet), sameUri]
  exact ⟨rfl, rfl⟩

/-- A `regcomp` that knows one pattern. -/
def regcompHtml (regex : Bytes) : Option (Bytes → Bool) :=
  if regex = ascii "^/html$" then some (· == ascii "/html") else none

/-- One page with two methods, registered in lower case. -/
def htmlCalls : List RouteCall :=
  [⟨ascii "post", ascii "^/html$", 7, .localTask⟩, ⟨ascii "get", ascii "^/html$", 8, .localTask⟩]

/-- A server with the routes of that page. -/
def htmlConfig : Config where
  maxConnection := 2
  maxInputBufferLength := 64
  maxOutputBufferLength := 1024
  timeLimitRequestSeconds := 60
  limitLocalTasks := 100
  numberThreads := 2
  routes := [⟨ascii "POST", (· == ascii "/html"), 7, .localTask⟩,
    ⟨ascii "GET", (· == ascii "/html"), 8, .localTask⟩,
    ⟨ascii "HEAD", (· == ascii "/html"), 8, .localTask⟩]
  isStatisticsEnable := false
  listenFd := 9
  identity := ⟨ascii "0.0.0.0", 80⟩
  body404 := []

/-- A request for the page. -/
def htmlRequest (method : Bytes) : Request :=
  { requestFactory 1 1024 with method := method, fullUri := ascii "/html" }

/-- The page is found by HEAD as by GET. -/
theorem html_found_by_both :
    dispatchTarget htmlConfig true (htmlRequest (ascii "HEAD")) =
        dispatchTarget htmlConfig true (htmlRequest (ascii "GET")) ∧
      dispatchTarget htmlConfig true (htmlRequest (ascii "GET")) = some (8, .localTask) :=
  head_routed_as_get regcompHtml htmlCalls htmlConfig rfl
    (List.forall_mem_cons.mpr ⟨by decide, List.forall_mem_singleton.mpr (by decide)⟩)
    (htmlRequest (ascii "HEAD")) (htmlRequest (ascii "GET")) rfl rfl rfl true

end Onyxup.Server
