import Onyxup.Server.Ledger
import Onyxup.Server.Segmentation

/-!
Contract: several requests that arrive at once on one connection.

Owns: the requests that are dispatched during a run, and the exact condition under
which all requests of one `recv` are among them.

Does not own: the responses. Whatever is done about them, a request that is still
in the input buffer then is not read again: the reset for the next cycle clears the
buffer, and `epoll` reports only what arrives anew.
-/

set_option autoImplicit false

namespace Onyxup.Server

open Onyxup.Lib.CString
open Onyxup.Lib.Transition
open Onyxup.Http
open Onyxup.Http.Parser
open Onyxup.Response

/-- Bytes arrive on the descriptor. -/
def Action.DeliversTo (fd : Nat) : Action → Prop
  | .receive other (.data _) _ _ _ => other = fd
  | _ => False

/-- What `dispatcher` is called with for the descriptor in this step. -/
def dispatchedBy (config : Config) (fd : Nat) (state : State) : Action → Option Content
  | .receive other (.data bytes) modified _ _ =>
      if other = fd ∧ modified = true then
        match (state.slots fd).buffer, (state.slots fd).request with
        | some buffer, some request =>
            match Connection.receive config.maxInputBufferLength ⟨buffer, request⟩ bytes with
            | .ok (.dispatch _, after) => some (content after.request)
            | _ => none
        | _, _ => none
      else none
  | _ => none

/-- The same for a whole run. -/
def dispatchedDuring (config : Config) (fd : Nat) : State → List Action → List Content
  | _, [] => []
  | state, action :: rest =>
      (dispatchedBy config fd state action).toList ++
        match step config state action with
        | .ok after => dispatchedDuring config fd after rest
        | .error _ => []

/-- What a decision shows to the dispatcher. -/
def Decision.shown : Decision → Option Content
  | .dispatch seen => some seen
  | _ => none

/-- Requests one behind the other. -/
def arrival (requests : List CompleteRequest) : Bytes :=
  (requests.map CompleteRequest.bytes).flatten

/-- Nothing is dispatched when nothing arrives. By induction on the run. -/
theorem dispatchedDuring_of_silent {config : Config} {fd : Nat} {actions : List Action}
    (silent : ∀ action ∈ actions, ¬ action.DeliversTo fd) (state : State) :
    dispatchedDuring config fd state actions = [] := by
  induction actions generalizing state with
  | nil => rfl
  | cons action rest inductionHypothesis =>
      have nothing : dispatchedBy config fd state action = none := by
        have elsewhere := silent action List.mem_cons_self
        unfold dispatchedBy
        split
        next other bytes modified _ _ => exact if_neg fun both => elsewhere both.1
        next => rfl
      rw [dispatchedDuring, nothing, Option.toList_none, List.nil_append]
      split
      next => exact inductionHypothesis (fun later member =>
        silent later (List.mem_cons_of_mem _ member)) _
      next => rfl

theorem arrival_cons (request : CompleteRequest) (requests : List CompleteRequest) :
    arrival (request :: requests) = request.bytes ++ arrival requests := by
  simp [arrival]

theorem arrival_eq_nil_iff {requests : List CompleteRequest} :
    arrival requests = [] ↔ requests = [] := by
  constructor
  · intro empty
    cases requests with
    | nil => rfl
    | cons first rest =>
        rw [arrival_cons, List.append_eq_nil_iff] at empty
        exact absurd empty.1 first.bytes_ne_nil
  · rintro rfl
    rfl

/-! ## The chunk that brings the requests -/

section Chunk

variable {config : Config} {fd : Nat} {state : State} {bytes : Bytes}
variable {allocated : Bool} {answers : Answers}

/-- A request is dispatched as the decision shows it. -/
theorem Connection.receive_shows {connection after : Connection} {maxInputBufferLength : Nat}
    {seen : Content}
    (received : connection.receive maxInputBufferLength bytes = .ok (.dispatch seen, after)) :
    content after.request = seen := by
  rcases Connection.receive_cases received with ⟨impossible, _⟩ | ⟨_, _, _, digested⟩
  · cases impossible
  · rcases Connection.digest_cases digested with ⟨impossible | impossible, _⟩ |
      ⟨_, _, _, _, taken⟩
    · cases impossible
    · cases impossible
    · rcases Connection.takeBody_cases taken with ⟨impossible, _⟩ | ⟨impossible, _⟩ |
        ⟨same, rfl, _⟩ | ⟨_, _, _, _, same⟩
      · cases impossible
      · cases impossible
      · injection same with same
        exact same.symm
      · injection same with same
        exact same.symm

/-- What is dispatched in a read step is what the step hands to `dispatcher`. -/
theorem dispatch_of_dispatchedBy {modified : Bool} {seen : Content}
    (dispatched : dispatchedBy config fd state
      (.receive fd (.data bytes) modified allocated answers) = some seen) :
    ∃ (request : Request) (between : State), content request = seen ∧
      step config state (.receive fd (.data bytes) modified allocated answers) =
        between.dispatch config true allocated answers fd request := by
  by_cases registered : fd = fd ∧ modified = true
  · rw [dispatchedBy, if_pos registered] at dispatched
    split at dispatched
    next buffer request has asked =>
      split at dispatched
      next shown after received =>
        refine ⟨after.request, state.setSlot fd { state.slots fd with
          buffer := some after.buffer
          request := some after.request
          cycle := { (state.slots fd).cycle with
            received := (state.slots fd).cycle.received ++ bytes } },
          Option.some.inj dispatched, ?_⟩
        simp only [step, State.receive, State.receiveData, has, asked, received, registered.2]
      next => cases dispatched
    next => cases dispatched
  · rw [dispatchedBy, if_neg registered] at dispatched
    cases dispatched

/-- Without the change in `epoll` the connection is closed instead. -/
theorem dispatchedBy_of_unmodified :
    dispatchedBy config fd state (.receive fd (.data bytes) false allocated answers) = none :=
  if_neg fun both => Bool.false_ne_true both.2

/-- The read step of an open connection decides. -/
theorem dispatchedBy_of_receive {buffer : Buffer} {request : Request} {decision : Decision}
    {after : Connection} (has : (state.slots fd).buffer = some buffer)
    (asked : (state.slots fd).request = some request)
    (received : Connection.receive config.maxInputBufferLength ⟨buffer, request⟩ bytes =
      .ok (decision, after)) :
    dispatchedBy config fd state (.receive fd (.data bytes) true allocated answers) =
      decision.shown := by
  rw [dispatchedBy, if_pos ⟨rfl, rfl⟩, has, asked]
  simp only [received]
  cases decision with
  | dispatch seen => exact congrArg some (Connection.receive_shows received)
  | wait => rfl
  | close => rfl
  | tooLarge => rfl

/-- The bytes do not fit: nothing is dispatched. -/
theorem dispatchedBy_of_full {buffer : Buffer} {request : Request}
    (has : (state.slots fd).buffer = some buffer)
    (asked : (state.slots fd).request = some request)
    (full : config.maxInputBufferLength ≤ buffer.posInputBuffer + bytes.length) :
    dispatchedBy config fd state (.receive fd (.data bytes) true allocated answers) = none := by
  have refused : Connection.receive config.maxInputBufferLength ⟨buffer, request⟩ bytes =
      .ok (.tooLarge, ⟨buffer, request⟩) := if_pos full
  rw [dispatchedBy_of_receive has asked refused]
  rfl

/-- Requests that arrive at once on a connection that has received nothing: at most
the first one is dispatched, and only if it has no body or nothing stands behind it. -/
theorem dispatchedBy_of_arrival {first : CompleteRequest} {others : List CompleteRequest}
    (sound : Sound config fd (state.slots fd))
    (reading : (state.slots fd).interest = some .read)
    (nothing : (state.slots fd).cycle.received = [])
    (atOnce : (arrival (first :: others)).length ≤ 4096) :
    dispatchedBy config fd state
        (.receive fd (.data (arrival (first :: others))) true allocated answers) =
      if (arrival (first :: others)).length < config.maxInputBufferLength ∧
          (first.body = [] ∨ others = []) then some first.expected else none := by
  obtain ⟨buffer, request, has, asked, open_⟩ := sound.of_interest reading
  have reads := open_.reading rfl
  obtain ⟨memory, filled⟩ := reads.filled
  rw [nothing] at filled
  have size : config.maxInputBufferLength ≤ memory.length := by
    rw [filled.memorySize, open_.inputLength]
  by_cases fits : (arrival (first :: others)).length < config.maxInputBufferLength
  · rw [arrival_cons] at fits atOnce ⊢
    have small : first.bytes.length < 2147483648 := by
      rw [List.length_append] at atOnce
      omega
    obtain ⟨after, received⟩ : ∃ after, Connection.receive config.maxInputBufferLength
        ⟨buffer, requestFactory fd config.maxOutputBufferLength⟩
        (first.bytes ++ arrival others) = .ok (_, after) :=
      receive_followed small size fits filled
    rw [← reads.fresh nothing] at received
    rw [dispatchedBy_of_receive has asked received]
    by_cases alone : first.body = [] ∨ others = []
    · rw [if_pos (alone.imp_right arrival_eq_nil_iff.mpr), if_pos ⟨fits, alone⟩]
      rfl
    · rw [if_neg (fun either => alone (either.imp_right arrival_eq_nil_iff.mp)),
        if_neg (fun both => alone both.2)]
      rfl
  · rw [if_neg (fun both => fits both.1)]
    refine dispatchedBy_of_full has asked ?_
    rw [filled.position, List.length_nil]
    omega

end Chunk

/-! ## All requests of one `recv` -/

/-- Requests arrive at once on a connection that has received nothing since it was
opened or reset, and nothing arrives on it afterwards, whatever else happens. They are
dispatched, all and in order, exactly when there is one of them, it leaves a byte of the
input buffer free, and `epoll` agrees to stop reading. -/
theorem pipelined_dispatched_iff (config : Config) (state : State) (fd : Nat)
    (requests : List CompleteRequest) (modified allocated : Bool) (answers : Answers)
    (later : List Action) (reachable : Reachable (server config) Unconditional state)
    (reading : (state.slots fd).interest = some .read)
    (nothing : (state.slots fd).cycle.received = []) (nonempty : requests ≠ [])
    (atOnce : (arrival requests).length ≤ 4096)
    (silent : ∀ action ∈ later, ¬ action.DeliversTo fd) :
    dispatchedDuring config fd state
        (.receive fd (.data (arrival requests)) modified allocated answers :: later) =
        requests.map CompleteRequest.expected ↔
      requests.length = 1 ∧ (arrival requests).length < config.maxInputBufferLength ∧
        modified = true := by
  have afterwards : ∀ action, dispatchedDuring config fd state (action :: later) =
      (dispatchedBy config fd state action).toList := by
    intro action
    rw [dispatchedDuring]
    split
    next => rw [dispatchedDuring_of_silent silent, List.append_nil]
    next => rw [List.append_nil]
  rw [afterwards]
  obtain ⟨first, others, rfl⟩ := List.exists_cons_of_ne_nil nonempty
  have sound := (Invariant.of_reachable reachable).sound fd
  cases modified with
  | false =>
      rw [dispatchedBy_of_unmodified]
      simp
  | true =>
      rw [dispatchedBy_of_arrival sound reading nothing atOnce]
      have single : (first :: others).length = 1 ↔ others = [] := by
        rw [List.length_cons, Nat.succ_inj, List.length_eq_zero_iff]
      rw [single]
      constructor
      · intro same
        split at same
        next both =>
          rw [Option.toList_some, List.map_cons, List.cons_eq_cons] at same
          exact ⟨List.map_eq_nil_iff.mp same.2.symm, both.1, rfl⟩
        next => cases same
      · rintro ⟨rfl, fits, -⟩
        rw [if_pos ⟨fits, .inr rfl⟩]
        rfl

def keepAliveBlock : Bytes :=
  ascii "GET / HTTP/1.1\r\nConnection: Keep-Alive\r\n\r\n"

def keepAliveHead : RequestHead :=
  ⟨ascii "GET", ascii "/", 1, [⟨ascii "Connection", ascii "Keep-Alive"⟩]⟩

theorem keepAliveBlock_accepted : AcceptsBlock headerSlots keepAliveBlock keepAliveHead := by
  unfold AcceptsBlock
  decide

theorem keepAliveHead_silent : (headerMap keepAliveHead).lookup contentLength = none := rfl

/-- `GET /` from a client that keeps the connection. -/
def keepAliveGet : CompleteRequest where
  block := keepAliveBlock
  body := []
  head := keepAliveHead
  accepted := keepAliveBlock_accepted
  announced := by rw [keepAliveHead_silent]

/-- One such request on a new connection is dispatched. -/
theorem single_request_dispatched :
    ∃ state, Reachable (server smallConfig) Unconditional state ∧
      (state.slots 1).interest = some .read ∧
      dispatchedDuring smallConfig 1 state
        [.receive 1 (.data (arrival [keepAliveGet])) true true ⟨[], true⟩] =
        [keepAliveGet.expected] := by
  obtain ⟨state, reachable, passes⟩ := (server smallConfig).exists_of_replay
    smallState_initial
    (fun state => decide ((state.slots 1).interest = some .read) &&
      decide ((state.slots 1).cycle.received = []))
    (show ((server smallConfig).replay Unconditional smallState [clientConnects]).any _ = true by
      decide +kernel)
  simp only [Bool.and_eq_true, decide_eq_true_eq] at passes
  exact ⟨state, reachable, passes.1,
    (pipelined_dispatched_iff smallConfig state 1 [keepAliveGet] true true ⟨[], true⟩ []
      reachable passes.1 passes.2 (by simp) (by decide) (by simp)).mpr
      ⟨rfl, by decide, rfl⟩⟩

/-- The client asks for the connection to be kept. -/
def CompleteRequest.KeepAlive (request : CompleteRequest) : Prop :=
  (headerMap request.head).lookup (ascii "connection") = some (ascii "Keep-Alive")

/-- No task of the descriptor is left, and its connection reads again. -/
def Drained (fd : Nat) (state : State) : Prop :=
  (state.slots fd).interest = some .read ∧ ∀ task ∈ state.inFlight, task.fd ≠ fd

instance (fd : Nat) (state : State) : Decidable (Drained fd state) :=
  inferInstanceAs (Decidable (_ ∧ _))

/-- An input buffer that both requests fit in. -/
def wideConfig : Config :=
  { smallConfig with maxInputBufferLength := 128 }

theorem wideState_initial : (server wideConfig).initial smallState :=
  ⟨smallState_initial.free, smallState_initial.read, rfl, rfl, smallState_initial.queues, rfl,
    smallState_initial.totals, smallState_initial.history, smallState_initial.cycles⟩

/-- Two requests at once, and what the server does until the connection reads again. -/
def servedTogether : List Action :=
  [.receive 1 (.data (arrival [keepAliveGet, keepAliveGet])) true true ⟨[], true⟩,
    .chooseQueue ⟨[], true⟩, .addTask, .workerTake 1,
    .workerFinish 1 (.make 200 (ascii "OK") [] []) [] [], .beginIteration,
    .checkTimeLimit ⟨[], true⟩, .checkTimeLimit ⟨[], true⟩, .checkTimeLimit ⟨[], true⟩,
    .popPerformed, .deliver ⟨[], true⟩, .popPerformed, .send 1 (some 129) true]

/-- The second of two requests is lost. -/
theorem second_request_lost :
    ¬ ∀ (config : Config) (state final : State) (fd : Nat) (requests : List CompleteRequest)
        (allocated : Bool) (answers : Answers) (later : List Action),
      Reachable (server config) Unconditional state →
      (state.slots fd).interest = some .read → (state.slots fd).cycle.received = [] →
      requests ≠ [] → (∀ request ∈ requests, request.KeepAlive) →
      (arrival requests).length ≤ 4096 →
      (arrival requests).length < config.maxInputBufferLength →
      (∀ action ∈ later, ¬ action.DeliversTo fd) →
      (server config).replay Unconditional state
        (.receive fd (.data (arrival requests)) true allocated answers :: later) = some final →
      Drained fd final →
      dispatchedDuring config fd state
          (.receive fd (.data (arrival requests)) true allocated answers :: later) =
        requests.map CompleteRequest.expected := by
  intro always
  obtain ⟨state, reachable, passes⟩ := (server wideConfig).exists_of_replay
    wideState_initial
    (fun state => decide ((state.slots 1).interest = some .read) &&
      decide ((state.slots 1).cycle.received = []) &&
      ((server wideConfig).replay Unconditional state servedTogether).any
        (fun final => decide (Drained 1 final)) &&
      decide ((dispatchedDuring wideConfig 1 state servedTogether).length = 1))
    (show ((server wideConfig).replay Unconditional smallState
      [.accept ⟨1, true, true, List.replicate 128 0, List.replicate 1024 0, true, true⟩]).any _ =
        true by decide +kernel)
  simp only [Bool.and_eq_true, decide_eq_true_eq] at passes
  obtain ⟨⟨⟨reading, nothing⟩, served⟩, one⟩ := passes
  obtain ⟨final, replayed, drained⟩ := (Option.any_eq_true _ _).mp served
  have keepAlive : keepAliveGet.KeepAlive := by
    unfold CompleteRequest.KeepAlive
    decide
  have both := always wideConfig state final 1 [keepAliveGet, keepAliveGet] true ⟨[], true⟩ _
    reachable reading nothing (by simp) (by simp [keepAlive]) (by decide) (by decide)
    (by simp [Action.DeliversTo]) replayed (of_decide_eq_true drained)
  have two := congrArg List.length both
  rw [show _ :: _ = servedTogether from rfl, one] at two
  cases two

end Onyxup.Server
