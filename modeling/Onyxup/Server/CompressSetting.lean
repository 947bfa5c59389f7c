import Onyxup.Lib.Transition
import Onyxup.Response.Selection

/-!
Contract: when `setCompressStaticResources` takes effect.

Owns: the life of the setting through the constructor, the start of the worker threads and
the execution of tasks, in every interleaving, and a condition on the steps of a run under
which every static response is compressed as the setting said when its task was dispatched.

Does not own: the routes and the connections that tasks come from.

Each worker builds its chain once, when its thread starts, with the value that the static
field has at that moment. Only the worker with the number zero runs static tasks.
-/

set_option autoImplicit false

namespace Onyxup.Server

open Onyxup.Lib.CString
open Onyxup.Lib.Transition
open Onyxup.Http
open Onyxup.Response

/-- A task, with the value that the setting had when it was dispatched. -/
structure PoolTask where
  request : Request
  type : EnumTaskType
  setting : Bool

/-- A task that has been run: what its handler returned, and the flag of the chain that the
response went through. -/
structure Execution where
  task : PoolTask
  compressStaticResources : Bool
  response : ResponseBase

/-- The static field, the threads with the flags of their chains, the task that the loop holds,
the two queues and the history. -/
structure Pool where
  isCompressStaticResources : Bool
  configured : Bool
  chains : List (Option Bool)
  dispatched : Option PoolTask
  tasksQueue : List PoolTask
  staticTasksQueue : List PoolTask
  executions : List Execution

inductive PoolAction where
  | configure (compress : Option Bool)
  | spawn
  | startUp (id : Nat)
  | setCompressStaticResources (compress : Bool)
  | dispatch (request : Request) (type : EnumTaskType)
  | addTask
  | refuse
  | execute (id : Nat) (response : ResponseBase)

namespace Pool

/-- The queue that worker `id` waits on. -/
def queue (pool : Pool) (id : Nat) : List PoolTask :=
  if id = 0 then pool.staticTasksQueue else pool.tasksQueue

/-- `addTask`. -/
def addTask (pool : Pool) (task : PoolTask) : Pool :=
  match task.type with
  | .localTask => { pool with tasksQueue := pool.tasksQueue ++ [task] }
  | .staticResourcesTask => { pool with staticTasksQueue := pool.staticTasksQueue ++ [task] }
  | .jsonRpcTask => pool

/-- One turn of `tasksHandler` on worker `id`. What the chain makes of the response follows from
the execution that is noted here; a fault of the chain does not keep the pool from going on. -/
def execute (pool : Pool) (id : Nat) (response : ResponseBase) : Pool :=
  match pool.chains[id]?, pool.queue id with
  | some (some flag), task :: rest =>
      let done := { pool with executions := ⟨task, flag, response⟩ :: pool.executions }
      if id = 0 then { done with staticTasksQueue := rest } else { done with tasksQueue := rest }
  | _, _ => pool

/-- What the constructor, the threads, the setter and the loop do. -/
def step (pool : Pool) : PoolAction → Pool
  | .configure compress =>
      { pool with
        configured := true
        isCompressStaticResources := compress.getD pool.isCompressStaticResources }
  | .spawn => { pool with chains := pool.chains ++ [none] }
  | .startUp id =>
      { pool with chains := pool.chains.set id (some pool.isCompressStaticResources) }
  | .setCompressStaticResources compress => { pool with isCompressStaticResources := compress }
  | .dispatch request type =>
      { pool with dispatched := some ⟨request, type, pool.isCompressStaticResources⟩ }
  | .addTask =>
      match pool.dispatched with
      | some task => { pool.addTask task with dispatched := none }
      | none => pool
  | .refuse => { pool with dispatched := none }
  | .execute id response => pool.execute id response

/-- Which actions can happen, with `threads` workers: the threads are spawned behind the
configuration, the loop runs behind the constructor, a thread takes tasks once it has started. -/
def enabled (threads : Nat) (pool : Pool) : PoolAction → Bool
  | .configure _ => !pool.configured
  | .spawn => pool.configured && decide (pool.chains.length < threads)
  | .startUp id => decide (pool.chains[id]? = some none)
  | .setCompressStaticResources _ => true
  | .dispatch _ _ =>
      pool.configured && decide (pool.chains.length = threads) && pool.dispatched.isNone
  | .addTask => pool.dispatched.isSome
  | .refuse => pool.dispatched.isSome
  | .execute id _ =>
      ((pool.chains[id]?).join).isSome && !(pool.queue id).isEmpty

/-- The flag of the chain that static tasks go through, once it has been built. -/
def staticChain (pool : Pool) : Option Bool :=
  (pool.chains[0]?).join

end Pool

/-- The number of threads: at least two. -/
def poolThreads (numberThreads : Nat) : Nat :=
  if numberThreads < 2 then 2 else numberThreads

/-- The program before the constructor: the static field is false. -/
def freshPool : Pool :=
  ⟨false, false, [], none, [], [], []⟩

/-- The constructor, the workers, the setter and the loop as a transition system. -/
def poolSystem (numberThreads : Nat) : System Pool PoolAction Empty where
  initial := fun pool => pool = freshPool
  enabled := Pool.enabled (poolThreads numberThreads)
  step := fun pool action => .ok (pool.step action)

/-! ## The property -/

/-- A static task without Range that is not HEAD. -/
def Concerned (task : PoolTask) : Prop :=
  task.type = .staticResourcesTask ∧ task.request.method ≠ ascii "HEAD" ∧
    task.request.headers.lookup (ascii "range") = none

instance (task : PoolTask) : Decidable (Concerned task) :=
  inferInstanceAs (Decidable (_ ∧ _ ∧ _))

section Effect

variable (library : RangeLibrary) (deflate : Bytes → Bytes)

/-- What the chain makes of the response. -/
def Execution.outcome (execution : Execution) : Except ChainFault ResponseBase :=
  executeChain library deflate execution.compressStaticResources execution.task.request
    execution.task.type execution.response

/-- The chain has chosen to compress, and what it returns is the compressed response. The choice
tells the two outcomes apart where they are the same: a body that states gzip already and that
zlib leaves as it is. -/
def GzipCompressed (execution : Execution) : Prop :=
  selectTransformation library execution.compressStaticResources execution.task.request
      execution.task.type execution.response = .ok .compressed ∧
    ∃ sent, execution.outcome library deflate = .ok sent ∧
      prepareCompressResponse deflate execution.response = .ok sent

/-- If the chain returns, it returns the response as the handler has left it, with its length. -/
def SentPlain (execution : Execution) : Prop :=
  ∀ sent, execution.outcome library deflate = .ok sent →
    sent = addContentLength execution.response

/-- The response asks for compression by itself, and the client takes it. -/
def OwnCompression (execution : Execution) : Prop :=
  checkSupportGzipEncoding execution.task.request = .ok true ∧
    execution.response.compress = true

/-- A static response is compressed if the setting was true when its task was dispatched, and
goes out plain if it was not. -/
def TakesEffect (execution : Execution) : Prop :=
  Concerned execution.task → ¬ OwnCompression execution →
    (GzipCompressed library deflate execution ↔ execution.task.setting = true) ∧
      (execution.task.setting = false → SentPlain library deflate execution)

variable {library deflate}

theorem selectCompress_of_static {flag : Bool} {request : Request} {response : ResponseBase}
    (decided : EncodingDecided request)
    (notOwn : ¬ (checkSupportGzipEncoding request = .ok true ∧ response.compress = true)) :
    selectCompress flag request .staticResourcesTask response =
      .ok (if flag = true then .compressed else .default) := by
  have supported : checkSupportGzipEncoding request = .ok (supportsGzip request) :=
    checkHeader_of_decided decided
  have unasked : ¬ (supportsGzip request && response.compress) = true := by
    intro asked
    rw [Bool.and_eq_true] at asked
    exact notOwn ⟨asked.1 ▸ supported, asked.2⟩
  rw [selectCompress, supported]
  change (if (supportsGzip request && response.compress) = true then _ else _) = _
  rw [if_neg unasked]
  cases flag <;> rfl

theorem selectCompress_of_undecided {flag : Bool} {request : Request} {type : EnumTaskType}
    {response : ResponseBase} (undecided : ¬ EncodingDecided request) :
    selectCompress flag request type response = .error .noReturn := by
  have failed : checkSupportGzipEncoding request = .error .noReturn :=
    checkHeader_of_undecided undecided
  rw [selectCompress, failed]
  rfl

/-- The choice on a concerned task is that of the Compress member. -/
theorem selectTransformation_of_concerned {execution : Execution}
    (concerned : Concerned execution.task) :
    selectTransformation library execution.compressStaticResources execution.task.request
        execution.task.type execution.response =
      selectCompress execution.compressStaticResources execution.task.request
        .staticResourcesTask execution.response := by
  obtain ⟨isStatic, notHead, noRange⟩ := concerned
  have unranged : checkRequestRange execution.task.request = .ok false := by
    rw [checkRequestRange, checkHeader, noRange]
  rw [selectTransformation, if_neg notHead, unranged, isStatic]
  rfl

/-- What decides about the compression: the flag of the chain, an Accept-Encoding header that the
chain can judge, and a body that `gzip::compress` takes. -/
theorem gzipCompressed_iff {execution : Execution} (concerned : Concerned execution.task)
    (notOwn : ¬ OwnCompression execution) :
    GzipCompressed library deflate execution ↔
      execution.compressStaticResources = true ∧ EncodingDecided execution.task.request ∧
        execution.response.body.length ≤ gzipMaxBytes := by
  rw [GzipCompressed, Execution.outcome, executeChain_eq,
    selectTransformation_of_concerned concerned]
  by_cases decided : EncodingDecided execution.task.request
  · rw [selectCompress_of_static decided notOwn]
    cases execution.compressStaticResources with
    | false => simp
    | true =>
        change _ ∧ (∃ sent, prepareCompressResponse deflate execution.response = .ok sent ∧
          prepareCompressResponse deflate execution.response = .ok sent) ↔ _
        constructor
        · rintro ⟨_, sent, prepared, _⟩
          exact ⟨rfl, decided, (prepareCompressResponse_ok prepared).1⟩
        · rintro ⟨_, _, fits⟩
          exact ⟨rfl, _, prepareCompressResponse_of_fits fits, prepareCompressResponse_of_fits fits⟩
  · rw [selectCompress_of_undecided decided]
    constructor
    · rintro ⟨impossible, _⟩
      cases impossible
    · rintro ⟨_, absurdly, _⟩
      exact absurd absurdly decided

/-- A chain without the flag leaves the response alone. -/
theorem sentPlain_of_unset {execution : Execution} (concerned : Concerned execution.task)
    (notOwn : ¬ OwnCompression execution) (unset : execution.compressStaticResources = false) :
    SentPlain library deflate execution := by
  intro sent returned
  rw [Execution.outcome, executeChain_eq, selectTransformation_of_concerned concerned,
    unset] at returned
  by_cases decided : EncodingDecided execution.task.request
  · rw [selectCompress_of_static decided notOwn] at returned
    exact (Except.ok.inj returned).symm
  · rw [selectCompress_of_undecided decided] at returned
    cases returned

end Effect

/-! ## The condition on the steps -/

instance (request : Request) : Decidable (EncodingDecided request) :=
  decidable_of_iff
    (∀ text ∈ request.headers.lookup (ascii "accept-encoding"),
      (find text (ascii "gzip")).isSome = true)
    Iff.rfl

/-- The chain can compress this response: it reaches the end of the predicate about
Accept-Encoding, and the body is one that `gzip::compress` takes, unless the response asks for
compression by itself. -/
def Compressible (request : Request) (response : ResponseBase) : Prop :=
  EncodingDecided request ∧
    ((supportsGzip request && response.compress) = true ∨
      response.body.length ≤ gzipMaxBytes)

instance (request : Request) (response : ResponseBase) :
    Decidable (Compressible request response) :=
  inferInstanceAs (Decidable (_ ∧ _))

/-- A task is queued only for a chain that has its setting or is still to be built, the chain for
static tasks is built while the static field has the setting of the tasks in the queue, and what
has to be compressed can be. -/
def SettingSeen (pool : Pool) : PoolAction → Prop
  | .startUp id => id = 0 → ∀ task ∈ pool.staticTasksQueue, Concerned task →
      task.setting = pool.isCompressStaticResources
  | .addTask => ∀ task ∈ pool.dispatched, Concerned task →
      ∀ flag ∈ pool.staticChain, task.setting = flag
  | .execute id response => id = 0 → ∀ task ∈ pool.staticTasksQueue.head?, Concerned task →
      task.setting = true → Compressible task.request response
  | _ => True

instance (pool : Pool) (action : PoolAction) : Decidable (SettingSeen pool action) := by
  cases action <;> unfold SettingSeen <;> infer_instance

/-! ## The invariant -/

/-- The chain had the setting of the task, and could compress where it had to. -/
def Followed (execution : Execution) : Prop :=
  Concerned execution.task →
    execution.compressStaticResources = execution.task.setting ∧
      (execution.task.setting = true →
        Compressible execution.task.request execution.response)

/-- Static tasks are only in the queue of worker zero, and those there have the setting of its
chain once it is built. -/
structure SettingAgreed (pool : Pool) : Prop where
  localTasks : ∀ task ∈ pool.tasksQueue, task.type = .localTask
  staticTasks : ∀ flag ∈ pool.staticChain, ∀ task ∈ pool.staticTasksQueue, Concerned task →
    task.setting = flag
  followed : ∀ execution ∈ pool.executions, Followed execution

namespace SettingAgreed

variable {pool : Pool}

private theorem staticChain_append (pool : Pool) :
    ({ pool with chains := pool.chains ++ [none] } : Pool).staticChain = pool.staticChain := by
  unfold Pool.staticChain
  cases pool.chains with
  | nil => rfl
  | cons first rest => rfl

private theorem staticChain_set_succ (pool : Pool) (id : Nat) (chain : Option Bool) :
    ({ pool with chains := pool.chains.set (id + 1) chain } : Pool).staticChain =
      pool.staticChain := by
  unfold Pool.staticChain
  cases pool.chains with
  | nil => rfl
  | cons first rest => rfl

private theorem staticChain_set_zero (pool : Pool) (flag : Bool) :
    ∀ built ∈ ({ pool with chains := pool.chains.set 0 (some flag) } : Pool).staticChain,
      built = flag := by
  unfold Pool.staticChain
  intro built member
  cases chains : pool.chains with
  | nil =>
      simp only [chains] at member
      cases member
  | cons first rest =>
      simp only [chains] at member
      cases member
      rfl

theorem initial : SettingAgreed freshPool where
  localTasks := by intro task member; cases member
  staticTasks := by intro flag _ task member; cases member
  followed := by intro execution member; cases member

theorem startUp (agreed : SettingAgreed pool) {id : Nat}
    (meets : SettingSeen pool (.startUp id)) : SettingAgreed (pool.step (.startUp id)) where
  localTasks := agreed.localTasks
  followed := agreed.followed
  staticTasks := by
    intro flag built task member concerned
    cases id with
    | zero =>
        rw [staticChain_set_zero pool pool.isCompressStaticResources flag built]
        exact meets rfl task member concerned
    | succ id =>
        rw [Pool.step, staticChain_set_succ] at built
        exact agreed.staticTasks flag built task member concerned

/-- A static task joins the queue with the setting of the chain, a local one the other queue. -/
theorem queued (agreed : SettingAgreed pool) {task : PoolTask}
    (seen : Concerned task → ∀ flag ∈ pool.staticChain, task.setting = flag) :
    SettingAgreed (pool.addTask task) := by
  unfold Pool.addTask
  split
  next isLocal =>
    refine ⟨?_, agreed.staticTasks, agreed.followed⟩
    intro other member
    rcases List.mem_append.mp member with earlier | new
    · exact agreed.localTasks other earlier
    · rw [List.mem_singleton.mp new]
      exact isLocal
  next =>
    refine ⟨agreed.localTasks, ?_, agreed.followed⟩
    intro flag built other member concerned
    rcases List.mem_append.mp member with earlier | new
    · exact agreed.staticTasks flag built other earlier concerned
    · rw [List.mem_singleton.mp new] at concerned ⊢
      exact seen concerned flag built
  next => exact agreed

theorem addTask (agreed : SettingAgreed pool) (meets : SettingSeen pool .addTask) :
    SettingAgreed (pool.step .addTask) := by
  cases dispatched : pool.dispatched with
  | none =>
      rw [Pool.step, dispatched]
      exact agreed
  | some task =>
      have after : SettingAgreed (pool.addTask task) := agreed.queued (meets task dispatched)
      rw [Pool.step, dispatched]
      exact ⟨after.localTasks, after.staticTasks, after.followed⟩

/-- Worker zero runs the first static task with its chain, the others run local tasks. -/
theorem execute (agreed : SettingAgreed pool) {id : Nat} {response : ResponseBase}
    (meets : SettingSeen pool (.execute id response)) :
    SettingAgreed (pool.execute id response) := by
  unfold Pool.execute
  split
  next flag task rest chain queue =>
    dsimp only
    split
    next isZero =>
      subst isZero
      have first : pool.staticTasksQueue = task :: rest := queue
      have built : flag ∈ pool.staticChain := by
        rw [Pool.staticChain, chain]
        rfl
      have member : task ∈ pool.staticTasksQueue := by
        rw [first]
        exact List.mem_cons_self
      refine ⟨agreed.localTasks, ?_, ?_⟩
      · intro other otherBuilt queued waits concerned
        apply agreed.staticTasks other otherBuilt queued _ concerned
        rw [first]
        exact List.mem_cons_of_mem task waits
      · apply List.forall_mem_cons.mpr ⟨?_, agreed.followed⟩
        intro concerned
        refine ⟨(agreed.staticTasks flag built task member concerned).symm, ?_⟩
        exact meets rfl task (by rw [first]; rfl) concerned
    next isOther =>
      have first : pool.tasksQueue = task :: rest := by
        rw [Pool.queue, if_neg isOther] at queue
        exact queue
      have locals := agreed.localTasks
      rw [first] at locals
      obtain ⟨isLocal, others⟩ := List.forall_mem_cons.mp locals
      refine ⟨others, agreed.staticTasks, ?_⟩
      apply List.forall_mem_cons.mpr ⟨?_, agreed.followed⟩
      rintro ⟨isStatic, _⟩
      rw [isLocal] at isStatic
      cases isStatic
  next => exact agreed

theorem step (agreed : SettingAgreed pool) {action : PoolAction}
    (meets : SettingSeen pool action) : SettingAgreed (pool.step action) := by
  cases action with
  | configure compress => exact ⟨agreed.localTasks, agreed.staticTasks, agreed.followed⟩
  | spawn =>
      refine ⟨agreed.localTasks, ?_, agreed.followed⟩
      rw [Pool.step, staticChain_append]
      exact agreed.staticTasks
  | startUp id => exact agreed.startUp meets
  | setCompressStaticResources compress =>
      exact ⟨agreed.localTasks, agreed.staticTasks, agreed.followed⟩
  | dispatch request type => exact ⟨agreed.localTasks, agreed.staticTasks, agreed.followed⟩
  | addTask => exact agreed.addTask meets
  | refuse => exact ⟨agreed.localTasks, agreed.staticTasks, agreed.followed⟩
  | execute id response => exact agreed.execute meets

theorem of_reachable {numberThreads : Nat}
    (reachable : Reachable (poolSystem numberThreads) SettingSeen pool) : SettingAgreed pool := by
  apply reachable.invariant
  · intro start isFresh
    rw [show start = freshPool from isFresh]
    exact initial
  · intro before action after agreed _ meets steps
    rw [← Except.ok.inj steps]
    exact agreed.step meets

end SettingAgreed

/-! ## The setting over whole runs -/

/-- A chain that follows the setting compresses exactly when the setting says so. -/
theorem takesEffect_of_followed {library : RangeLibrary} {deflate : Bytes → Bytes}
    {execution : Execution} (followed : Followed execution) :
    TakesEffect library deflate execution := by
  intro concerned notOwn
  obtain ⟨sameFlag, compressible⟩ := followed concerned
  refine ⟨?_, fun unset => sentPlain_of_unset concerned notOwn (sameFlag.trans unset)⟩
  rw [gzipCompressed_iff concerned notOwn, sameFlag]
  constructor
  · exact And.left
  · intro isSet
    obtain ⟨decided, ownOrFits⟩ := compressible isSet
    refine ⟨isSet, decided, ?_⟩
    apply ownOrFits.resolve_left
    intro own
    rw [Bool.and_eq_true] at own
    have supported : checkSupportGzipEncoding execution.task.request =
        .ok (supportsGzip execution.task.request) := checkHeader_of_decided decided
    exact notOwn ⟨own.1 ▸ supported, own.2⟩

/-- **The compression setting takes effect where the chain has seen it.** In every run of the
constructor, the worker threads, the setter and the loop whose steps meet the condition, every
static task that has been run was compressed, or sent plain, as the setting said when it was
dispatched. -/
theorem compress_setting_takes_effect (library : RangeLibrary) (deflate : Bytes → Bytes)
    (numberThreads : Nat) (pool : Pool)
    (reachable : Reachable (poolSystem numberThreads) SettingSeen pool) :
    ∀ execution ∈ pool.executions, TakesEffect library deflate execution := by
  intro execution member
  exact takesEffect_of_followed ((SettingAgreed.of_reachable reachable).followed execution member)

/-- A run that dispatches one static task and runs it, behind the start of the server. -/
def pageServed : List PoolAction :=
  [.dispatch (encodingRequest (ascii "gzip")) .staticResourcesTask, .addTask,
    .execute 0 tenBytes]

/-- The task of a concerned execution whose response does not ask for compression by itself had
the setting true. -/
def setFor (execution : Execution) : Bool :=
  decide (Concerned execution.task) && !execution.response.compress && execution.task.setting

theorem of_setFor {execution : Execution} (isSet : setFor execution = true) :
    Concerned execution.task ∧ ¬ OwnCompression execution ∧ execution.task.setting = true := by
  simp only [setFor, Bool.and_eq_true, decide_eq_true_eq, Bool.not_eq_true'] at isSet
  obtain ⟨⟨concerned, plain⟩, setting⟩ := isSet
  refine ⟨concerned, ?_, setting⟩
  rintro ⟨_, asks⟩
  rw [plain] at asks
  cases asks

/-- A setting of the configuration file is seen. -/
theorem configured_setting_compresses :
    ∃ pool, Reachable (poolSystem 2) SettingSeen pool ∧ ∃ execution ∈ pool.executions,
      execution.task.setting = true ∧
        GzipCompressed stableLibrary deflateHello execution := by
  obtain ⟨pool, reachable, passes⟩ := (poolSystem 2).exists_of_replay
    (show (poolSystem 2).initial freshPool from rfl)
    (fun pool => pool.executions.any setFor)
    (show ((poolSystem 2).replay SettingSeen freshPool
      ([.configure (some true), .spawn, .startUp 0, .spawn, .startUp 1] ++ pageServed)).any _ =
        true by decide +kernel)
  obtain ⟨execution, member, isSet⟩ := List.any_eq_true.mp passes
  obtain ⟨concerned, notOwn, setting⟩ := of_setFor isSet
  exact ⟨pool, reachable, execution, member, setting,
    (compress_setting_takes_effect stableLibrary deflateHello 2 pool reachable execution member
      concerned notOwn).1.mpr setting⟩

/-- A call of the setter behind the constructor, as the README has its calls, is not seen by a
worker that has started before it. -/
theorem later_setting_not_seen :
    ¬ ∀ (numberThreads : Nat) (pool : Pool),
      Reachable (poolSystem numberThreads) Unconditional pool →
        ∀ execution ∈ pool.executions, TakesEffect stableLibrary deflateHello execution := by
  intro always
  obtain ⟨pool, reachable, passes⟩ := (poolSystem 2).exists_of_replay
    (show (poolSystem 2).initial freshPool from rfl)
    (fun pool => pool.executions.any fun execution =>
      setFor execution && !execution.compressStaticResources)
    (show ((poolSystem 2).replay Unconditional freshPool
      ([.configure none, .spawn, .spawn, .startUp 0, .startUp 1,
        .setCompressStaticResources true] ++ pageServed)).any _ = true by decide +kernel)
  obtain ⟨execution, member, isSet⟩ := List.any_eq_true.mp passes
  obtain ⟨isSet, unseen⟩ := Bool.and_eq_true_iff.mp isSet
  obtain ⟨concerned, notOwn, setting⟩ := of_setFor isSet
  have effect := (always 2 pool reachable execution member concerned notOwn).1
  rw [Bool.not_eq_true'] at unseen
  rw [gzipCompressed_iff concerned notOwn, unseen] at effect
  cases (effect.mpr setting).1

end Onyxup.Server
