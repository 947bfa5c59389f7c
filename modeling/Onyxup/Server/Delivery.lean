import Onyxup.Server.Step

/-!
Contract: responses reach the connection that asked for them.

Owns: the invariant of the whole server over every run, and the theorem that a
delivered response finds the cycle its task was dispatched from.

Does not own: any condition on the environment. The invariant holds for every
interleaving and every outcome of the system calls; a step that faults ends the
run.

The guard of the code is the equality of two time stamps. It works because a
stamp is used by at most one dispatch: the connection must read to dispatch, and
it reads again only under a new stamp.
-/

set_option autoImplicit false

namespace Onyxup.Server

open Onyxup.Lib.CString
open Onyxup.Lib.Transition
open Onyxup.Http
open Onyxup.Response

/-- What `deliver` compares: descriptor and time point. -/
def Tag.key (tag : Tag) : Nat × Nat :=
  (tag.fd, tag.timePoint)

/-! ## Time stamps and tags -/

/-- The stamps of the slots and the tags of the tasks in flight and delivered. -/
structure Linked (slots : Nat → Slot) (clock : Nat) (tags done : List Tag) : Prop where
  alive : ∀ fd, (slots fd).aliveSocket < clock
  times : ∀ tag ∈ tags ++ done, tag.timePoint < clock
  outstanding : ∀ tag ∈ tags, tag.timePoint = (slots tag.fd).aliveSocket →
    (slots tag.fd).interest = some .idle ∧ (slots tag.fd).cycle.number = tag.cycle
  unused : ∀ fd, (slots fd).interest = some .read →
    ∀ tag ∈ tags ++ done, tag.fd = fd → tag.timePoint ≠ (slots fd).aliveSocket
  unique : ((tags ++ done).map Tag.key).Nodup

namespace Linked

variable {slots : Nat → Slot} {clock later : Nat} {tags done fewer finished : List Tag}
variable {fd : Nat} {slot : Slot}

/-- Time passes, tasks disappear or are delivered. -/
theorem shrink (linked : Linked slots clock tags done) (passes : clock ≤ later)
    (flying : fewer ⊆ tags) (all : (fewer ++ finished).Subperm (tags ++ done)) :
    Linked slots later fewer finished where
  alive := fun fd => Nat.lt_of_lt_of_le (linked.alive fd) passes
  times := fun tag member => Nat.lt_of_lt_of_le (linked.times tag (all.subset member)) passes
  outstanding := fun tag member => linked.outstanding tag (flying member)
  unused := fun fd reading tag member => linked.unused fd reading tag (all.subset member)
  unique := by
    obtain ⟨kept, isPerm, isSublist⟩ := all
    exact ((isPerm.map Tag.key).nodup_iff).mp ((isSublist.map Tag.key).nodup linked.unique)

/-- Tasks disappear without being delivered. -/
theorem drop (linked : Linked slots clock tags done) (flying : fewer.Subperm tags) :
    Linked slots clock fewer done :=
  linked.shrink (Nat.le_refl _) flying.subset ((List.subperm_append_right _).mpr flying)

/-- A slot gets a new stamp. -/
theorem restamp (linked : Linked slots clock tags done) (stamp : slot.aliveSocket = clock) :
    Linked (Function.update slots fd slot) (clock + 1) tags done where
  alive := by
    intro other
    by_cases same : other = fd
    · rw [same, Function.update_self, stamp]
      exact Nat.lt_succ_self _
    · rw [Function.update_of_ne same]
      exact Nat.lt_succ_of_lt (linked.alive other)
  times := fun tag member => Nat.lt_succ_of_lt (linked.times tag member)
  outstanding := by
    intro tag member current
    by_cases same : tag.fd = fd
    · rw [same, Function.update_self, stamp] at current
      have earlier := linked.times tag (List.mem_append_left _ member)
      omega
    · rw [Function.update_of_ne same] at current ⊢
      exact linked.outstanding tag member current
  unused := by
    intro other reading tag member owner
    by_cases same : other = fd
    · rw [same, Function.update_self, stamp]
      exact Nat.ne_of_lt (linked.times tag member)
    · rw [Function.update_of_ne same] at reading ⊢
      exact linked.unused other reading tag member owner
  unique := linked.unique

/-- A slot without an outstanding task changes and keeps its stamp. -/
theorem change (linked : Linked slots clock tags done)
    (stamp : slot.aliveSocket = (slots fd).aliveSocket)
    (clear : ∀ tag ∈ tags, tag.fd = fd → tag.timePoint ≠ (slots fd).aliveSocket)
    (reads : slot.interest = some .read → (slots fd).interest = some .read) :
    Linked (Function.update slots fd slot) clock tags done where
  alive := by
    intro other
    by_cases same : other = fd
    · rw [same, Function.update_self, stamp]
      exact linked.alive fd
    · rw [Function.update_of_ne same]
      exact linked.alive other
  times := linked.times
  outstanding := by
    intro tag member current
    by_cases same : tag.fd = fd
    · rw [same, Function.update_self, stamp] at current
      exact absurd current (clear tag member same)
    · rw [Function.update_of_ne same] at current ⊢
      exact linked.outstanding tag member current
  unused := by
    intro other reading tag member owner
    by_cases same : other = fd
    · rw [same, Function.update_self] at reading
      rw [same, Function.update_self, stamp]
      exact linked.unused fd (reads reading) tag member (owner.trans same)
    · rw [Function.update_of_ne same] at reading ⊢
      exact linked.unused other reading tag member owner
  unique := linked.unique

/-- Only an idle slot has an outstanding task. -/
theorem clear_of_busy (linked : Linked slots clock tags done)
    (busy : (slots fd).interest ≠ some .idle) :
    ∀ tag ∈ tags, tag.fd = fd → tag.timePoint ≠ (slots fd).aliveSocket := by
  intro tag member owner current
  have idle := (linked.outstanding tag member (by rw [owner]; exact current)).1
  rw [owner] at idle
  exact busy idle

/-- A move of one slot. -/
theorem move {config : Config} {mayExpire mayRefuse : Slot → Bool} {number : Nat}
    (linked : Linked slots clock tags done)
    (moves : Move config fd mayExpire mayRefuse clock number (slots fd) slot)
    (time : clock ≤ later ∧ (slot.aliveSocket = (slots fd).aliveSocket ∨ clock < later)) :
    Linked (Function.update slots fd slot) later tags done := by
  have restamped : slot.aliveSocket = clock →
      Linked (Function.update slots fd slot) later tags done := by
    intro stamp
    have before := linked.alive fd
    have passes : clock + 1 ≤ later := by
      rcases time.2 with same | advances
      · omega
      · exact advances
    exact (linked.restamp stamp).shrink passes (List.Subset.refl _) (.refl _)
  have changed : slot.aliveSocket = (slots fd).aliveSocket →
      (slots fd).interest ≠ some .idle →
      (slot.interest = some .read → (slots fd).interest = some .read) →
      Linked (Function.update slots fd slot) later tags done := by
    intro stamp busy reads
    exact (linked.change stamp (linked.clear_of_busy busy) reads).shrink time.1
      (List.Subset.refl _) (.refl _)
  cases moves with
  | opened => exact restamped rfl
  | closed => exact restamped rfl
  | turnedAway => exact restamped rfl
  | waited read =>
      have reading := read.frame.1
      exact changed read.frame.2.1 (by rw [reading]; simp) (fun _ => reading)
  | refused reading _ _ page =>
      exact changed page.frame.2.1 (by rw [reading]; simp) (fun _ => reading)
  | expired => exact restamped rfl
  | sent writing =>
      exact changed rfl (by rw [writing]; simp) (fun reads => reads)
  | reset => exact restamped rfl

/-- A reading slot dispatches a task under its stamp. -/
theorem dispatch (linked : Linked slots clock tags done)
    (reading : (slots fd).interest = some .read) (slot : Slot)
    (stamp : slot.aliveSocket = (slots fd).aliveSocket) :
    Linked (Function.update slots fd { slot with interest := some .idle }) clock
      (⟨fd, slot.aliveSocket, slot.cycle.number⟩ :: tags) done := by
  have busy : (slots fd).interest ≠ some .idle := by
    rw [reading]
    simp
  have clear := linked.clear_of_busy busy
  have changed := linked.change
    (show { slot with interest := some .idle }.aliveSocket = _ from stamp) clear
    (fun _ => reading)
  refine ⟨changed.alive, ?_, ?_, ?_, ?_⟩
  · intro tag member
    rcases List.mem_cons.mp member with rfl | old
    · rw [stamp]
      exact linked.alive fd
    · exact linked.times tag old
  · intro tag member current
    rcases List.mem_cons.mp member with rfl | old
    · rw [Function.update_self]
      exact ⟨rfl, rfl⟩
    · exact changed.outstanding tag old current
  · intro other reads tag member owner
    rcases List.mem_cons.mp member with rfl | old
    · rw [← owner, Function.update_self] at reads
      cases reads
    · exact changed.unused other reads tag old owner
  · rw [List.cons_append, List.map_cons, List.nodup_cons]
    refine ⟨?_, linked.unique⟩
    intro again
    obtain ⟨tag, member, sameKey⟩ := List.mem_map.mp again
    simp only [Tag.key, Prod.mk.injEq] at sameKey
    exact linked.unused fd reading tag member sameKey.1 (sameKey.2.trans stamp)

/-- A task that leaves the tasks in flight was the only one with its key. -/
theorem clear_of_removed {tag : Tag} (linked : Linked slots clock tags done)
    (removed : (tag :: fewer).Subperm tags) :
    ∀ other ∈ fewer, other.fd = tag.fd → other.timePoint ≠ tag.timePoint := by
  intro other member sameFd sameTime
  have whole : (tag :: fewer).Subperm (tags ++ done) :=
    removed.trans (List.sublist_append_left _ _).subperm
  obtain ⟨kept, isPerm, isSublist⟩ := whole
  have distinct : ((tag :: fewer).map Tag.key).Nodup :=
    ((isPerm.map Tag.key).nodup_iff).mp ((isSublist.map Tag.key).nodup linked.unique)
  rw [List.map_cons, List.nodup_cons] at distinct
  refine distinct.1 (List.mem_map.mpr ⟨other, member, ?_⟩)
  simp only [Tag.key, sameFd, sameTime]

end Linked

/-! ## Tasks and their responses -/

/-- Queues hold the tasks meant for them, and what has been performed has a
response. -/
structure Fit (state : State) : Prop where
  localKind : ∀ task ∈ state.tasksQueue, task.type = .localTask
  staticKind : ∀ task ∈ state.staticTasksQueue, task.type = .staticResourcesTask
  running : ∀ task, some task ∈ state.workers → task.type ≠ .jsonRpcTask
  performed : ∀ task ∈ state.performedTasksQueue, task.responseData ≠ []
  delivering : ∀ task ∈ state.phase.hands.2, task.responseData ≠ []

namespace Fit

variable {config : Config} {state after : State}

/-- Tasks stay where they are. -/
theorem of_records (fit : Fit state) (tasks : after.tasksQueue = state.tasksQueue)
    (static : after.staticTasksQueue = state.staticTasksQueue)
    (performed : after.performedTasksQueue = state.performedTasksQueue)
    (workers : after.workers = state.workers)
    (hands : after.phase.hands.2 = [] ∨ after.phase.hands = state.phase.hands) : Fit after where
  localKind := tasks ▸ fit.localKind
  staticKind := static ▸ fit.staticKind
  running := workers ▸ fit.running
  performed := performed ▸ fit.performed
  delivering := by
    intro task member
    rcases hands with empty | same
    · rw [empty] at member
      cases member
    · rw [same] at member
      exact fit.delivering task member

private theorem performTask_nonempty {response : ResponseBase} {datetime : Bytes}
    {entries : List (Bytes × Bytes)} {task : Task} (runs : task.type ≠ .jsonRpcTask) :
    (State.performTask config response datetime entries task).responseData ≠ [] := by
  unfold State.performTask
  split
  next third => exact absurd third runs
  next => exact ResponseBase.prepareResponse_ne_nil _ _ _ _

private theorem running_set {workers : List (Option Task)} {worker : Nat} {hand : Option Task}
    (running : ∀ task, some task ∈ workers → task.type ≠ .jsonRpcTask)
    (runs : ∀ task, hand = some task → task.type ≠ .jsonRpcTask) :
    ∀ task, some task ∈ workers.set worker hand → task.type ≠ .jsonRpcTask := by
  intro task member
  rcases List.mem_or_eq_of_mem_set member with old | new
  · exact running task old
  · exact runs task new.symm

/-- The moves of the queues. -/
theorem of_queueMove (fit : Fit state) (move : QueueMove config state after) : Fit after := by
  cases move with
  | popped was phase records =>
      simp only [State.records, Prod.mk.injEq] at records
      obtain ⟨tasks, static, performed, workers, _⟩ := records
      have all := fit.performed
      rw [was] at all
      refine ⟨tasks ▸ fit.localKind, static ▸ fit.staticKind, workers ▸ fit.running, ?_, ?_⟩
      · rw [performed]
        exact fun task member => all task (List.mem_cons_of_mem _ member)
      · rw [phase]
        intro task member
        exact all task (by simp only [Phase.hands, List.mem_singleton] at member; simp [member])
  | pushedLocal kind was phase records =>
      simp only [State.records, Prod.mk.injEq] at records
      obtain ⟨tasks, static, performed, workers, _⟩ := records
      refine ⟨?_, static ▸ fit.staticKind, workers ▸ fit.running, performed ▸ fit.performed, ?_⟩
      · rw [tasks]
        exact List.forall_mem_append.mpr ⟨fit.localKind, List.forall_mem_singleton.mpr kind⟩
      · rw [phase]
        intro task member
        cases member
  | pushedStatic kind was phase records =>
      simp only [State.records, Prod.mk.injEq] at records
      obtain ⟨tasks, static, performed, workers, _⟩ := records
      refine ⟨tasks ▸ fit.localKind, ?_, workers ▸ fit.running, performed ▸ fit.performed, ?_⟩
      · rw [static]
        exact List.forall_mem_append.mpr ⟨fit.staticKind, List.forall_mem_singleton.mpr kind⟩
      · rw [phase]
        intro task member
        cases member
  | takenLocal worker idle was phase records =>
      simp only [State.records, Prod.mk.injEq] at records
      obtain ⟨tasks, static, performed, workers, _⟩ := records
      have all := fit.localKind
      rw [was] at all
      refine ⟨?_, static ▸ fit.staticKind, ?_, performed ▸ fit.performed,
        phase ▸ fit.delivering⟩
      · rw [tasks]
        exact fun task member => all task (List.mem_cons_of_mem _ member)
      · rw [workers]
        apply running_set fit.running
        rintro task ⟨⟩
        rw [all _ List.mem_cons_self]
        simp
  | takenStatic idle was phase records =>
      simp only [State.records, Prod.mk.injEq] at records
      obtain ⟨tasks, static, performed, workers, _⟩ := records
      have all := fit.staticKind
      rw [was] at all
      refine ⟨tasks ▸ fit.localKind, ?_, ?_, performed ▸ fit.performed,
        phase ▸ fit.delivering⟩
      · rw [static]
        exact fun task member => all task (List.mem_cons_of_mem _ member)
      · rw [workers]
        apply running_set fit.running
        rintro task ⟨⟩
        rw [all _ List.mem_cons_self]
        simp
  | finished busy phase records =>
      simp only [State.records, Prod.mk.injEq] at records
      obtain ⟨tasks, static, performed, workers, _⟩ := records
      refine ⟨tasks ▸ fit.localKind, static ▸ fit.staticKind, ?_, ?_, phase ▸ fit.delivering⟩
      · rw [workers]
        apply running_set fit.running
        rintro task ⟨⟩
      · have runs := fit.running _ (List.mem_of_getElem? busy)
        rw [performed]
        exact List.forall_mem_append.mpr
          ⟨fit.performed, List.forall_mem_singleton.mpr (performTask_nonempty runs)⟩

end Fit

/-! ## The invariant of the server -/

structure Invariant (config : Config) (state : State) : Prop where
  sound : ∀ fd, Sound config fd (state.slots fd)
  linked : Linked state.slots state.clock state.tags state.deliveredTags
  held : ∀ task ∈ state.phase.hands.1,
    task.timePoint = (state.slots task.fd).aliveSocket
  fit : Fit state

namespace Invariant

variable {config : Config} {state after : State} {mayExpire mayRefuse : Slot → Bool}

theorem owned (invariant : Invariant config state) : Owned state := by
  intro fd request asked
  obtain ⟨_, _, _, _, open_⟩ := (invariant.sound fd).of_request asked
  exact open_.owner

theorem stocked (invariant : Invariant config state) : Stocked state := by
  intro task delivering
  exact invariant.fit.delivering task (by rw [delivering]; simp [Phase.hands])

private theorem tag_mem_of_hands {task : Task}
    (member : task ∈ state.phase.hands.1 ∨ task ∈ state.phase.hands.2) :
    task.tag ∈ state.tags := by
  apply List.mem_map_of_mem
  unfold State.inFlight
  apply List.mem_append_left
  revert member
  cases state.phase <;> simp [Phase.hands, Phase.held]

/-- The slot of a task that the loop has just dispatched is idle. -/
theorem idle_of_pending {task : Task} (invariant : Invariant config state)
    (held : state.phase.hands = ([task], [])) :
    (state.slots task.fd).interest = some .idle := by
  have member : task ∈ state.phase.hands.1 := by
    rw [held]
    exact List.mem_singleton_self _
  exact (invariant.linked.outstanding task.tag (tag_mem_of_hands (.inl member))
    (invariant.held task member)).1

/-- The slot of a task that is delivered in time is idle. -/
theorem idle_of_delivering {task : Task} (invariant : Invariant config state)
    (held : state.phase.hands = ([], [task]))
    (current : task.timePoint = (state.slots task.fd).aliveSocket) :
    (state.slots task.fd).interest = some .idle := by
  have member : task ∈ state.phase.hands.2 := by
    rw [held]
    exact List.mem_singleton_self _
  exact (invariant.linked.outstanding task.tag (tag_mem_of_hands (.inr member)) current).1

private theorem sound_update {fd : Nat} {slot : Slot} (invariant : Invariant config state)
    (sound : Sound config fd slot) :
    ∀ other, Sound config other (Function.update state.slots fd slot other) := by
  rw [Function.forall_update_iff state.slots (Sound config)]
  exact ⟨sound, fun other _ => invariant.sound other⟩

private theorem no_hands {slots : Nat → Slot} (hands : after.phase.hands = ([], [])) :
    ∀ task ∈ after.phase.hands.1, task.timePoint = (slots task.fd).aliveSocket := by
  intro task member
  rw [hands] at member
  cases member

private theorem deliveredTags_of_records (records : after.records = state.records) :
    after.deliveredTags = state.deliveredTags := by
  have same : after.delivered = state.delivered := congrArg (fun kept => kept.2.2.2.2) records
  rw [State.deliveredTags, same]
  rfl

private theorem fit_of_records (invariant : Invariant config state)
    (records : after.records = state.records)
    (hands : after.phase.hands.2 = [] ∨ after.phase.hands = state.phase.hands) : Fit after := by
  simp only [State.records, Prod.mk.injEq] at records
  obtain ⟨tasks, static, performed, workers, _⟩ := records
  exact invariant.fit.of_records tasks static performed workers hands

private theorem shrink_tags (invariant : Invariant config state)
    (records : after.records = state.records) (passes : state.clock ≤ after.clock)
    (tags : after.tags.Subperm state.tags) :
    Linked state.slots after.clock after.tags after.deliveredTags := by
  rw [deliveredTags_of_records records]
  exact (invariant.linked.drop tags).shrink passes (List.Subset.refl _) (.refl _)

private theorem answer {task : Task} {answered : Slot} (invariant : Invariant config state)
    (member : task.tag ∈ state.tags)
    (current : task.timePoint = (state.slots task.fd).aliveSocket)
    (page : Answered config (state.slots task.fd) (state.slots task.fd).request answered)
    (tags : (task.tag :: after.tags).Subperm state.tags)
    (finished : List Tag)
    (all : (after.tags ++ finished).Subperm (state.tags ++ state.deliveredTags)) :
    (∀ fd, Sound config fd (Function.update state.slots task.fd answered fd)) ∧
      Linked (Function.update state.slots task.fd answered) state.clock after.tags finished := by
  have idle := (invariant.linked.outstanding task.tag member current).1
  have fewer : after.tags.Subperm state.tags := (List.sublist_cons_self _ _).subperm.trans tags
  have linked := invariant.linked.shrink (Nat.le_refl _) fewer.subset all
  have clear : ∀ tag ∈ after.tags, tag.fd = task.fd →
      tag.timePoint ≠ (state.slots task.fd).aliveSocket := by
    intro tag inFlight owner same
    exact invariant.linked.clear_of_removed tags tag inFlight owner (same.trans current.symm)
  have sound := page.sound_of_idle (invariant.sound task.fd) idle
  refine ⟨invariant.sound_update sound, linked.change page.frame.2.1 clear ?_⟩
  intro impossible
  rw [page.frame.1] at impossible
  cases impossible

/-- One step keeps the invariant. -/
theorem preserved (invariant : Invariant config state)
    (effect : Effect config mayExpire mayRefuse state after) : Invariant config after := by
  cases effect with
  | quiet slots clock tags records hands =>
      refine ⟨slots ▸ invariant.sound, slots ▸ invariant.shrink_tags records clock tags, ?_,
        invariant.fit_of_records records (hands.imp_left fun none_ => by rw [none_])⟩
      rcases hands with free | same
      · exact no_hands free
      · rw [slots, same]
        exact invariant.held
  | queued slots clock tags queues =>
      have records : after.deliveredTags = state.deliveredTags := by
        cases queues with
        | popped _ _ records | pushedLocal _ _ _ records | pushedStatic _ _ _ records
        | takenLocal _ _ _ _ records | takenStatic _ _ _ records | finished _ _ records =>
            rw [State.deliveredTags, State.deliveredTags,
              show after.delivered = state.delivered from
                congrArg (fun kept => kept.2.2.2.2) records]
      refine ⟨slots ▸ invariant.sound, ?_, ?_, invariant.fit.of_queueMove queues⟩
      · rw [slots, clock, records]
        exact invariant.linked.drop tags
      · rw [slots]
        cases queues with
        | popped _ phase _ | pushedLocal _ _ phase _ | pushedStatic _ _ phase _ =>
            rw [phase]
            intro task member
            cases member
        | takenLocal _ _ _ phase _ | takenStatic _ _ phase _ | finished _ phase _ =>
            rw [phase]
            exact invariant.held
  | moved move slots clock tags records hands =>
      refine ⟨?_, ?_, no_hands hands, invariant.fit_of_records records (.inl (by rw [hands]))⟩
      · rw [slots]
        exact invariant.sound_update (move.sound (invariant.sound _))
      · rw [slots, deliveredTags_of_records records]
        exact (invariant.linked.move move clock).drop tags
  | dispatched read slots clock tag tags records hands =>
      have sound := read.sound_of_dispatch (invariant.sound _)
      refine ⟨?_, ?_, ?_, invariant.fit_of_records records (.inl (by rw [hands]))⟩
      · rw [slots]
        exact invariant.sound_update sound
      · rw [slots, clock, deliveredTags_of_records records]
        rw [tag] at tags
        exact (invariant.linked.dispatch read.frame.1 _ read.frame.2.1).drop tags
      · rw [hands, slots]
        intro task member
        rw [List.mem_singleton.mp member]
        have owner := congrArg Tag.fd tag
        have stamp := congrArg Tag.timePoint tag
        simp only [Task.tag] at owner stamp
        rw [owner, Function.update_self, stamp]
  | notFound read page slots clock tags records hands =>
      have sound := page.sound_of_idle (read.sound_of_dispatch (invariant.sound _)) rfl
      have reading := read.frame.1
      refine ⟨?_, ?_, no_hands hands, invariant.fit_of_records records (.inl (by rw [hands]))⟩
      · rw [slots]
        exact invariant.sound_update sound
      · rw [slots, clock, deliveredTags_of_records records]
        have clear := invariant.linked.clear_of_busy (by rw [reading]; simp)
        exact (invariant.linked.change (page.frame.2.1.trans read.frame.2.1) clear
          (fun _ => reading)).drop tags
  | @turnedDown task answered held page slots clock tags records hands =>
      have inHands : task ∈ state.phase.hands.1 := by
        rw [held]
        exact List.mem_singleton_self _
      obtain ⟨sound, linked⟩ := invariant.answer (tag_mem_of_hands (.inl inHands))
        (invariant.held _ inHands) page tags state.deliveredTags
        ((List.subperm_append_right _).mpr ((List.sublist_cons_self _ _).subperm.trans tags))
      refine ⟨slots ▸ sound, ?_, no_hands hands,
        invariant.fit_of_records records (.inl (by rw [hands]))⟩
      rw [slots, clock, deliveredTags_of_records records]
      exact linked
  | @delivered task answered held current outcome slots clock tags records hands =>
      have inHands : task ∈ state.phase.hands.2 := by
        rw [held]
        exact List.mem_singleton_self _
      have fields := records
      simp only [State.records, Prod.mk.injEq] at fields
      obtain ⟨tasks, static, performed, workers, done⟩ := fields
      have doneTags : after.deliveredTags = task.tag :: state.deliveredTags := by
        rw [State.deliveredTags, done]
        rfl
      have all : (after.tags ++ task.tag :: state.deliveredTags).Subperm
          (state.tags ++ state.deliveredTags) :=
        (List.perm_middle.subperm).trans ((List.subperm_append_right _).mpr tags)
      have fit : Fit after := invariant.fit.of_records tasks static performed workers
        (.inl (by rw [hands]))
      have passes : ∀ {clock}, Linked (Function.update state.slots task.fd answered) clock
          after.tags (task.tag :: state.deliveredTags) → clock ≤ after.clock →
          Linked after.slots after.clock after.tags after.deliveredTags := by
        intro clock linked later
        rw [slots, doneTags]
        exact linked.shrink later (List.Subset.refl _) (.refl _)
      rcases outcome with page | closed
      · obtain ⟨sound, linked⟩ := invariant.answer (tag_mem_of_hands (.inr inHands)) current
          page tags _ all
        exact ⟨slots ▸ sound, passes linked clock.1, no_hands hands, fit⟩
      · have before := invariant.linked.alive task.fd
        have advances : state.clock + 1 ≤ after.clock := by
          rw [closed] at clock
          rcases clock.2 with same | advances
          · simp only at same
            omega
          · exact advances
        have fewer := invariant.linked.shrink (Nat.le_refl _)
          (((List.sublist_cons_self _ _).subperm.trans tags).subset) all
        refine ⟨?_, passes (fewer.restamp (by rw [closed])) advances, no_hands hands, fit⟩
        rw [slots, closed]
        exact invariant.sound_update (.free rfl rfl rfl rfl)

/-- The server after its constructor. -/
theorem initially (initial : Initial config state) : Invariant config state := by
  obtain ⟨tasks, static, performed⟩ := initial.queues
  have nothing : state.workers.filterMap id = [] := by
    rw [initial.workers]
    simp
  have noTags : state.tags = [] := by
    simp only [State.tags, State.inFlight, initial.phase, Phase.held, tasks, static, performed,
      nothing, List.append_nil, List.map_nil]
  have noneDelivered : state.deliveredTags = [] := by
    rw [State.deliveredTags, initial.history.2.2]
    rfl
  refine ⟨?_, ⟨initial.read, ?_, ?_, ?_, ?_⟩, ?_, ⟨?_, ?_, ?_, ?_, ?_⟩⟩
  · intro fd
    obtain ⟨noBuffer, noRequest, noInterest⟩ := initial.free fd
    exact .free noInterest noBuffer noRequest (initial.cycles fd)
  · simp [noTags, noneDelivered]
  · simp [noTags]
  · simp [noTags, noneDelivered]
  · simp [noTags, noneDelivered]
  · simp [initial.phase, Phase.hands]
  · simp [tasks]
  · simp [static]
  · simp [initial.workers]
  · simp [performed]
  · simp [initial.phase, Phase.hands]

/-- Every state of every run, and what one more step can do there. -/
theorem of_reachable {condition : State → Action → Prop}
    (reachable : Reachable (server config) condition state) : Invariant config state := by
  apply reachable.invariant (fun _ => initially)
  intro before action next invariant allowed _ steps
  have permits := Permits.of_all config before action
  exact invariant.preserved
    (step_effect invariant.owned invariant.stocked allowed permits steps)

end Invariant

/-- **No response reaches the wrong connection.** In every state of every run:
when the loop is about to copy the response of a performed task, the descriptor
is open and in the cycle the task was dispatched from, nothing unsent is in its
output buffer, and no task with this descriptor and time point was delivered
before. Over the whole run no two deliveries have the same key. -/
theorem delivered_to_its_own_cycle (config : Config) (state : State)
    (reachable : Reachable (server config) Unconditional state) :
    (∀ task, state.phase = .delivering task →
      task.timePoint = (state.slots task.fd).aliveSocket →
        ∃ buffer request, (state.slots task.fd).buffer = some buffer ∧
          (state.slots task.fd).request = some request ∧
          (state.slots task.fd).interest = some .idle ∧
          (state.slots task.fd).cycle.number = task.cycle ∧
          buffer.numberBytesToSend = 0 ∧
          ∀ other ∈ state.delivered, other.fd = task.fd → other.timePoint ≠ task.timePoint) ∧
      (state.delivered.map fun task => (task.fd, task.timePoint)).Nodup := by
  have invariant := Invariant.of_reachable reachable
  have unique := invariant.linked.unique
  rw [List.map_append, List.nodup_append] at unique
  obtain ⟨_, deliveredOnce, apart⟩ := unique
  constructor
  · intro task delivering current
    have member : task.tag ∈ state.tags := by
      simp [State.tags, State.inFlight, delivering, Phase.held]
    obtain ⟨idle, sameCycle⟩ := invariant.linked.outstanding task.tag member current
    obtain ⟨buffer, request, has, asked, open_⟩ :=
      (invariant.sound task.fd).of_interest idle
    refine ⟨buffer, request, has, asked, idle, sameCycle, (open_.waiting rfl).1, ?_⟩
    intro other done sameFd sameTime
    refine apart _ (List.mem_map_of_mem member) _
      (List.mem_map_of_mem (List.mem_map_of_mem done)) ?_
    simp only [Tag.key, Task.tag, sameFd, sameTime]
  · rw [State.deliveredTags, List.map_map] at deliveredOnce
    exact deliveredOnce

/-! ## A small server -/

/-- Two descriptors, short buffers and one route that takes every `GET`. -/
def smallConfig : Config where
  maxConnection := 2
  maxInputBufferLength := 64
  maxOutputBufferLength := 1024
  timeLimitRequestSeconds := 60
  limitLocalTasks := 100
  numberThreads := 2
  routes := [⟨ascii "GET", fun _ => true, 0, .localTask⟩]
  isStatisticsEnable := false
  listenFd := 9
  identity := ⟨ascii "0.0.0.0", 80⟩
  body404 := []

def smallState : State where
  slots := fun _ => ⟨none, none, 0, none, ⟨0, [], 0⟩⟩
  clock := 1
  now := 0
  counterCheckLimitTimeRequest := 0
  phase := .events
  tasksQueue := []
  staticTasksQueue := []
  performedTasksQueue := []
  workers := [none, none]
  totalNumberConnectionsAccepted := 0
  totalNumberConnectionsProcessed := 0
  totalNumberClientRequests := 0
  tasksCreated := 0
  cyclesStarted := 0
  delivered := []

theorem smallState_initial : (server smallConfig).initial smallState where
  free := fun _ => ⟨rfl, rfl, rfl⟩
  read := fun _ => Nat.zero_lt_one
  phase := rfl
  counter := rfl
  queues := ⟨rfl, rfl, rfl⟩
  workers := rfl
  totals := ⟨rfl, rfl, rfl⟩
  history := ⟨rfl, rfl, rfl⟩
  cycles := fun _ => rfl

/-- The same start under other settings. -/
theorem smallState_initial_of {config : Config} (threads : config.numberThreads = 2) :
    (server config).initial smallState :=
  { smallState_initial with workers := by rw [threads]; rfl }

/-- A client connects as descriptor 1; its buffers are made of zeros. -/
def clientConnects : Action :=
  .accept ⟨1, true, true, List.replicate 64 0, List.replicate 1024 0, true, true⟩

/-- The client's bytes arrive, and every call succeeds. -/
def clientSends (bytes : Bytes) : Action :=
  .receive 1 (.data bytes) true true ⟨[], true⟩

def simpleGet : Bytes :=
  ascii "GET / HTTP/1.1\r\n\r\n"

/-- One request through a worker, up to the moment of its delivery. -/
def servedOnce : List Action :=
  [clientConnects, clientSends simpleGet, .chooseQueue ⟨[], true⟩, .addTask, .workerTake 1,
    .workerFinish 1 (.make 200 (ascii "OK") [] []) [] [], .beginIteration,
    .checkTimeLimit ⟨[], true⟩, .checkTimeLimit ⟨[], true⟩, .checkTimeLimit ⟨[], true⟩,
    .popPerformed]

/-- A test on the task that the loop is about to deliver. -/
def State.deliveringTest (state : State) (test : Task → Bool) : Bool :=
  match state.phase with
  | .delivering task => test task
  | _ => false

theorem State.deliveringTest_true {state : State} {test : Task → Bool}
    (passes : state.deliveringTest test = true) :
    ∃ task, state.phase = .delivering task ∧ test task = true := by
  unfold State.deliveringTest at passes
  split at passes
  next task delivering => exact ⟨task, delivering, passes⟩
  next => cases passes

/-- A test on the connection of a descriptor. -/
def State.connectionTest (state : State) (fd : Nat) (test : Connection → Bool) : Bool :=
  match (state.slots fd).buffer, (state.slots fd).request with
  | some buffer, some request => test ⟨buffer, request⟩
  | _, _ => false

theorem State.connectionTest_true {state : State} {fd : Nat} {test : Connection → Bool}
    (passes : state.connectionTest fd test = true) :
    ∃ buffer request, (state.slots fd).buffer = some buffer ∧
      (state.slots fd).request = some request ∧ test ⟨buffer, request⟩ = true := by
  unfold State.connectionTest at passes
  split at passes
  next buffer request has asked => exact ⟨buffer, request, has, asked, passes⟩
  next => cases passes

/-- The response of the first request finds its connection. -/
theorem first_response_finds_its_cycle :
    ∃ (state : State) (task : Task) (buffer : Buffer),
      state.phase = .delivering task ∧ task.fd = 1 ∧
      task.timePoint = (state.slots task.fd).aliveSocket ∧
      (state.slots task.fd).buffer = some buffer ∧ buffer.numberBytesToSend = 0 ∧
      (state.slots task.fd).cycle.number = task.cycle := by
  obtain ⟨state, reachable, passes⟩ := (server smallConfig).exists_of_replay
    smallState_initial
    (fun state => state.deliveringTest fun task => decide (task.fd = 1) &&
      decide (task.timePoint = (state.slots task.fd).aliveSocket))
    (show ((server smallConfig).replay Unconditional smallState servedOnce).any _ = true by
      decide +kernel)
  obtain ⟨task, delivering, passes⟩ := State.deliveringTest_true passes
  simp only [Bool.and_eq_true, decide_eq_true_eq] at passes
  obtain ⟨buffer, _, has, _, _, sameCycle, drained, _⟩ :=
    (delivered_to_its_own_cycle smallConfig state reachable).1 task delivering passes.2
  exact ⟨state, task, buffer, delivering, passes.1, passes.2, has, drained, sameCycle⟩

end Onyxup.Server
