import Onyxup.Lib.Simulation
import Onyxup.Server.Ledger
import Onyxup.Server.Pipelining

/-!
Contract: where a response comes from.

Owns: the milestones of a task in a run, and the theorem that every response that is
delivered was made by a worker for the task of the request that its connection had shown
to the dispatcher.

Does not own: how often a task is run, and what becomes of the response behind its output
buffer.
-/

set_option autoImplicit false

namespace Onyxup.Server

open Onyxup.Lib.CString
open Onyxup.Lib.Transition
open Onyxup.Http
open Onyxup.Response

/-- What a run shows of a task: the dispatcher makes it for what a connection has received
in its present cycle, the handler and the chain leave a response for it, and a text is
written to a connection in the cycle that it is in then. -/
inductive Milestone where
  | dispatched (fd cycle : Nat) (seen : Content) (task : Task)
  | finished (task : Task) (response : ResponseBase) (datetime : Bytes)
      (entries : List (Bytes × Bytes))
  | delivered (fd cycle : Nat) (text : Bytes)

/-- The handler of the task has not returned. -/
def State.Before (state : State) (task : Task) : Prop :=
  task ∈ state.phase.hands.1 ∨ task ∈ state.tasksQueue ∨ task ∈ state.staticTasksQueue ∨
    some task ∈ state.workers

/-- The task has its response. -/
def State.Behind (state : State) (task : Task) : Prop :=
  task ∈ state.performedTasksQueue ∨ task ∈ state.phase.hands.2

section Places

variable {config : Config} {state after : State}

/-- A step that leaves the queues and the workers alone and takes no task in hand. -/
theorem places_of_custody {phase : Phase}
    (custody : after.custody = state.custodyIn phase)
    (pending : ∀ task ∈ phase.hands.1, state.Before task)
    (ready : ∀ task ∈ phase.hands.2, state.Behind task) (task : Task) :
    (after.Before task → state.Before task) ∧ (after.Behind task → state.Behind task) := by
  simp only [State.custody, State.custodyIn, Prod.mk.injEq] at custody
  obtain ⟨place, tasks, static, performed, workers, _⟩ := custody
  constructor
  · rintro (inHands | inTasks | inStatic | atWork)
    · exact pending task (place ▸ inHands)
    · exact .inr (.inl (tasks ▸ inTasks))
    · exact .inr (.inr (.inl (static ▸ inStatic)))
    · exact .inr (.inr (.inr (workers ▸ atWork)))
  · rintro (inPerformed | inHands)
    · exact .inl (performed ▸ inPerformed)
    · exact ready task (place ▸ inHands)

/-- What a step may do to the tasks, with the milestone it shows. -/
structure Passage (config : Config) (state after : State) (shown : Option Milestone) : Prop where
  before : ∀ task, after.Before task → state.Before task ∨
    shown = some (.dispatched task.fd task.cycle (content task.request) task)
  behind : ∀ task, after.Behind task → state.Behind task ∨
    ∃ origin response datetime entries, state.Before origin ∧ origin.type ≠ .jsonRpcTask ∧
      task = State.performTask config response datetime entries origin ∧
      shown = some (.finished origin response datetime entries)
  delivered : ∀ fd cycle text, shown = some (.delivered fd cycle text) →
    ∃ task, state.Behind task ∧ task.fd = fd ∧ task.cycle = cycle ∧ task.responseData = text

/-- No task has changed its place. -/
theorem Passage.of_custody {phase : Phase} {shown : Option Milestone}
    (custody : after.custody = state.custodyIn phase)
    (pending : ∀ task ∈ phase.hands.1, state.Before task)
    (ready : ∀ task ∈ phase.hands.2, state.Behind task)
    (delivered : ∀ fd cycle text, shown = some (.delivered fd cycle text) →
      ∃ task, state.Behind task ∧ task.fd = fd ∧ task.cycle = cycle ∧ task.responseData = text) :
    Passage config state after shown where
  before := fun task at_ => .inl ((places_of_custody custody pending ready task).1 at_)
  behind := fun task at_ => .inl ((places_of_custody custody pending ready task).2 at_)
  delivered := delivered

/-- Tasks come from places of the same kind, and nothing is shown. -/
theorem Passage.silent (before : ∀ task, after.Before task → state.Before task)
    (behind : ∀ task, after.Behind task → state.Behind task) :
    Passage config state after none where
  before := fun task there => .inl (before task there)
  behind := fun task there => .inl (behind task there)
  delivered := fun _ _ _ impossible => by cases impossible

end Places

/-! ## Whole runs -/

/-- The task is one that was dispatched, with the response that was made for it. -/
def Made (config : Config) (events : List Milestone) (task : Task) : Prop :=
  ∃ origin response datetime entries,
    List.Sublist [.dispatched origin.fd origin.cycle (content origin.request) origin,
      .finished origin response datetime entries] events ∧
    task = { origin with
      responseData := response.prepareResponse config.identity datetime entries }

/-- Every task has left its traces, and so has every response that was delivered. -/
structure Traced (config : Config) (state : State) (events : List Milestone) : Prop where
  before : ∀ task, state.Before task →
    .dispatched task.fd task.cycle (content task.request) task ∈ events
  behind : ∀ task, state.Behind task → Made config events task
  delivered : ∀ fd cycle text, .delivered fd cycle text ∈ events →
    ∃ origin response datetime entries,
      List.Sublist [.dispatched fd cycle (content origin.request) origin,
        .finished origin response datetime entries, .delivered fd cycle text] events ∧
      text = response.prepareResponse config.identity datetime entries

section Traces

variable {config : Config} {state after : State} {events : List Milestone}

theorem Traced.step {shown : Option Milestone} (traced : Traced config state events)
    (passage : Passage config state after shown) :
    Traced config after (events ++ shown.toList) where
  before := by
    intro task before
    rcases passage.before task before with earlier | now
    · exact List.mem_append_left _ (traced.before task earlier)
    · rw [now]
      exact List.mem_append_right _ (List.mem_singleton_self _)
  behind := by
    intro task behind
    rcases passage.behind task behind with earlier |
      ⟨origin, response, datetime, entries, before, kind, same, now⟩
    · obtain ⟨origin, response, datetime, entries, trace, same⟩ := traced.behind task earlier
      exact ⟨origin, response, datetime, entries, trace.trans (List.sublist_append_left _ _),
        same⟩
    · refine ⟨origin, response, datetime, entries, ?_, ?_⟩
      · rw [now]
        exact (List.singleton_sublist.mpr (traced.before origin before)).append (.refl _)
      · rw [same]
        unfold State.performTask
        split
        next isJson => exact absurd isJson kind
        next => rfl
  delivered := by
    intro fd cycle text member
    rcases List.mem_append.mp member with earlier | last
    · obtain ⟨origin, response, datetime, entries, trace, same⟩ :=
        traced.delivered fd cycle text earlier
      exact ⟨origin, response, datetime, entries, trace.trans (List.sublist_append_left _ _),
        same⟩
    · have now := Option.mem_toList.mp last
      obtain ⟨task, behind, rfl, rfl, rfl⟩ := passage.delivered fd cycle text now
      obtain ⟨origin, response, datetime, entries, trace, rfl⟩ := traced.behind task behind
      refine ⟨origin, response, datetime, entries, ?_, rfl⟩
      rw [now]
      exact trace.append (.refl _)

end Traces

/-- A text for a connection. -/
def Milestone.reaches (fd : Nat) : Milestone → Bool
  | .delivered other _ _ => other == fd
  | _ => false

end Onyxup.Server
