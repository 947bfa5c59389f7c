import Onyxup.Lib.Rotation
import Onyxup.Server.Delivery
import Onyxup.Server.Ledger

/-!
Contract: which slots the time-out scan looks at, over whole runs.

Owns: the server with a log of the slots that its scans have examined, the place of every
scan as a step around the table, and the number of iterations in which every slot is
examined.

Does not own: what is done to a slot that has expired.

The scan of an iteration begins at `counter_check_limit_time_request` and takes at most 100
slots. It stops at the end of the table, while the next one begins 100 further around it.
-/

set_option autoImplicit false

namespace Onyxup.Server

open Onyxup.Lib
open Onyxup.Lib.CString
open Onyxup.Lib.Transition
open Onyxup.Response (ResponseBase)

/-! ## What a step does to the scan -/

/-- What a step does to the scan: nothing, its beginning, one slot, or its end. -/
inductive ScanMove (config : Config) (state after : State) : Action → Prop where
  | quiet {action : Action} (other : ∀ answers, action ≠ .checkTimeLimit answers)
      (counter : after.counterCheckLimitTimeRequest = state.counterCheckLimitTimeRequest)
      (phase : ∀ index, after.phase = .scan index → state.phase = .scan index) :
      ScanMove config state after action
  | begun (counter : after.counterCheckLimitTimeRequest = state.counterCheckLimitTimeRequest)
      (phase : after.phase = .scan state.counterCheckLimitTimeRequest) :
      ScanMove config state after .beginIteration
  | examined {answers : Answers} {index : Nat} (scanning : state.phase = .scan index)
      (inside : index < config.maxConnection ∧ index < state.counterCheckLimitTimeRequest + 100)
      (counter : after.counterCheckLimitTimeRequest = state.counterCheckLimitTimeRequest)
      (phase : after.phase = .scan (index + 1)) :
      ScanMove config state after (.checkTimeLimit answers)
  | ended {answers : Answers} {index : Nat} (scanning : state.phase = .scan index)
      (outside : ¬ (index < config.maxConnection ∧
        index < state.counterCheckLimitTimeRequest + 100))
      (counter : after.counterCheckLimitTimeRequest =
        (state.counterCheckLimitTimeRequest + 100) % config.maxConnection)
      (phase : after.phase = .drain) :
      ScanMove config state after (.checkTimeLimit answers)

section Moves

variable {config : Config} {state after : State}

private theorem quiet_of_phase {action : Action} {phase : Phase}
    (other : ∀ answers, action ≠ .checkTimeLimit answers)
    (counter : after.counterCheckLimitTimeRequest = state.counterCheckLimitTimeRequest)
    (place : after.phase = phase) (notScanning : ∀ index, phase ≠ .scan index) :
    ScanMove config state after action := by
  refine .quiet other counter ?_
  intro index scanning
  rw [place] at scanning
  exact absurd scanning (notScanning index)

private theorem quiet_of_same {action : Action}
    (other : ∀ answers, action ≠ .checkTimeLimit answers)
    (kept : TasksKept state state.phase after) : ScanMove config state after action := by
  refine .quiet other kept.counter ?_
  intro index scanning
  rw [← scanning]
  exact kept.place.symm

/-- Every step of the server is a move of the scan. -/
theorem step_scan {action : Action} (allowed : enabled config state action = true)
    (steps : step config state action = .ok after) : ScanMove config state after action := by
  cases action with
  | tick duration =>
      rw [← Except.ok.inj steps]
      exact quiet_of_same (by simp) ⟨rfl, rfl⟩
  | beginIteration =>
      rw [← Except.ok.inj steps]
      exact .begun rfl rfl
  | checkTimeLimit answers =>
      obtain ⟨index, scanning⟩ := situation_of_enabled allowed
      simp only [step, scanning] at steps
      rcases scanStep_tasksKept steps with ⟨inside, kept⟩ | ⟨outside, custody, counter⟩
      · exact .examined scanning inside kept.counter kept.place
      · exact .ended scanning outside counter (congrArg Prod.fst custody)
  | popPerformed =>
      rw [← Except.ok.inj steps]
      unfold State.popPerformed
      split
      next => exact quiet_of_phase (by simp) rfl rfl (by simp)
      next => exact quiet_of_phase (by simp) rfl rfl (by simp)
  | deliver answers =>
      obtain ⟨task, delivering⟩ := situation_of_enabled allowed
      simp only [step, delivering] at steps
      have kept := deliver_tasksKept steps
      exact quiet_of_phase (by simp) kept.counter kept.place (by simp)
  | hangUp fd =>
      rw [← Except.ok.inj steps]
      exact quiet_of_same (by simp) ⟨rfl, rfl⟩
  | accept result =>
      rw [← Except.ok.inj steps]
      exact quiet_of_same (by simp) (accept_tasksKept result)
  | receive fd result modified allocated answers =>
      rcases receive_tasksKept steps with kept | ⟨task, _, custody, counter⟩
      · exact quiet_of_same (by simp) kept
      · exact quiet_of_phase (by simp) counter (congrArg Prod.fst custody) (by simp)
  | chooseQueue answers =>
      obtain ⟨task, dispatched⟩ := situation_of_enabled allowed
      simp only [step, dispatched] at steps
      rcases chooseQueue_tasksKept steps with ⟨kept, _⟩ | ⟨kept, _⟩
      · exact quiet_of_phase (by simp) kept.counter kept.place (by simp)
      · exact quiet_of_phase (by simp) kept.counter kept.place (by simp)
  | addTask =>
      obtain ⟨task, admitted⟩ := situation_of_enabled allowed
      simp only [step, admitted] at steps
      rw [← Except.ok.inj steps]
      unfold State.addTask
      dsimp only
      split <;> exact quiet_of_phase (by simp) rfl rfl (by simp)
  | send fd result modified =>
      exact quiet_of_same (by simp) (send_tasksKept steps)
  | workerTake id =>
      rw [← Except.ok.inj steps]
      refine .quiet (by simp) ?_ ?_
      · unfold State.workerTake
        split
        next => rfl
        next => dsimp only; split <;> rfl
      · unfold State.workerTake
        split
        next => exact fun _ scanning => scanning
        next => dsimp only; split <;> exact fun _ scanning => scanning
  | workerFinish id response datetime entries =>
      rw [← Except.ok.inj steps]
      refine .quiet (by simp) ?_ ?_
      · unfold State.workerFinish
        split <;> rfl
      · unfold State.workerFinish
        split <;> exact fun _ scanning => scanning

end Moves

/-! ## The log of the scans -/

/-- The server, the number of scans that have ended, and the slots that have been examined,
each with the iteration in which that was. -/
structure ScanLog where
  state : State
  iteration : Nat
  examined : List (Nat × Nat)

/-- What a step adds to the log: the scan has one more slot behind it, or its end. -/
def ScanLog.record (config : Config) (log : ScanLog) (action : Action) (after : State) : ScanLog :=
  match action, log.state.phase with
  | .checkTimeLimit _, .scan index =>
      if index < config.maxConnection ∧ index < log.state.counterCheckLimitTimeRequest + 100 then
        ⟨after, log.iteration, (log.iteration, index) :: log.examined⟩
      else ⟨after, log.iteration + 1, log.examined⟩
  | _, _ => ⟨after, log.iteration, log.examined⟩

/-- The server with the log. -/
def scannedServer (config : Config) : System ScanLog Action Fault where
  initial := fun log => Initial config log.state ∧ log.iteration = 0 ∧ log.examined = []
  enabled := fun log action => enabled config log.state action
  step := fun log action =>
    match step config log.state action with
    | .ok after => .ok (log.record config action after)
    | .error fault => .error fault

/-- `counter_check_limit_time_request` in the iterations, counted from the start. -/
def scanStart (maxConnection iteration : Nat) : Nat :=
  Rotation.position maxConnection 100 iteration

/-- The slot is in the window of the scan of the iteration. -/
def InWindow (maxConnection iteration slot : Nat) : Prop :=
  scanStart maxConnection iteration ≤ slot ∧
    slot < min maxConnection (scanStart maxConnection iteration + 100)

/-- Where the scan stands: the counter of its iteration, all windows of the iterations before,
and the part of its own window that it has behind it. -/
structure Scanned (config : Config) (log : ScanLog) : Prop where
  counter : log.state.counterCheckLimitTimeRequest =
    scanStart config.maxConnection log.iteration
  past : ∀ iteration < log.iteration, ∀ slot, InWindow config.maxConnection iteration slot →
    (iteration, slot) ∈ log.examined
  present : ∀ index, log.state.phase = .scan index → ∀ slot,
    log.state.counterCheckLimitTimeRequest ≤ slot → slot < index →
      (log.iteration, slot) ∈ log.examined

namespace Scanned

variable {config : Config} {log : ScanLog} {after : State} {action : Action}

theorem initially (initial : (scannedServer config).initial log) : Scanned config log := by
  obtain ⟨server, iteration, _⟩ := initial
  refine ⟨?_, ?_, ?_⟩
  · rw [iteration, server.counter]
    rfl
  · intro earlier before
    omega
  · intro index scanning
    rw [server.phase] at scanning
    cases scanning

/-- One step of the logged server. -/
theorem preserved (scanned : Scanned config log)
    (move : ScanMove config log.state after action) :
    Scanned config (log.record config action after) := by
  cases move with
  | quiet other counter phase =>
      have kept : log.record config action after = ⟨after, log.iteration, log.examined⟩ := by
        unfold ScanLog.record
        split
        next answers _ _ => exact absurd rfl (other answers)
        next => rfl
      rw [kept]
      refine ⟨counter.trans scanned.counter, scanned.past, ?_⟩
      intro index scanning slot behind before
      rw [counter] at behind
      exact scanned.present index (phase index scanning) slot behind before
  | begun counter phase =>
      refine ⟨counter.trans scanned.counter, scanned.past, ?_⟩
      intro index scanning slot behind before
      have start := scanning.symm.trans phase
      cases start
      dsimp only [ScanLog.record] at behind
      omega
  | @examined answers index scanning inside counter phase =>
      have kept : log.record config (.checkTimeLimit answers) after =
          ⟨after, log.iteration, (log.iteration, index) :: log.examined⟩ := by
        simp only [ScanLog.record, scanning, if_pos inside]
      rw [kept]
      refine ⟨counter.trans scanned.counter, ?_, ?_⟩
      · intro earlier before slot window
        exact List.mem_cons_of_mem _ (scanned.past earlier before slot window)
      · intro next stands slot behind before
        have isNext := stands.symm.trans phase
        cases isNext
        by_cases here : slot = index
        · rw [here]
          exact List.mem_cons_self
        · dsimp only at behind
          rw [counter] at behind
          exact List.mem_cons_of_mem _
            (scanned.present index scanning slot behind (by omega))
  | @ended answers index scanning outside counter phase =>
      have kept : log.record config (.checkTimeLimit answers) after =
          ⟨after, log.iteration + 1, log.examined⟩ := by
        simp only [ScanLog.record, scanning, if_neg outside]
      rw [kept]
      refine ⟨?_, ?_, ?_⟩
      · dsimp only
        rw [counter, scanned.counter]
        rfl
      · intro earlier before slot window
        dsimp only at before
        by_cases own : earlier = log.iteration
        · -- The scan has ended behind its window.
          rw [own] at window ⊢
          rw [InWindow, ← scanned.counter] at window
          exact scanned.present index scanning slot window.1 (by omega)
        · exact scanned.past earlier (by omega) slot window
      · intro next stands
        dsimp only at stands
        rw [phase] at stands
        cases stands

/-- Every state of every run. -/
theorem of_reachable (reachable : Reachable (scannedServer config) Unconditional log) :
    Scanned config log := by
  apply reachable.invariant (fun _ => initially)
  intro before action next scanned allowed _ steps
  simp only [scannedServer] at steps
  split at steps
  next after moves =>
    cases steps
    exact scanned.preserved (step_scan allowed moves)
  next => cases steps

end Scanned

theorem ScanLog.record_state (config : Config) (log : ScanLog) (action : Action)
    (after : State) : (log.record config action after).state = after := by
  unfold ScanLog.record
  split
  next => split <;> rfl
  next => rfl

/-- The log of a slot is the call of the body of the scan for it. -/
theorem ScanLog.record_examined_iff {config : Config} {log : ScanLog} {after : State}
    {action : Action} {index : Nat} (steps : step config log.state action = .ok after) :
    (log.record config action after).examined = (log.iteration, index) :: log.examined ↔
      ∃ answers checked, action = .checkTimeLimit answers ∧ log.state.phase = .scan index ∧
        log.state.checkTimeLimit config answers index = .ok checked ∧
        after = { checked with phase := .scan (index + 1) } := by
  have longer : log.examined ≠ (log.iteration, index) :: log.examined := (List.cons_ne_self _ _).symm
  unfold ScanLog.record
  split
  next answers other scanning =>
    simp only [step, scanning, State.scanStep] at steps
    split
    next inside =>
      rw [if_pos inside] at steps
      split at steps
      next => cases steps
      next checked checks =>
        constructor
        · intro logged
          injection logged with entry _
          injection entry with _ same
          subst same
          exact ⟨answers, checked, rfl, scanning, checks, (Except.ok.inj steps).symm⟩
        · rintro ⟨_, _, _, here, _⟩
          rw [scanning] at here
          cases here
          rfl
    next outside =>
      rw [if_neg outside] at steps
      refine iff_of_false longer ?_
      rintro ⟨_, checked, _, _, _, ends⟩
      have phase := congrArg State.phase ((Except.ok.inj steps).trans ends)
      cases phase
  next other =>
    refine iff_of_false longer ?_
    rintro ⟨answers, _, isScan, scanning, _⟩
    exact other answers index isScan scanning

/-- The log neither keeps the server from anything nor adds anything to it. -/
theorem reachable_iff_exists_scanLog {config : Config} {state : State} :
    Reachable (server config) Unconditional state ↔
      ∃ log, Reachable (scannedServer config) Unconditional log ∧ log.state = state := by
  constructor
  · intro reachable
    induction reachable with
    | start initial => exact ⟨⟨_, 0, []⟩, .start ⟨initial, rfl, rfl⟩, rfl⟩
    | @next before after action _ allowed _ steps inductionHypothesis =>
        obtain ⟨log, earlier, rfl⟩ := inductionHypothesis
        refine ⟨log.record config action after, ?_, log.record_state config action after⟩
        refine earlier.next allowed trivial ?_
        simp only [scannedServer]
        rw [show step config log.state action = .ok after from steps]
  · rintro ⟨log, reachable, rfl⟩
    induction reachable with
    | start initial => exact .start initial.1
    | @next before after action _ allowed _ steps inductionHypothesis =>
        simp only [scannedServer] at steps
        split at steps
        next stepped moves =>
          rw [← Except.ok.inj steps, ScanLog.record_state]
          exact inductionHypothesis.next allowed trivial moves
        next => cases steps

/-- Every slot is in a window of any `m / gcd(m, 100)` consecutive iterations. -/
theorem exists_inWindow {maxConnection slot : Nat} (inside : slot < maxConnection) (since : Nat) :
    ∃ iteration, since ≤ iteration ∧
      iteration < since + maxConnection / maxConnection.gcd 100 ∧
      InWindow maxConnection iteration slot := by
  obtain ⟨iteration, after, before, starts, ends⟩ :=
    Rotation.exists_position_near (Nat.zero_lt_of_lt inside) inside since
  have narrow : maxConnection.gcd 100 ≤ 100 := Nat.gcd_le_right maxConnection (by decide)
  refine ⟨iteration, after, before, starts, Nat.lt_min.mpr ⟨inside, ?_⟩⟩
  exact Nat.lt_of_lt_of_le ends (Nat.add_le_add_left narrow _)

/-- **The time-out scan reaches every connection.** For every size of the table, every slot and
every run: the counter of an iteration is a step around the table, among any `m / gcd(m, 100)`
consecutive iterations there is one whose window has the slot in it, and once these iterations
have scanned, the slot has been examined in one of them. -/
theorem scan_reaches_every_slot (config : Config) (log : ScanLog)
    (reachable : Reachable (scannedServer config) Unconditional log) (slot : Nat)
    (inside : slot < config.maxConnection) (since : Nat) :
    log.state.counterCheckLimitTimeRequest = scanStart config.maxConnection log.iteration ∧
      (∃ iteration, since ≤ iteration ∧
        iteration < since + config.maxConnection / config.maxConnection.gcd 100 ∧
        InWindow config.maxConnection iteration slot) ∧
      (since + config.maxConnection / config.maxConnection.gcd 100 ≤ log.iteration →
        ∃ iteration, since ≤ iteration ∧
          iteration < since + config.maxConnection / config.maxConnection.gcd 100 ∧
          (iteration, slot) ∈ log.examined) := by
  have scanned := Scanned.of_reachable reachable
  have window := exists_inWindow inside since
  refine ⟨scanned.counter, window, ?_⟩
  intro finished
  obtain ⟨iteration, after, before, inWindow⟩ := window
  exact ⟨iteration, after, before, scanned.past iteration (by omega) slot inWindow⟩

/-- One scan of the two slots of the small server. -/
theorem small_scan_examines_both :
    ∃ log : ScanLog, ∃ iteration, 0 ≤ iteration ∧ iteration < 0 + 2 / Nat.gcd 2 100 ∧
      (iteration, 1) ∈ log.examined := by
  obtain ⟨log, reachable, passes⟩ := (scannedServer smallConfig).exists_of_replay
    (show (scannedServer smallConfig).initial ⟨smallState, 0, []⟩ from
      ⟨smallState_initial, rfl, rfl⟩)
    (fun log => decide (log.iteration = 1))
    (show ((scannedServer smallConfig).replay Unconditional ⟨smallState, 0, []⟩
      [.beginIteration, .checkTimeLimit ⟨[], true⟩, .checkTimeLimit ⟨[], true⟩,
        .checkTimeLimit ⟨[], true⟩]).any _ = true by decide +kernel)
  have finished : log.iteration = 1 := of_decide_eq_true passes
  obtain ⟨_, _, examined⟩ :=
    scan_reaches_every_slot smallConfig log reachable 1 (by decide) 0
  exact ⟨log, examined (by rw [finished]; decide)⟩

end Onyxup.Server
