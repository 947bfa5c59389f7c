import Onyxup.Lib.Progress
import Onyxup.Server.ScanCoverage

/-!
Contract: how old a connection can get.

Owns: that no connection keeps a time stamp that is past the limit, once the scan has been
round the table.

Does not own: which scan examines which slot.

The stamp of a connection is set when it is accepted, when a response has been sent, and
when 408 is written to it. Bytes that arrive do not renew it.
-/

set_option autoImplicit false

namespace Onyxup.Server

open Onyxup.Lib.CString
open Onyxup.Lib.Transition
open Onyxup.Response

/-- There is no connection in the slot, or its stamp was within the limit when the clock
showed `reading`. -/
def Slot.InTime (config : Config) (reading : Nat) (slot : Slot) : Prop :=
  slot.request = none ∨
    ((reading : Int) - slot.aliveSocket).tdiv 1000000000 ≤ max config.timeLimitRequestSeconds 0

section Steps

variable {config : Config} {reading : Nat}

/-- A stamp of that moment or later. -/
theorem inTime_of_stamp {slot : Slot} (later : reading ≤ slot.aliveSocket) :
    slot.InTime config reading := by
  refine .inr (le_trans ?_ (le_max_right _ _))
  have sooner : (reading : Int) - slot.aliveSocket ≤ 0 := by omega
  have quotient := Int.tdiv_le_tdiv (show (0 : Int) < 1000000000 by decide) sooner
  rwa [Int.zero_tdiv] at quotient

/-- What happens to the stamp of a slot: it is left to the connection that has it, or a new
one is taken. -/
def Stamped (clock : Nat) (slot after : Slot) : Prop :=
  after.aliveSocket = slot.aliveSocket ∧ (slot.request = none → after.request = none) ∨
    after.aliveSocket = clock

theorem Stamped.inTime {clock : Nat} {slot after : Slot} (stamped : Stamped clock slot after)
    (past : reading ≤ clock) (inTime : slot.InTime config reading) :
    after.InTime config reading := by
  rcases stamped with ⟨same, stays⟩ | taken
  · rcases inTime with free | within
    · exact .inl (stays free)
    · exact .inr (by rw [same]; exact within)
  · exact inTime_of_stamp (by rw [taken]; exact past)

theorem Move.stamped {fd clock number : Nat} {mayExpire mayRefuse : Slot → Bool}
    {slot after : Slot} (move : Move config fd mayExpire mayRefuse clock number slot after) :
    Stamped clock slot after := by
  cases move with
  | opened => exact .inr rfl
  | closed => exact .inr rfl
  | turnedAway => exact .inr rfl
  | waited read =>
      obtain ⟨_, _, _, asked, _⟩ := read
      exact .inl ⟨rfl, by simp [asked]⟩
  | refused _ _ asked page =>
      exact .inl ⟨page.frame.2.1, by simp [asked]⟩
  | expired => exact .inr rfl
  | sent => exact .inl ⟨rfl, id⟩
  | reset => exact .inr rfl

/-- One step and one slot. -/
theorem Effect.stamped {mayExpire mayRefuse : Slot → Bool} {state after : State}
    (effect : Effect config mayExpire mayRefuse state after) (fd : Nat) :
    Stamped state.clock (state.slots fd) (after.slots fd) := by
  have same : Stamped state.clock (state.slots fd) (state.slots fd) := .inl ⟨rfl, id⟩
  have here {other : Nat} {slot : Slot}
      (stamped : Stamped state.clock (state.slots other) slot) :
      Stamped state.clock (state.slots fd) (Function.update state.slots other slot fd) := by
    by_cases isOther : fd = other
    · rw [isOther, Function.update_self]
      exact stamped
    · rw [Function.update_of_ne isOther]
      exact same
  cases effect with
  | quiet slots => rw [slots]; exact same
  | queued slots => rw [slots]; exact same
  | moved move slots =>
      rw [slots]
      exact here move.stamped
  | dispatched read slots =>
      obtain ⟨_, _, _, asked, _⟩ := read
      rw [slots]
      exact here (.inl ⟨rfl, by simp [asked]⟩)
  | notFound read page slots =>
      obtain ⟨_, _, _, asked, _⟩ := read
      rw [slots]
      exact here (.inl ⟨page.frame.2.1, by simp [asked]⟩)
  | turnedDown _ page slots =>
      rw [slots]
      exact here (.inl ⟨page.frame.2.1, fun free => page.frame.2.2.1.trans free⟩)
  | delivered _ _ outcome slots =>
      rw [slots]
      rcases outcome with page | closed
      · exact here (.inl ⟨page.frame.2.1, fun free => page.frame.2.2.1.trans free⟩)
      · exact here (.inr (by rw [closed]))

/-- An index of the scan: a connection that is past the limit is closed, or gets a new
stamp. -/
theorem checkTimeLimit_inTime {state after : State} {answers : Answers} {index : Nat}
    (owned : Owned state) (begun : reading ≤ state.now) (past : reading ≤ state.clock)
    (checked : state.checkTimeLimit config answers index = .ok after) :
    (after.slots index).InTime config reading := by
  unfold State.checkTimeLimit at checked
  split at checked
  next free =>
    cases checked
    exact .inl free
  next request asked =>
    obtain rfl := owned index request asked
    split at checked
    next late =>
      split at checked
      next =>
        cases checked
        exact .inl (by simp [State.closeAllSocketsAndClearData])
      next =>
        split at checked
        next => cases checked
        next stillOpen written writes =>
          rcases writeToOutputBuffer_cases (page_ne_nil _ _ _ _ _) writes with
            ⟨_, answered, page, rfl⟩ | ⟨_, rfl⟩
          · have kept : answered.request = some request := page.frame.2.2.1.trans asked
            simp only [State.setSlot, Function.update_self, kept, Function.update_idem]
              at checked
            cases checked
            exact inTime_of_stamp (by simpa using past)
          · simp only [State.closeAllSocketsAndClearData, Function.update_self] at checked
            cases checked
    next within =>
      cases checked
      refine .inr (le_trans ?_ (le_max_left _ _))
      have notLate : ((state.now : Int) - (state.slots request.fd).aliveSocket).tdiv 1000000000 ≤
          config.timeLimitRequestSeconds := by
        simpa [State.expired] using within
      refine le_trans (Int.tdiv_le_tdiv (by decide) ?_) notLate
      omega

theorem Effect.clock_le {mayExpire mayRefuse : Slot → Bool} {state after : State}
    (effect : Effect config mayExpire mayRefuse state after) : state.clock ≤ after.clock := by
  cases effect with
  | quiet _ clock => exact clock
  | queued _ clock => exact Nat.le_of_eq clock.symm
  | moved _ _ clock => exact clock.1
  | dispatched _ _ clock => exact Nat.le_of_eq clock.symm
  | notFound _ _ _ clock => exact Nat.le_of_eq clock.symm
  | turnedDown _ _ _ clock => exact Nat.le_of_eq clock.symm
  | delivered _ _ _ _ clock => exact clock.1

/-- The body of the scan leaves the reading of its iteration alone. -/
theorem scanStep_now {state after : State} {answers : Answers} {index : Nat} (owned : Owned state)
    (scans : state.scanStep config answers index = .ok after) : after.now = state.now := by
  unfold State.scanStep at scans
  split at scans
  next =>
    split at scans
    next => cases scans
    next checked checks =>
      cases scans
      rcases checkTimeLimit_cases (owned index) checks with rfl | rfl | ⟨_, _, _, _, _, _, rfl⟩
      · rfl
      · rfl
      · rfl
  next =>
    cases scans
    rfl

/-- The reading of a scan is that of the beginning of its iteration. -/
theorem now_of_scan {state after : State} {action : Action} {index : Nat} (owned : Owned state)
    (allowed : enabled config state action = true) (steps : step config state action = .ok after)
    (scanning : after.phase = .scan index) :
    after.now = state.clock ∨ ∃ earlier, state.phase = .scan earlier ∧ after.now = state.now := by
  cases step_scan allowed steps with
  | quiet other counter phase =>
      -- While a scan is under way, only the clock and the workers go on.
      have was := phase index scanning
      have situation := situation_of_enabled allowed
      refine .inr ⟨index, was, ?_⟩
      cases action with
      | tick duration => cases steps; rfl
      | workerTake id =>
          cases steps
          unfold State.workerTake
          split
          next => rfl
          next => dsimp only; split <;> rfl
      | workerFinish id response datetime entries =>
          cases steps
          unfold State.workerFinish
          split <;> rfl
      | checkTimeLimit answers => exact absurd rfl (other answers)
      | beginIteration | popPerformed =>
          rw [show state.phase = _ from situation] at was
          cases was
      | hangUp | accept | receive | send =>
          rw [situation.1] at was
          cases was
      | deliver | chooseQueue | addTask =>
          obtain ⟨task, elsewhere⟩ := situation
          rw [elsewhere] at was
          cases was
  | begun =>
      cases steps
      exact .inl rfl
  | @examined answers earlier started =>
      simp only [step, started] at steps
      exact .inr ⟨earlier, started, scanStep_now owned steps⟩
  | ended _ _ _ phase =>
      rw [phase] at scanning
      cases scanning

end Steps

/-! ## Runs -/

/-- What holds in a run after the clock showed `reading`, from iteration `since` on. -/
structure Cut (config : Config) (reading since : Nat) (log : ScanLog) : Prop where
  clock : reading ≤ log.state.clock
  begun : since ≤ log.iteration → ∀ index, log.state.phase = .scan index →
    reading ≤ log.state.now
  examined : ∀ iteration slot, since ≤ iteration → (iteration, slot) ∈ log.examined →
    (log.state.slots slot).InTime config reading

namespace Cut

variable {config : Config} {reading since : Nat} {log : ScanLog} {after : State}
  {action : Action}

/-- One step. -/
theorem preserved (cut : Cut config reading since log) (owned : Owned log.state)
    (stocked : Stocked log.state) (allowed : enabled config log.state action = true)
    (steps : step config log.state action = .ok after) :
    Cut config reading since (log.record config action after) := by
  have effect := step_effect owned stocked allowed (Permits.of_all config log.state action) steps
  have clock : reading ≤ after.clock := le_trans cut.clock effect.clock_le
  have kept (iteration slot : Nat) (recent : since ≤ iteration)
      (member : (iteration, slot) ∈ log.examined) : (after.slots slot).InTime config reading :=
    (effect.stamped slot).inTime cut.clock (cut.examined iteration slot recent member)
  have begun (recent : since ≤ log.iteration) (index : Nat) (scanning : after.phase = .scan index) :
      reading ≤ after.now := by
    rcases now_of_scan owned allowed steps scanning with inTime | ⟨earlier, was, same⟩
    · rw [inTime]
      exact cut.clock
    · rw [same]
      exact cut.begun recent earlier was
  cases step_scan allowed steps with
  | quiet other =>
      have same : log.record config action after = ⟨after, log.iteration, log.examined⟩ := by
        unfold ScanLog.record
        split
        next answers _ _ => exact absurd rfl (other answers)
        next => rfl
      rw [same]
      exact ⟨clock, begun, kept⟩
  | begun => exact ⟨clock, begun, kept⟩
  | @examined answers index scanning inside =>
      have longer : log.record config (.checkTimeLimit answers) after =
          ⟨after, log.iteration, (log.iteration, index) :: log.examined⟩ := by
        simp only [ScanLog.record, scanning, if_pos inside]
      rw [longer]
      refine ⟨clock, begun, ?_⟩
      rintro iteration slot recent (_ | ⟨_, member⟩)
      · simp only [step, scanning, State.scanStep, if_pos inside] at steps
        split at steps
        next => cases steps
        next checked checks =>
          have inTime :=
            checkTimeLimit_inTime owned (cut.begun recent index scanning) cut.clock checks
          cases steps
          exact inTime
      · exact kept iteration slot recent member
  | @ended answers index scanning outside _ phase =>
      have next : log.record config (.checkTimeLimit answers) after =
          ⟨after, log.iteration + 1, log.examined⟩ := by
        simp only [ScanLog.record, scanning, if_neg outside]
      rw [next]
      refine ⟨clock, ?_, kept⟩
      intro _ other stands
      rw [show after.phase = _ from phase] at stands
      cases stands

end Cut

/-- No slot has been examined in an iteration to come. -/
theorem examined_le {config : Config} {log : ScanLog}
    (reachable : Reachable (scannedServer config) Unconditional log) :
    ∀ iteration slot, (iteration, slot) ∈ log.examined → iteration ≤ log.iteration := by
  apply reachable.invariant
  · rintro log ⟨_, _, nothing⟩ iteration slot member
    rw [nothing] at member
    cases member
  · intro log action next bounded _ _ steps
    simp only [scannedServer] at steps
    split at steps
    next after _ =>
      cases steps
      unfold ScanLog.record
      split
      next =>
        split
        next =>
          rintro iteration slot (_ | ⟨_, member⟩)
          · exact Nat.le_refl _
          · exact bounded iteration slot member
        next => exact fun iteration slot member => Nat.le_succ_of_le (bounded iteration slot member)
      next => exact bounded
    next => cases steps

theorem invariant_of_scanned {config : Config} {log : ScanLog}
    (reachable : Reachable (scannedServer config) Unconditional log) :
    Invariant config log.state :=
  Invariant.of_reachable (reachable_iff_exists_scanLog.mpr ⟨log, reachable, rfl⟩)

/-- The stretch of a run behind a state. -/
theorem cut_of_stretch {config : Config} {earlier log : ScanLog} {count : Nat}
    (reachable : Reachable (scannedServer config) Unconditional earlier)
    (later : Stretch (scannedServer config) (fun _ => True) (fun _ => true) earlier count log) :
    Cut config earlier.state.clock (earlier.iteration + 1) log := by
  induction later with
  | refl =>
      refine ⟨Nat.le_refl _, fun recent => by omega, ?_⟩
      intro iteration slot recent member
      have before := examined_le reachable iteration slot member
      omega
  | @next before after action count stretch _ allowed steps inductionHypothesis =>
      have invariant := invariant_of_scanned (stretch.reachable reachable)
      simp only [scannedServer] at steps
      split at steps
      next stepped moves =>
        cases steps
        exact inductionHypothesis.preserved invariant.owned invariant.stocked allowed moves
      next => cases steps

/-- **Slow clients are cut off.** Take any state of any run and what the clock showed then.
When the scan has been round the table since, then of every connection that is open, whatever
its client has sent meanwhile, the time stamp was not past the limit at that moment. A
negative limit counts as zero. -/
theorem no_connection_outlives_the_limit (config : Config) (earlier log : ScanLog) (count : Nat)
    (reachable : Reachable (scannedServer config) Unconditional earlier)
    (later : Stretch (scannedServer config) (fun _ => True) (fun _ => true) earlier count log)
    (round : earlier.iteration + 1 + config.maxConnection / config.maxConnection.gcd 100 ≤
      log.iteration)
    (slot : Nat) (inside : slot < config.maxConnection)
    (opened : (log.state.slots slot).request ≠ none) :
    ((earlier.state.clock : Int) - (log.state.slots slot).aliveSocket).tdiv 1000000000 ≤
      max config.timeLimitRequestSeconds 0 := by
  have cut := cut_of_stretch reachable later
  have scanned := Scanned.of_reachable (later.reachable reachable)
  obtain ⟨iteration, recent, before, window⟩ := exists_inWindow inside (earlier.iteration + 1)
  have member := scanned.past iteration (by omega) slot window
  exact (cut.examined iteration slot recent member).resolve_left opened

/-- An iteration of the small server in which nothing is delivered. -/
def idleTurn : List Action :=
  [.beginIteration, .checkTimeLimit ⟨[], true⟩, .checkTimeLimit ⟨[], true⟩,
    .checkTimeLimit ⟨[], true⟩, .popPerformed]

/-- A client that connects after a minute and a half is still there after two scans. -/
theorem late_client_is_kept :
    ∃ log : ScanLog, (log.state.slots 1).request ≠ none ∧
      ((smallState.clock : Int) - (log.state.slots 1).aliveSocket).tdiv 1000000000 ≤ 60 := by
  have reachable : Reachable (scannedServer smallConfig) Unconditional ⟨smallState, 0, []⟩ :=
    .start ⟨smallState_initial, rfl, rfl⟩
  obtain ⟨log, count, later, passes⟩ := (scannedServer smallConfig).exists_of_pace
    (fun log => decide (log.iteration = 2) && (log.state.slots 1).request.isSome)
    (show ((scannedServer smallConfig).pace (fun _ => True) (fun _ => true) ⟨smallState, 0, []⟩ 0
      (.tick 90000000000 :: clientConnects :: idleTurn ++ idleTurn)).any _ = true by
        decide +kernel)
  rw [Bool.and_eq_true, decide_eq_true_eq] at passes
  have opened : (log.state.slots 1).request ≠ none := Option.isSome_iff_ne_none.mp passes.2
  refine ⟨log, opened, ?_⟩
  exact no_connection_outlives_the_limit smallConfig _ log count reachable later
    (by rw [passes.1]; decide) 1 (by decide) opened

end Onyxup.Server
