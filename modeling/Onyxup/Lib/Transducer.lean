import Mathlib.Data.List.Basic

/-!
Contract: machines that read a stream symbol by symbol and come to an end inside it.

Owns: the machine, what it makes of a text, and the law that a text may be cut into
pieces anywhere without a difference.

Does not own: where the text is kept, or how many symbols an implementation takes at
once. An implementation is compared with `run`.
-/

set_option autoImplicit false

namespace Onyxup.Lib.Transducer

variable {σ α β : Type}

/-- A search through a text stops at the first symbol that passes, or at the end. By
induction on the text. -/
theorem findIdx_cases (passes : α → Bool) (text : List α) :
    (∃ skipped symbol rest, text = skipped ++ symbol :: rest ∧
        (∀ other ∈ skipped, passes other = false) ∧ passes symbol = true ∧
        text.findIdx passes = skipped.length) ∨
      (∀ other ∈ text, passes other = false) ∧ text.findIdx passes = text.length := by
  induction text with
  | nil => exact .inr ⟨by simp, rfl⟩
  | cons first text inductionHypothesis =>
      cases here : passes first with
      | true => exact .inl ⟨[], first, text, rfl, by simp, here, by simp [List.findIdx_cons, here]⟩
      | false =>
          rcases inductionHypothesis with ⟨skipped, symbol, rest, cut, before, found, place⟩ |
            ⟨never, place⟩
          · refine .inl ⟨first :: skipped, symbol, rest, by rw [cut]; rfl, ?_, found, ?_⟩
            · rintro other (_ | ⟨_, member⟩)
              · exact here
              · exact before other member
            · simp [List.findIdx_cons, here, place]
          · refine .inr ⟨?_, by simp [List.findIdx_cons, here, place]⟩
            rintro other (_ | ⟨_, member⟩)
            · exact here
            · exact never other member

/-- What one symbol does: the machine writes something and goes on, has read its last
symbol, or cannot go on with this one. -/
inductive Move (σ β : Type) where
  | goOn (state : σ) (output : List β)
  | done
  | fail

def Machine (σ α β : Type) := σ → α → Move σ β

/-- What a text does, with all that was written, and what has not been read. -/
inductive Verdict (σ α β : Type) where
  | more (state : σ) (output : List β)
  | done (output : List β) (rest : List α)
  | fail (output : List β)

/-- The same verdict after something else has been written. -/
def Verdict.behind (written : List β) : Verdict σ α β → Verdict σ α β
  | .more state output => .more state (written ++ output)
  | .done output rest => .done (written ++ output) rest
  | .fail output => .fail (written ++ output)

@[simp] theorem Verdict.behind_nil (verdict : Verdict σ α β) : verdict.behind [] = verdict := by
  cases verdict <;> rfl

@[simp] theorem Verdict.behind_behind (first second : List β) (verdict : Verdict σ α β) :
    (verdict.behind second).behind first = verdict.behind (first ++ second) := by
  cases verdict <;> simp [Verdict.behind]

namespace Machine

/-- The machine on a text that has arrived. -/
def run (machine : Machine σ α β) : σ → List α → Verdict σ α β
  | state, [] => .more state []
  | state, symbol :: rest =>
      match machine state symbol with
      | .goOn next output => (machine.run next rest).behind output
      | .done => .done [] rest
      | .fail => .fail []

/-- More text behind a text. -/
def continued (machine : Machine σ α β) (more : List α) : Verdict σ α β → Verdict σ α β
  | .more state output => (machine.run state more).behind output
  | .done output rest => .done output (rest ++ more)
  | .fail output => .fail output

@[simp] theorem run_nil (machine : Machine σ α β) (state : σ) :
    machine.run state [] = .more state [] := rfl

theorem run_goOn {machine : Machine σ α β} {state next : σ} {symbol : α} {output : List β}
    (moves : machine state symbol = .goOn next output) (rest : List α) :
    machine.run state (symbol :: rest) = (machine.run next rest).behind output := by
  rw [run, moves]

theorem run_done {machine : Machine σ α β} {state : σ} {symbol : α}
    (moves : machine state symbol = .done) (rest : List α) :
    machine.run state (symbol :: rest) = .done [] rest := by
  rw [run, moves]

theorem run_fail {machine : Machine σ α β} {state : σ} {symbol : α}
    (moves : machine state symbol = .fail) (rest : List α) :
    machine.run state (symbol :: rest) = .fail [] := by
  rw [run, moves]

theorem continued_behind (machine : Machine σ α β) (more : List α) (written : List β)
    (verdict : Verdict σ α β) :
    machine.continued more (verdict.behind written) =
      (machine.continued more verdict).behind written := by
  cases verdict with
  | more state output => exact (Verdict.behind_behind written output _).symm
  | done output rest => rfl
  | fail output => rfl

/-- Text that comes later is read later. By induction on the text that came first. -/
theorem run_append (machine : Machine σ α β) (state : σ) (text more : List α) :
    machine.run state (text ++ more) = machine.continued more (machine.run state text) := by
  induction text generalizing state with
  | nil => simp [continued]
  | cons symbol rest inductionHypothesis =>
      cases moves : machine state symbol with
      | goOn next output =>
          rw [List.cons_append, run_goOn moves, run_goOn moves, inductionHypothesis,
            continued_behind]
      | done => rw [List.cons_append, run_done moves, run_done moves, continued]
      | fail => rw [List.cons_append, run_fail moves, run_fail moves, continued]

/-- Symbols that leave the machine as it is are skipped. By induction on them. -/
theorem run_idle {machine : Machine σ α β} {state : σ} {text : List α}
    (idle : ∀ symbol ∈ text, machine state symbol = .goOn state []) (rest : List α) :
    machine.run state (text ++ rest) = machine.run state rest := by
  induction text with
  | nil => rfl
  | cons symbol text inductionHypothesis =>
      rw [List.cons_append, run_goOn (idle symbol List.mem_cons_self), Verdict.behind_nil]
      exact inductionHypothesis fun later member => idle later (List.mem_cons_of_mem symbol member)

/-- A machine that skips up to a symbol comes to its end behind the first one. -/
theorem run_done_iff_skips {machine : Machine σ α β} {state : σ} {passes : α → Bool}
    (idle : ∀ symbol, passes symbol = false → machine state symbol = .goOn state [])
    {text rest : List α} {output : List β} :
    machine.run state text = .done output rest ↔
      ∃ skipped symbol behind, text = skipped ++ symbol :: behind ∧
        (∀ other ∈ skipped, passes other = false) ∧ passes symbol = true ∧
        machine.run state (symbol :: behind) = .done output rest := by
  constructor
  · intro runs
    rcases findIdx_cases passes text with ⟨skipped, symbol, behind, cut, before, found, _⟩ |
      ⟨never, _⟩
    · rw [cut, run_idle fun other member => idle other (before other member)] at runs
      exact ⟨skipped, symbol, behind, cut, before, found, runs⟩
    · rw [← List.append_nil text, run_idle fun other member => idle other (never other member)]
        at runs
      cases runs
  · rintro ⟨skipped, symbol, behind, rfl, before, _, runs⟩
    rw [run_idle fun other member => idle other (before other member), runs]

/-- A first symbol that only moves the machine. -/
theorem run_cons_done_iff {machine : Machine σ α β} {state next : σ} {symbol : α}
    {written : List β} (moves : machine state symbol = .goOn next written)
    {text rest : List α} {output : List β} :
    machine.run state (symbol :: text) = .done output rest ↔
      ∃ later, output = written ++ later ∧ machine.run next text = .done later rest := by
  rw [run_goOn moves]
  constructor
  · intro runs
    cases verdict : machine.run next text with
    | more final some_ => rw [verdict] at runs; cases runs
    | done later behind =>
        rw [verdict] at runs
        cases runs
        exact ⟨later, rfl, rfl⟩
    | fail some_ => rw [verdict] at runs; cases runs
  · rintro ⟨later, rfl, runs⟩
    rw [runs]
    rfl

/-- Piece by piece: an implementation is called with every piece that arrives, until it has
come to an end. What it has not read then is in front of the pieces that are left. -/
def session (call : σ → List α → Verdict σ α β) : σ → List (List α) → Verdict σ α β
  | state, [] => .more state []
  | state, piece :: pieces =>
      match call state piece with
      | .more next output => (session call next pieces).behind output
      | .done output rest => .done output (rest ++ pieces.flatten)
      | .fail output => .fail output

/-- What the moves keep, a text keeps. By induction on the text. -/
theorem run_keeps {machine : Machine σ α β} {good : σ → Prop}
    (keeps : ∀ state symbol next output, good state → machine state symbol = .goOn next output →
      good next) {state next : σ} {text : List α} {output : List β} (start : good state)
    (runs : machine.run state text = .more next output) : good next := by
  induction text generalizing state output with
  | nil =>
      cases runs
      exact start
  | cons symbol rest inductionHypothesis =>
      rw [run] at runs
      split at runs
      next between written moves =>
        cases later : machine.run between rest with
        | more final written =>
            rw [later] at runs
            cases runs
            exact inductionHypothesis (keeps _ _ _ _ start moves) later
        | done output rest =>
            rw [later] at runs
            cases runs
        | fail output =>
            rw [later] at runs
            cases runs
      next => cases runs
      next => cases runs

/-- An implementation of the machine may be called piece by piece. By induction on the
pieces. -/
theorem session_eq_run {machine : Machine σ α β} {call : σ → List α → Verdict σ α β}
    (good : σ → Prop)
    (implements : ∀ state text, good state → call state text = machine.run state text)
    (keeps : ∀ state symbol next output, good state → machine state symbol = .goOn next output →
      good next) {state : σ} (start : good state) (pieces : List (List α)) :
    session call state pieces = machine.run state pieces.flatten := by
  induction pieces generalizing state with
  | nil => rfl
  | cons piece pieces inductionHypothesis =>
      rw [List.flatten_cons, run_append, session, implements state piece start]
      cases runs : machine.run state piece with
      | more next output =>
          exact congrArg (Verdict.behind output)
            (inductionHypothesis (run_keeps keeps start runs))
      | done output rest => rfl
      | fail output => rfl

end Machine

end Onyxup.Lib.Transducer
