import Onyxup.Lib.Incremental

/-!
Contract: what a re-run reader accepts, stated as a language.

Owns: the relation between a reader and the words it reads, with the value each
word stands for, and one rule for every way readers are put together.

Does not own: failure. A language says when a reader succeeds; whether it fails
or waits otherwise is the matter of `Stable` and `Measured`.

A language relates a value, the symbols that are read and those behind them: a
scan ends in front of a symbol that it does not read.
-/

set_option autoImplicit false

namespace Onyxup.Lib.Incremental

open Onyxup.Lib.Incremental.Reader

variable {σ α β : Type}

/-- A value, the symbols it was read from, and the symbols behind them. -/
abbrev Language (σ α : Type) := α → List σ → List σ → Prop

/-- The reader succeeds on the words of the language, with their values. -/
def Reads (reader : Reader σ α) (language : Language σ α) : Prop :=
  ∀ (input : List σ) (value : α) (rest : List σ),
    reader input = .done value rest ↔ ∃ read, input = read ++ rest ∧ language value read rest

/-- Two languages with the same words. -/
theorem Reads.congr {reader : Reader σ α} {language other : Language σ α}
    (reads : Reads reader language)
    (same : ∀ value read rest, language value read rest ↔ other value read rest) :
    Reads reader other := by
  intro input value rest
  rw [reads input value rest]
  apply exists_congr
  intro read
  rw [same value read rest]

theorem reads_pure (value : α) :
    Reads (pure value : Reader σ α) fun found read _ => found = value ∧ read = [] := by
  intro input found rest
  constructor
  · intro succeeds
    cases succeeds
    exact ⟨[], rfl, rfl, rfl⟩
  · rintro ⟨_, rfl, rfl, rfl⟩
    rfl

theorem reads_reject : Reads (reject : Reader σ α) fun _ _ _ => False := by
  intro input value rest
  constructor
  · intro succeeds
    cases succeeds
  · rintro ⟨_, _, impossible⟩
    exact impossible.elim

theorem reads_item : Reads (item : Reader σ σ) fun symbol read _ => read = [symbol] := by
  intro input symbol rest
  constructor
  · intro succeeds
    cases input with
    | nil => cases succeeds
    | cons head tail =>
        cases succeeds
        exact ⟨[symbol], rfl, rfl⟩
  · rintro ⟨_, rfl, rfl⟩
    rfl

theorem reads_expect [DecidableEq σ] (expected : σ) :
    Reads (expect expected) fun _ read _ => read = [expected] := by
  intro input value rest
  constructor
  · intro succeeds
    cases input with
    | nil => cases succeeds
    | cons head tail =>
        simp only [expect] at succeeds
        split at succeeds
        next same =>
          cases succeeds
          exact ⟨[head], rfl, by rw [same]⟩
        next => cases succeeds
  · rintro ⟨_, rfl, rfl⟩
    exact if_pos rfl

/-- One reader after the other: the word of the second stands behind that of the first. -/
theorem Reads.bind {first : Reader σ α} {next : α → Reader σ β} {language : Language σ α}
    {nextLanguage : α → Language σ β} (reads : Reads first language)
    (nextReads : ∀ middle, Reads (next middle) (nextLanguage middle)) :
    Reads (first >>= next) fun value read rest =>
      ∃ middle front back, read = front ++ back ∧ language middle front (back ++ rest) ∧
        nextLanguage middle value back rest := by
  intro input value rest
  constructor
  · intro succeeds
    obtain ⟨middle, remaining, firstDone, nextDone⟩ := bind_done succeeds
    obtain ⟨front, rfl, firstWord⟩ := (reads _ _ _).mp firstDone
    obtain ⟨back, rfl, nextWord⟩ := (nextReads middle _ _ _).mp nextDone
    exact ⟨front ++ back, (List.append_assoc ..).symm, middle, front, back, rfl, firstWord,
      nextWord⟩
  · rintro ⟨_, rfl, middle, front, back, rfl, firstWord, nextWord⟩
    have firstDone : first (front ++ (back ++ rest)) = .done middle (back ++ rest) :=
      (reads _ _ _).mpr ⟨front, rfl, firstWord⟩
    rw [List.append_assoc, bind_of_done firstDone]
    exact (nextReads middle _ _ _).mpr ⟨back, rfl, nextWord⟩

/-- A reader whose value is wrapped up. -/
theorem Reads.bind_pure {first : Reader σ α} {language : Language σ α} (wrap : α → β)
    (reads : Reads first language) :
    Reads (first >>= fun middle => pure (wrap middle)) fun value read rest =>
      ∃ middle, value = wrap middle ∧ language middle read rest := by
  refine (reads.bind fun middle => reads_pure (wrap middle)).congr ?_
  intro value read rest
  constructor
  · rintro ⟨middle, front, _, rfl, word, rfl, rfl⟩
    rw [List.append_nil]
    exact ⟨middle, rfl, word⟩
  · rintro ⟨middle, rfl, word⟩
    exact ⟨middle, read, [], (List.append_nil _).symm, word, rfl, rfl⟩

theorem reads_expectAll [DecidableEq σ] (expected : List σ) :
    Reads (expectAll expected) fun _ read _ => read = expected := by
  induction expected with
  | nil =>
      refine (reads_pure ()).congr ?_
      intro value read rest
      exact and_iff_right rfl
  | cons head tail inductionHypothesis =>
      refine ((reads_expect head).bind fun _ => inductionHypothesis).congr ?_
      intro value read rest
      constructor
      · rintro ⟨_, _, _, rfl, rfl, rfl⟩
        rfl
      · rintro rfl
        exact ⟨(), [head], tail, rfl, rfl, rfl⟩

theorem reads_atLeast {reader : Reader σ α} {language : Language σ α} (count : Nat)
    (reads : Reads reader language) :
    Reads (atLeast count reader) fun value read rest =>
      count ≤ (read ++ rest).length ∧ language value read rest := by
  intro input value rest
  unfold atLeast
  constructor
  · intro succeeds
    split at succeeds
    next => cases succeeds
    next enough =>
      obtain ⟨read, rfl, word⟩ := (reads _ _ _).mp succeeds
      exact ⟨read, rfl, Nat.le_of_not_lt enough, word⟩
  · rintro ⟨read, rfl, enough, word⟩
    rw [if_neg (Nat.not_lt_of_le enough)]
    exact (reads _ _ _).mpr ⟨read, rfl, word⟩

theorem reads_ite {left right : Reader σ α} {language other : Language σ α} (condition : Prop)
    [Decidable condition] (reads : Reads left language) (otherReads : Reads right other) :
    Reads (if condition then left else right) fun value read rest =>
      (condition ∧ language value read rest) ∨ (¬ condition ∧ other value read rest) := by
  by_cases holds : condition
  · rw [if_pos holds]
    refine reads.congr ?_
    intro value read rest
    simp [holds]
  · rw [if_neg holds]
    refine otherReads.congr ?_
    intro value read rest
    simp [holds]

/-- A choice by the next symbol. -/
theorem reads_byHead {choose : σ → Reader σ α} {language : σ → Language σ α}
    (reads : ∀ symbol, Reads (choose symbol) (language symbol)) :
    Reads (byHead choose) fun value read rest =>
      ∃ head tail, read ++ rest = head :: tail ∧ language head value read rest := by
  intro input value rest
  constructor
  · intro succeeds
    cases input with
    | nil => cases succeeds
    | cons head tail =>
        obtain ⟨read, split, word⟩ := (reads head _ _ _).mp succeeds
        exact ⟨read, split, head, tail, split.symm, word⟩
  · rintro ⟨read, rfl, head, tail, split, word⟩
    rw [split]
    exact (reads head _ _ _).mpr ⟨read, split.symm, word⟩

theorem takeUntil_of_clean {stop bad : σ → Bool} {token : List σ} {head : σ}
    (clean : ∀ symbol ∈ token, stop symbol = false ∧ bad symbol = false)
    (stops : stop head = true) (tail : List σ) :
    takeUntil stop bad (token ++ head :: tail) = .done token (head :: tail) := by
  induction token with
  | nil => exact if_pos stops
  | cons first token inductionHypothesis =>
      obtain ⟨goesOn, good⟩ := clean first List.mem_cons_self
      have rest := inductionHypothesis fun symbol member =>
        clean symbol (List.mem_cons_of_mem _ member)
      rw [List.cons_append, takeUntil, goesOn, good, rest]
      rfl

/-- What a scan leaves starts with a symbol that stops it. -/
theorem takeUntil_stops (stop bad : σ → Bool) {input token rest : List σ}
    (succeeds : takeUntil stop bad input = .done token rest) :
    ∃ head tail, rest = head :: tail ∧ stop head = true := by
  induction input generalizing token with
  | nil => cases succeeds
  | cons head tail inductionHypothesis =>
      rw [takeUntil] at succeeds
      split at succeeds
      next stops =>
        cases succeeds
        exact ⟨head, tail, rfl, stops⟩
      next =>
        split at succeeds
        next => cases succeeds
        next =>
          cases verdict : takeUntil stop bad tail with
          | done inner remaining =>
              rw [verdict] at succeeds
              cases succeeds
              exact inductionHypothesis verdict
          | fail => rw [verdict] at succeeds; cases succeeds
          | incomplete => rw [verdict] at succeeds; cases succeeds

/-- A scan reads the symbols in front of the first that stops it. -/
theorem reads_takeUntil (stop bad : σ → Bool) :
    Reads (takeUntil stop bad) fun token read rest =>
      read = token ∧ (∀ symbol ∈ token, stop symbol = false ∧ bad symbol = false) ∧
        ∃ head tail, rest = head :: tail ∧ stop head = true := by
  intro input token rest
  constructor
  · intro succeeds
    exact ⟨token, takeUntil_split stop bad succeeds, rfl, takeUntil_token stop bad succeeds,
      takeUntil_stops stop bad succeeds⟩
  · rintro ⟨_, rfl, rfl, clean, head, tail, rfl, stops⟩
    exact takeUntil_of_clean clean stops tail

end Onyxup.Lib.Incremental
