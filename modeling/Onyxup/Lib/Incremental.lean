import Mathlib.Data.List.Basic

/-!
Contract: parsers that are re-run from the start each time more input arrives.

Owns: the three-valued outcome of such a reader, its sequencing, the scanning
loop, and the laws that say what a verdict on a prefix of the input means for
longer inputs.

Does not own: any grammar. Nothing here mentions bytes, HTTP or a server.

Two laws carry everything. `Stable` says that a final verdict, success or
failure, survives every continuation of the input; only `incomplete` can
change. `Measured` adds how many unread symbols a success may depend on and how
many it is sure to read; a reader that needs no unread symbol leaves nothing
over when a single symbol completes its input.
-/

set_option autoImplicit false

namespace Onyxup.Lib.Incremental

variable {σ α β : Type}

/-- The verdict on the input received so far. -/
inductive Outcome (σ α : Type) where
  | done (value : α) (rest : List σ)
  | fail
  | incomplete
deriving DecidableEq, Repr

/-- A reader reads a prefix of its input and hands back the rest. -/
def Reader (σ α : Type) := List σ → Outcome σ α

namespace Reader

/-- Give up. -/
def reject : Reader σ α := fun _ => .fail

protected def pure (value : α) : Reader σ α := fun input => .done value input

protected def bind (first : Reader σ α) (next : α → Reader σ β) : Reader σ β :=
  fun input =>
    match first input with
    | .done value rest => next value rest
    | .fail => .fail
    | .incomplete => .incomplete

instance : Monad (Reader σ) where
  pure := Reader.pure
  bind := Reader.bind

@[simp] theorem pure_apply (value : α) (input : List σ) :
    (pure value : Reader σ α) input = .done value input := rfl

theorem bind_apply (first : Reader σ α) (next : α → Reader σ β)
    (input : List σ) :
    (first >>= next) input =
      match first input with
      | .done value rest => next value rest
      | .fail => .fail
      | .incomplete => .incomplete := rfl

/-- A successful sequence is a success of both halves. -/
theorem bind_done {first : Reader σ α} {next : α → Reader σ β}
    {input rest : List σ} {value : β}
    (succeeds : (first >>= next) input = .done value rest) :
    ∃ middle remaining, first input = .done middle remaining ∧
      next middle remaining = .done value rest := by
  rw [bind_apply] at succeeds
  cases verdict : first input with
  | done middle remaining =>
      rw [verdict] at succeeds
      exact ⟨middle, remaining, rfl, succeeds⟩
  | fail => rw [verdict] at succeeds; cases succeeds
  | incomplete => rw [verdict] at succeeds; cases succeeds

theorem bind_of_done {first : Reader σ α} {next : α → Reader σ β}
    {input rest : List σ} {value : α}
    (succeeds : first input = .done value rest) :
    (first >>= next) input = next value rest := by
  rw [bind_apply, succeeds]

/-- Read one symbol, whatever it is. -/
def item : Reader σ σ
  | [] => .incomplete
  | head :: tail => .done head tail

/-- Read one symbol that must be `expected`. -/
def expect [DecidableEq σ] (expected : σ) : Reader σ Unit
  | [] => .incomplete
  | head :: tail => if head = expected then .done () tail else .fail

/-- Read the given symbols, one after the other. -/
def expectAll [DecidableEq σ] : List σ → Reader σ Unit
  | [] => pure ()
  | head :: tail => do
      expect head
      expectAll tail

/-- Wait for `count` symbols before reading any. -/
def atLeast (count : Nat) (reader : Reader σ α) : Reader σ α :=
  fun input => if input.length < count then .incomplete else reader input

/-- Choose how to go on by the next symbol, which stays unread. -/
def byHead (choose : σ → Reader σ α) : Reader σ α
  | [] => .incomplete
  | head :: tail => choose head (head :: tail)

/-- Read up to, and not including, the first symbol that satisfies `stop`.
A symbol that satisfies `bad` before that is an error. -/
def takeUntil (stop bad : σ → Bool) : Reader σ (List σ)
  | [] => .incomplete
  | head :: tail =>
      if stop head then .done [] (head :: tail)
      else if bad head then .fail
      else
        match takeUntil stop bad tail with
        | .done token rest => .done (head :: token) rest
        | .fail => .fail
        | .incomplete => .incomplete

/-- Every symbol of a scanned token was tested against both predicates. -/
theorem takeUntil_token (stop bad : σ → Bool) :
    ∀ {input token rest : List σ},
      takeUntil stop bad input = .done token rest →
      ∀ symbol ∈ token, stop symbol = false ∧ bad symbol = false
  | [], _, _, succeeds => by cases succeeds
  | head :: tail, token, rest, succeeds => by
      simp only [takeUntil] at succeeds
      split at succeeds
      next =>
        cases succeeds
        simp
      next notStop =>
        split at succeeds
        next => cases succeeds
        next notBad =>
          cases verdict : takeUntil stop bad tail with
          | done inner remaining =>
              rw [verdict] at succeeds
              cases succeeds
              intro symbol member
              rcases List.mem_cons.mp member with rfl | member
              · exact ⟨by simpa using notStop, by simpa using notBad⟩
              · exact takeUntil_token stop bad verdict symbol member
          | fail => rw [verdict] at succeeds; cases succeeds
          | incomplete => rw [verdict] at succeeds; cases succeeds

end Reader

open Onyxup.Lib.Incremental.Reader

/-! ## Verdicts survive more input -/

/-- Final verdicts are final: more input neither undoes a success nor repairs a
failure, and a success hands back a suffix of what it was given. -/
structure Stable (reader : Reader σ α) : Prop where
  done_append : ∀ {input rest : List σ} {value : α} (more : List σ),
    reader input = .done value rest →
      reader (input ++ more) = .done value (rest ++ more)
  fail_append : ∀ {input : List σ} (more : List σ),
    reader input = .fail → reader (input ++ more) = .fail
  suffix : ∀ {input rest : List σ} {value : α},
    reader input = .done value rest → rest <:+ input

theorem stable_pure (value : α) :
    Stable (pure value : Reader σ α) where
  done_append := by
    intro input rest value more succeeds
    cases succeeds
    rfl
  fail_append := by
    intro input more fails
    cases fails
  suffix := by
    intro input rest value succeeds
    cases succeeds
    exact List.suffix_refl _

theorem stable_reject : Stable (reject : Reader σ α) where
  done_append := by
    intro input rest value more succeeds
    cases succeeds
  fail_append := fun _ _ => rfl
  suffix := by
    intro input rest value succeeds
    cases succeeds

theorem stable_item : Stable (item : Reader σ σ) where
  done_append := by
    intro input rest value more succeeds
    cases input with
    | nil => cases succeeds
    | cons head tail =>
        cases succeeds
        rfl
  fail_append := by
    intro input more fails
    cases input <;> cases fails
  suffix := by
    intro input rest value succeeds
    cases input with
    | nil => cases succeeds
    | cons head tail =>
        cases succeeds
        exact List.suffix_cons _ _

theorem stable_expect [DecidableEq σ] (expected : σ) :
    Stable (expect expected) where
  done_append := by
    intro input rest value more succeeds
    cases input with
    | nil => cases succeeds
    | cons head tail =>
        simp only [expect, List.cons_append] at succeeds ⊢
        split at succeeds
        next same =>
          cases succeeds
          rw [if_pos same]
        next => cases succeeds
  fail_append := by
    intro input more fails
    cases input with
    | nil => cases fails
    | cons head tail =>
        simp only [expect, List.cons_append] at fails ⊢
        split at fails
        next => cases fails
        next different => rw [if_neg different]
  suffix := by
    intro input rest value succeeds
    cases input with
    | nil => cases succeeds
    | cons head tail =>
        simp only [expect] at succeeds
        split at succeeds
        next =>
          cases succeeds
          exact List.suffix_cons _ _
        next => cases succeeds

theorem stable_atLeast {reader : Reader σ α} (count : Nat) (law : Stable reader) :
    Stable (atLeast count reader) where
  done_append := by
    intro input rest value more succeeds
    simp only [atLeast, List.length_append] at succeeds ⊢
    split at succeeds
    next => cases succeeds
    next enough =>
      rw [if_neg (by omega)]
      exact law.done_append more succeeds
  fail_append := by
    intro input more fails
    simp only [atLeast, List.length_append] at fails ⊢
    split at fails
    next => cases fails
    next enough =>
      rw [if_neg (by omega)]
      exact law.fail_append more fails
  suffix := by
    intro input rest value succeeds
    simp only [atLeast] at succeeds
    split at succeeds
    next => cases succeeds
    next => exact law.suffix succeeds

theorem stable_byHead {choose : σ → Reader σ α}
    (law : ∀ symbol, Stable (choose symbol)) : Stable (byHead choose) where
  done_append := by
    intro input rest value more succeeds
    cases input with
    | nil => cases succeeds
    | cons head tail => exact (law head).done_append more succeeds
  fail_append := by
    intro input more fails
    cases input with
    | nil => cases fails
    | cons head tail => exact (law head).fail_append more fails
  suffix := by
    intro input rest value succeeds
    cases input with
    | nil => cases succeeds
    | cons head tail => exact (law head).suffix succeeds

private theorem takeUntil_done_append (stop bad : σ → Bool) (more : List σ) :
    ∀ {input token rest : List σ},
      takeUntil stop bad input = .done token rest →
      takeUntil stop bad (input ++ more) = .done token (rest ++ more)
  | [], _, _, succeeds => by cases succeeds
  | head :: tail, token, rest, succeeds => by
      simp only [takeUntil, List.cons_append] at succeeds ⊢
      by_cases stops : stop head
      · rw [if_pos stops] at succeeds ⊢
        cases succeeds
        rfl
      · rw [if_neg stops] at succeeds ⊢
        by_cases isBad : bad head
        · rw [if_pos isBad] at succeeds
          cases succeeds
        · rw [if_neg isBad] at succeeds ⊢
          cases verdict : takeUntil stop bad tail with
          | done inner remaining =>
              rw [verdict] at succeeds
              cases succeeds
              rw [takeUntil_done_append stop bad more verdict]
          | fail => rw [verdict] at succeeds; cases succeeds
          | incomplete => rw [verdict] at succeeds; cases succeeds

private theorem takeUntil_fail_append (stop bad : σ → Bool) (more : List σ) :
    ∀ {input : List σ}, takeUntil stop bad input = .fail →
      takeUntil stop bad (input ++ more) = .fail
  | [], fails => by cases fails
  | head :: tail, fails => by
      simp only [takeUntil, List.cons_append] at fails ⊢
      by_cases stops : stop head
      · rw [if_pos stops] at fails
        cases fails
      · rw [if_neg stops] at fails ⊢
        by_cases isBad : bad head
        · rw [if_pos isBad]
        · rw [if_neg isBad] at fails ⊢
          cases verdict : takeUntil stop bad tail with
          | done inner remaining => rw [verdict] at fails; cases fails
          | fail => rw [takeUntil_fail_append stop bad more verdict]
          | incomplete => rw [verdict] at fails; cases fails

/-- A scan splits its input into the token and the rest. -/
theorem takeUntil_split (stop bad : σ → Bool) :
    ∀ {input token rest : List σ},
      takeUntil stop bad input = .done token rest → input = token ++ rest
  | [], _, _, succeeds => by cases succeeds
  | head :: tail, token, rest, succeeds => by
      simp only [takeUntil] at succeeds
      split at succeeds
      next =>
        cases succeeds
        rfl
      next =>
        split at succeeds
        next => cases succeeds
        next =>
          cases verdict : takeUntil stop bad tail with
          | done inner remaining =>
              rw [verdict] at succeeds
              cases succeeds
              rw [takeUntil_split stop bad verdict, List.cons_append]
          | fail => rw [verdict] at succeeds; cases succeeds
          | incomplete => rw [verdict] at succeeds; cases succeeds

theorem stable_takeUntil (stop bad : σ → Bool) :
    Stable (takeUntil stop bad) where
  done_append := fun more succeeds => takeUntil_done_append stop bad more succeeds
  fail_append := fun more fails => takeUntil_fail_append stop bad more fails
  suffix := fun succeeds => ⟨_, (takeUntil_split stop bad succeeds).symm⟩

/-- Sequencing keeps verdicts final. -/
theorem Stable.bind {first : Reader σ α} {next : α → Reader σ β}
    (firstLaw : Stable first) (nextLaw : ∀ value, Stable (next value)) :
    Stable (first >>= next) where
  done_append := by
    intro input rest value more succeeds
    obtain ⟨middle, remaining, firstDone, nextDone⟩ := bind_done succeeds
    rw [bind_of_done (firstLaw.done_append more firstDone)]
    exact (nextLaw middle).done_append more nextDone
  fail_append := by
    intro input more fails
    rw [bind_apply] at fails
    cases verdict : first input with
    | done middle remaining =>
        rw [verdict] at fails
        rw [bind_of_done (firstLaw.done_append more verdict)]
        exact (nextLaw middle).fail_append more fails
    | fail => rw [bind_apply, firstLaw.fail_append more verdict]
    | incomplete => rw [verdict] at fails; cases fails
  suffix := by
    intro input rest value succeeds
    obtain ⟨middle, remaining, firstDone, nextDone⟩ := bind_done succeeds
    exact ((nextLaw middle).suffix nextDone).trans (firstLaw.suffix firstDone)

/-- A proper prefix of an input that is accepted as a whole is incomplete. -/
theorem Stable.incomplete_of_append {reader : Reader σ α}
    (law : Stable reader) {front back : List σ} {value : α}
    (accepted : reader (front ++ back) = .done value [])
    (proper : back ≠ []) : reader front = .incomplete := by
  cases verdict : reader front with
  | done earlier rest =>
      have extended := law.done_append back verdict
      rw [accepted] at extended
      injection extended with _ restEmpty
      exact absurd (List.append_eq_nil_iff.mp restEmpty.symm).2 proper
  | fail =>
      rw [law.fail_append back verdict] at accepted
      cases accepted
  | incomplete => rfl

/-! ## How much unread input a success needs -/

/-- A stable reader with two numbers: a success that leaves more than `bound`
symbols unread is already a success without the last one, and a success reads
at least `count` symbols. -/
structure Measured (bound count : Nat) (reader : Reader σ α) : Prop
    extends Stable reader where
  lookahead : ∀ {front rest : List σ} {last : σ} {value : α},
    reader (front ++ [last]) = .done value rest → bound < rest.length →
      reader front = .done value rest.dropLast
  consumes : ∀ {input rest : List σ} {value : α},
    reader input = .done value rest → rest.length + count ≤ input.length

/-- The numbers may be given away. -/
theorem Measured.weaken {reader : Reader σ α} {bound count larger smaller : Nat}
    (law : Measured bound count reader) (up : bound ≤ larger)
    (down : smaller ≤ count) : Measured larger smaller reader where
  toStable := law.toStable
  lookahead := fun succeeds longer =>
    law.lookahead succeeds (Nat.lt_of_le_of_lt up longer)
  consumes := fun succeeds =>
    Nat.le_trans (Nat.add_le_add_left down _) (law.consumes succeeds)

theorem measured_pure (value : α) : Measured 0 0 (pure value : Reader σ α) where
  toStable := stable_pure value
  lookahead := by
    intro front rest last result succeeds _
    cases succeeds
    simp
  consumes := fun succeeds => ((stable_pure value).suffix succeeds).length_le

/-- A reader that never succeeds reads as much as one likes. -/
theorem measured_reject (count : Nat) : Measured 0 count (reject : Reader σ α) where
  toStable := stable_reject
  lookahead := by
    intro front rest last value succeeds
    cases succeeds
  consumes := by
    intro input rest value succeeds
    cases succeeds

theorem measured_item : Measured 0 1 (item : Reader σ σ) where
  toStable := stable_item
  lookahead := by
    intro front rest last value succeeds longer
    cases front with
    | nil =>
        cases succeeds
        simp at longer
    | cons head tail =>
        cases succeeds
        simp [item]
  consumes := by
    intro input rest value succeeds
    cases input with
    | nil => cases succeeds
    | cons head tail =>
        cases succeeds
        simp

theorem measured_expect [DecidableEq σ] (expected : σ) :
    Measured 0 1 (expect expected) where
  toStable := stable_expect expected
  lookahead := by
    intro front rest last value succeeds longer
    cases front with
    | nil =>
        simp only [expect, List.nil_append] at succeeds
        split at succeeds
        next =>
          cases succeeds
          simp at longer
        next => cases succeeds
    | cons head tail =>
        simp only [expect, List.cons_append] at succeeds ⊢
        split at succeeds
        next same =>
          cases succeeds
          rw [if_pos same, List.dropLast_concat]
        next => cases succeeds
  consumes := by
    intro input rest value succeeds
    cases input with
    | nil => cases succeeds
    | cons head tail =>
        simp only [expect] at succeeds
        split at succeeds
        next =>
          cases succeeds
          simp
        next => cases succeeds

/-- Choosing by the next symbol needs that symbol, which is no extra lookahead
when the chosen reader reads it or is allowed to leave one symbol unread. -/
theorem measured_byHead {choose : σ → Reader σ α} {bound count : Nat}
    (law : ∀ symbol, Measured bound count (choose symbol))
    (covered : 1 ≤ bound + count) : Measured bound count (byHead choose) where
  toStable := stable_byHead fun symbol => (law symbol).toStable
  lookahead := by
    intro front rest last value succeeds longer
    cases front with
    | nil =>
        have read := (law last).consumes succeeds
        simp only [List.length_singleton] at read
        omega
    | cons head tail => exact (law head).lookahead succeeds longer
  consumes := by
    intro input rest value succeeds
    cases input with
    | nil => cases succeeds
    | cons head tail => exact (law head).consumes succeeds

private theorem takeUntil_lookahead (stop bad : σ → Bool) (front : List σ) :
    ∀ {rest : List σ} {last : σ} {value : List σ},
      takeUntil stop bad (front ++ [last]) = .done value rest → 1 < rest.length →
        takeUntil stop bad front = .done value rest.dropLast := by
  induction front with
  | nil =>
      intro rest last value succeeds longer
      have lengths := congrArg List.length (takeUntil_split stop bad succeeds)
      simp at lengths
      omega
  | cons head tail inductionHypothesis =>
      intro rest last value succeeds longer
      simp only [takeUntil, List.cons_append] at succeeds ⊢
      by_cases stops : stop head
      · rw [if_pos stops] at succeeds ⊢
        cases succeeds
        rw [← List.cons_append, List.dropLast_concat]
      · rw [if_neg stops] at succeeds ⊢
        by_cases isBad : bad head
        · rw [if_pos isBad] at succeeds
          cases succeeds
        · rw [if_neg isBad] at succeeds ⊢
          cases verdict : takeUntil stop bad (tail ++ [last]) with
          | done inner remaining =>
              rw [verdict] at succeeds
              cases succeeds
              rw [inductionHypothesis verdict longer]
          | fail => rw [verdict] at succeeds; cases succeeds
          | incomplete => rw [verdict] at succeeds; cases succeeds

/-- A scan looks at the symbol it stops at, and at nothing beyond it. -/
theorem measured_takeUntil (stop bad : σ → Bool) :
    Measured 1 0 (takeUntil stop bad) where
  toStable := stable_takeUntil stop bad
  lookahead := fun succeeds longer =>
    takeUntil_lookahead stop bad _ succeeds longer
  consumes := fun succeeds =>
    ((stable_takeUntil stop bad).suffix succeeds).length_le

private theorem suffix_concat {front rest : List σ} {last : σ}
    (suffix : rest <:+ front ++ [last]) (nonempty : rest ≠ []) :
    rest = rest.dropLast ++ [last] := by
  obtain ⟨consumed, split⟩ := suffix
  have lastEq : rest.getLast nonempty = last := by
    have whole : (consumed ++ rest).getLast? = (front ++ [last]).getLast? := by
      rw [split]
    rw [List.getLast?_append, List.getLast?_eq_some_getLast nonempty] at whole
    simpa using whole
  rw [← lastEq]
  exact (List.dropLast_append_getLast nonempty).symm

/-- Sequencing forgives as much lookahead of the first reader as the second one
is sure to read. -/
theorem Measured.bind {first : Reader σ α} {next : α → Reader σ β}
    {left right firstCount nextCount : Nat}
    (firstLaw : Measured left firstCount first)
    (nextLaw : ∀ value, Measured right nextCount (next value))
    (covered : left ≤ right + nextCount) :
    Measured right (firstCount + nextCount) (first >>= next) where
  toStable := firstLaw.toStable.bind fun value => (nextLaw value).toStable
  lookahead := by
    intro front rest last value succeeds longer
    obtain ⟨middle, remaining, firstDone, nextDone⟩ := bind_done succeeds
    have read := (nextLaw middle).consumes nextDone
    have enough : left < remaining.length := by omega
    have nonempty : remaining ≠ [] := by
      rintro rfl
      simp at enough
    rw [bind_of_done (firstLaw.lookahead firstDone enough)]
    rw [suffix_concat (firstLaw.suffix firstDone) nonempty] at nextDone
    exact (nextLaw middle).lookahead nextDone longer
  consumes := by
    intro input rest value succeeds
    obtain ⟨middle, remaining, firstDone, nextDone⟩ := bind_done succeeds
    have firstRead := firstLaw.consumes firstDone
    have nextRead := (nextLaw middle).consumes nextDone
    omega

theorem measured_expectAll [DecidableEq σ] :
    ∀ symbols : List σ, Measured 0 symbols.length (expectAll symbols)
  | [] => measured_pure ()
  | head :: tail => by
      rw [List.length_cons, Nat.add_comm]
      exact (measured_expect head).bind (fun _ => measured_expectAll tail) (Nat.zero_le _)

/-- Waiting for more symbols than are read is lookahead. -/
theorem measured_atLeast {reader : Reader σ α} {bound count : Nat} (wanted : Nat)
    (law : Measured bound count reader) (covered : wanted ≤ bound + count) :
    Measured bound count (atLeast wanted reader) where
  toStable := stable_atLeast wanted law.toStable
  lookahead := by
    intro front rest last value succeeds longer
    simp only [atLeast, List.length_append, List.length_singleton] at succeeds ⊢
    split at succeeds
    next => cases succeeds
    next =>
      have read := law.consumes succeeds
      simp only [List.length_append, List.length_singleton] at read
      rw [if_neg (by omega)]
      exact law.lookahead succeeds longer
  consumes := by
    intro input rest value succeeds
    simp only [atLeast] at succeeds
    split at succeeds
    next => cases succeeds
    next => exact law.consumes succeeds

/-- When one more symbol turns `incomplete` into success, that symbol is read:
nothing is left over. -/
theorem Measured.rest_nil_of_incomplete {reader : Reader σ α} {count : Nat}
    (law : Measured 0 count reader) {front rest : List σ} {last : σ} {value : α}
    (waiting : reader front = .incomplete)
    (succeeds : reader (front ++ [last]) = .done value rest) : rest = [] := by
  by_contra nonempty
  have shorter := law.lookahead succeeds (List.length_pos_of_ne_nil nonempty)
  rw [waiting] at shorter
  cases shorter

end Onyxup.Lib.Incremental
