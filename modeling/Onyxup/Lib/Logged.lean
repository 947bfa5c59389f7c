import Onyxup.Lib.Fallible

/-!
Contract: fallible computations that leave a log of what they did.

Owns: the sequence of two such computations, its result and its log, and the rule
that every entry of a log has a property.

Does not own: what an entry says. A computation that fails keeps the entries it has
made until then.
-/

set_option autoImplicit false

namespace Onyxup.Lib

/-- The entries a computation has made, and how it ended. -/
structure Logged (ω ε α : Type) where
  log : List ω
  result : Except ε α

variable {ω ε α β : Type}

namespace Logged

/-- A computation that makes no entry. -/
def lift (result : Except ε α) : Logged ω ε α :=
  ⟨[], result⟩

/-- The second half runs only if the first one has ended well. -/
def andThen (first : Logged ω ε α) (next : α → Logged ω ε β) : Logged ω ε β :=
  match first.result with
  | .ok value => ⟨first.log ++ (next value).log, (next value).result⟩
  | .error fault => ⟨first.log, .error fault⟩

instance : Monad (Logged ω ε) where
  pure value := lift (.ok value)
  bind := andThen

@[simp] theorem lift_log (result : Except ε α) : (lift result : Logged ω ε α).log = [] := rfl

@[simp] theorem lift_result (result : Except ε α) :
    (lift result : Logged ω ε α).result = result := rfl

@[simp] theorem pure_log (value : α) : (pure value : Logged ω ε α).log = [] := rfl

@[simp] theorem pure_result (value : α) : (pure value : Logged ω ε α).result = .ok value := rfl

theorem bind_log_of_ok {first : Logged ω ε α} {value : α} (next : α → Logged ω ε β)
    (succeeds : first.result = .ok value) :
    (first >>= next).log = first.log ++ (next value).log := by
  change (first.andThen next).log = _
  rw [andThen, succeeds]

theorem bind_log_of_error {first : Logged ω ε α} {fault : ε} (next : α → Logged ω ε β)
    (fails : first.result = .error fault) : (first >>= next).log = first.log := by
  change (first.andThen next).log = _
  rw [andThen, fails]

/-- Without the log, a sequence is the sequence of the results. -/
@[simp] theorem bind_result (first : Logged ω ε α) (next : α → Logged ω ε β) :
    (first >>= next).result = first.result >>= fun value => (next value).result := by
  change (first.andThen next).result = _
  rw [andThen]
  cases first.result with
  | ok value => rfl
  | error fault => rfl

/-- Every entry of the log has the property. -/
def All (property : ω → Prop) (run : Logged ω ε α) : Prop :=
  ∀ entry ∈ run.log, property entry

variable {property : ω → Prop}

theorem all_lift (result : Except ε α) : (lift result : Logged ω ε α).All property := by
  intro entry member
  cases member

theorem all_pure (value : α) : (pure value : Logged ω ε α).All property :=
  all_lift (.ok value)

/-- The rule for a sequence whose first half ends well. -/
theorem all_bind_of_ok {first : Logged ω ε α} {value : α} (next : α → Logged ω ε β)
    (succeeds : first.result = .ok value) :
    (first >>= next).All property ↔ first.All property ∧ (next value).All property := by
  rw [All, bind_log_of_ok next succeeds]
  exact List.forall_mem_append

/-- The rule for a sequence whose first half fails. -/
theorem all_bind_of_error {first : Logged ω ε α} {fault : ε} (next : α → Logged ω ε β)
    (fails : first.result = .error fault) :
    (first >>= next).All property ↔ first.All property := by
  rw [All, bind_log_of_error next fails]
  rfl

/-- The rule for any sequence. -/
theorem All.bind {first : Logged ω ε α} {next : α → Logged ω ε β} (begins : first.All property)
    (continues : ∀ value, first.result = .ok value → (next value).All property) :
    (first >>= next).All property := by
  cases ended : first.result with
  | ok value => exact (all_bind_of_ok next ended).mpr ⟨begins, continues value ended⟩
  | error fault => exact (all_bind_of_error next ended).mpr begins

/-- What follows without an entry does not matter. -/
theorem all_bind_lift {first : Logged ω ε α} {next : α → Except ε β} :
    (first >>= fun value => lift (next value)).All property ↔ first.All property := by
  cases ended : first.result with
  | ok value =>
      rw [all_bind_of_ok _ ended]
      exact and_iff_left (all_lift _)
  | error fault => exact all_bind_of_error _ ended

end Logged

end Onyxup.Lib
