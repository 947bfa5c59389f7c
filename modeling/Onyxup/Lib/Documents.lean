import Mathlib.Data.List.Basic

/-!
Contract: structured documents, read through references that create what they
do not find.

Owns: documents over any keys and scalars, the look-up that only looks, the
access along a path that converts null to an object and a missing member to
null on its way, and what such an access leaves as it was.

Does not own: texts. How a document is parsed and what its scalars are is left
to the instance.
-/

set_option autoImplicit false

namespace Onyxup.Lib.Documents

/-- A member is looked up by its first occurrence. -/
inductive Document (κ σ : Type) where
  | null
  | scalar (value : σ)
  | array (elements : List (Document κ σ))
  | object (members : List (κ × Document κ σ))

namespace Document

variable {κ σ : Type} [DecidableEq κ]

/-- The members of a value that can be subscripted with a key. -/
def members? : Document κ σ → Option (List (κ × Document κ σ))
  | null => some []
  | object members => some members
  | scalar _ => none
  | array _ => none

/-- The look-up that changes nothing. -/
def find (key : κ) : Document κ σ → Option (Document κ σ)
  | object members => members.lookup key
  | _ => none

/-- The look-up along a path. -/
def follow : List κ → Document κ σ → Option (Document κ σ)
  | [], document => some document
  | key :: path, document => (document.find key).bind (follow path)

/-- The list with the member of this key replaced, or added at the end. -/
def setMember (key : κ) (value : Document κ σ) :
    List (κ × Document κ σ) → List (κ × Document κ σ)
  | [] => [(key, value)]
  | (other, old) :: rest =>
      if key = other then (other, value) :: rest else (other, old) :: setMember key value rest

/-- The reference that a chain of subscripts ends in, and the document behind
it. There is none when a value on the way is neither an object nor null. -/
def access : List κ → Document κ σ → Document κ σ × Option (Document κ σ)
  | [], document => (document, some document)
  | key :: path, document =>
      match document.members? with
      | none => (document, none)
      | some members =>
          let below := access path ((members.lookup key).getD null)
          (object (setMember key below.1 members), below.2)

/-! ## One member -/

theorem setMember_self {key : κ} {value : Document κ σ} {members : List (κ × Document κ σ)}
    (found : members.lookup key = some value) : setMember key value members = members := by
  induction members with
  | nil => cases found
  | cons member rest inductionHypothesis =>
      obtain ⟨other, old⟩ := member
      simp only [setMember]
      by_cases same : key = other
      · subst same
        rw [List.lookup_cons_self, Option.some.injEq] at found
        rw [if_pos rfl, found]
      · rw [List.lookup_cons, beq_false_of_ne same] at found
        rw [if_neg same, inductionHypothesis found]

theorem lookup_setMember_of_ne {key other : κ} {value : Document κ σ}
    (differs : other ≠ key) (members : List (κ × Document κ σ)) :
    (setMember key value members).lookup other = members.lookup other := by
  induction members with
  | nil =>
      simp only [setMember, List.lookup_cons, beq_false_of_ne differs]
  | cons member rest inductionHypothesis =>
      obtain ⟨name, old⟩ := member
      simp only [setMember]
      by_cases same : key = name
      · subst same
        rw [if_pos rfl, List.lookup_cons, List.lookup_cons, beq_false_of_ne differs]
      · rw [if_neg same, List.lookup_cons, List.lookup_cons, inductionHypothesis]

/-- A value with a member is an object. -/
theorem exists_members_of_find {key : κ} {document value : Document κ σ}
    (found : document.find key = some value) :
    ∃ members, document = object members ∧ members.lookup key = some value := by
  cases document with
  | object members => exact ⟨members, rfl, found⟩
  | null => cases found
  | scalar _ => cases found
  | array _ => cases found

/-! ## Paths -/

/-- A path that can be followed is accessed without a change. -/
theorem access_of_follow {path : List κ} {document value : Document κ σ}
    (found : document.follow path = some value) :
    document.access path = (document, some value) := by
  induction path generalizing document with
  | nil =>
      cases found
      rfl
  | cons key path inductionHypothesis =>
      obtain ⟨member, has, below⟩ := Option.bind_eq_some_iff.mp found
      obtain ⟨members, rfl, looked⟩ := exists_members_of_find has
      simp only [access, members?, looked, Option.getD_some, inductionHypothesis below,
        setMember_self looked]

/-- A single subscript of an object always refers to something, and every other
member stays what it was. -/
theorem access_member (members : List (κ × Document κ σ)) (key : κ) :
    ∃ after, (object members).access [key] =
        (object after, some (((object members).find key).getD null)) ∧
      ∀ other, other ≠ key → (object after).find other = (object members).find other := by
  refine ⟨_, rfl, ?_⟩
  intro other differs
  exact lookup_setMember_of_ne differs members

end Document

end Onyxup.Lib.Documents
