import Onyxup.Http.MultipartSlices

/-!
Contract: the loop of `multipartFormData` ends.

Owns: the loop on positions in the body, one turn at a time, with the map it fills; how many
turns it makes at most; and what can be in the map it returns.

Does not own: whether the ranges it copies are valid. A copy of an invalid range is a parameter:
any data can come back from it, or a fault, and no result depends on which.
-/

set_option autoImplicit false

namespace Onyxup.Http

open Onyxup.Lib
open Onyxup.Lib.CString

/-- What a `std::copy` between two iterators in the wrong order leaves behind. -/
abbrev StrayCopy := (body : Bytes) → (first last : Nat) → Except MultipartFault Bytes

/-- The copy from `position_data + 4` to `pos - 2`, if both have been found. -/
def copyBetween (strayCopy : StrayCopy) (body : Bytes) (positionData pos : Option Nat) :
    Except MultipartFault Bytes :=
  match positionData, pos with
  | some first, some last =>
      if first + 4 + 2 ≤ last then
        .ok ((body.drop (first + 4)).take (last - 2 - (first + 4)))
      else strayCopy body (first + 4) (last - 2)
  | _, _ => .ok []

/-- The body of the loop at `pos`: `none` for the `break`, or the next `pos` with the map. -/
def iteration (strayCopy : StrayCopy) (boundary body : Bytes) (pos : Nat) (fields : Fields) :
    Except MultipartFault (Option (Option Nat × Fields)) :=
  let text := body.drop (pos + boundary.length)
  if (find text contentDisposition).isNone then .ok none
  else do
    let name := readAttribute (ascii "name=") nameStops text
    let filename := readAttribute (ascii "filename=") nameStops text
    let contentType := readAttribute (ascii "Content-Type:") lineStops text
    let positionData := findAt body emptyLine (pos + boundary.length)
    let next := findAt body boundary (pos + boundary.length)
    let data ← copyBetween strayCopy body positionData next
    .ok (some (next, emplace fields ⟨name, filename, contentType, data⟩))

/-- The loop from `pos` on, `none` being `npos`. With `turns` used up it is still running, and
there is no outcome. -/
def loop (strayCopy : StrayCopy) (boundary body : Bytes) :
    (turns : Nat) → (pos : Option Nat) → Fields → Option (Except MultipartFault Fields)
  | _, none, fields => some (.ok fields)
  | 0, some _, _ => none
  | turns + 1, some pos, fields =>
      if pos < body.length then
        match iteration strayCopy boundary body pos fields with
        | .error fault => some (.error fault)
        | .ok none => some (.ok fields)
        | .ok (some (next, after)) => loop strayCopy boundary body turns next after
      else some (.ok fields)

/-- `multipartFormData`, as far as it gets in `turns` turns of its loop. -/
def multipartFormDataWithin (strayCopy : StrayCopy) (turns : Nat) (request : Request) :
    Option (Except MultipartFault Fields) :=
  match formBoundary request with
  | none => some (.ok ∅)
  | some boundary =>
      loop strayCopy boundary request.body turns (find request.body boundary) ∅

/-- The number of occurrences of the boundary in the body that do not overlap, from left to
right. -/
def boundaryCount (request : Request) : Nat :=
  match formBoundary request with
  | none => 0
  | some boundary => countMatches boundary 0 request.body

/-! ## One turn -/

section Turns

variable {strayCopy : StrayCopy} {boundary body : Bytes} {pos : Nat} {fields after : Fields}

/-- A turn goes on with the next search behind its delimiter, and adds one object. -/
theorem iteration_ok {next : Option Nat}
    (turned : iteration strayCopy boundary body pos fields = .ok (some (next, after))) :
    next = findAt body boundary (pos + boundary.length) ∧
      ∃ object, after = emplace fields object := by
  unfold iteration at turned
  dsimp only at turned
  split at turned
  next => cases turned
  next =>
    obtain ⟨data, _, turned⟩ := Fallible.bind_ok turned
    cases turned
    exact ⟨rfl, _, rfl⟩

/-- The next position is one of a delimiter, behind the one before. -/
theorem iteration_advances (nonempty : boundary ≠ []) {next : Nat}
    (turned : iteration strayCopy boundary body pos fields = .ok (some (some next, after))) :
    pos < next ∧ pos + boundary.length ≤ next ∧ OccursAt boundary body next := by
  obtain ⟨found, _⟩ := iteration_ok turned
  obtain ⟨offset, isFound, rfl⟩ := findAt_eq_some found.symm
  have positive := List.length_pos_of_ne_nil nonempty
  have occurs := ((find_eq_some_iff nonempty).mp isFound).1
  rw [OccursAt, List.drop_drop] at occurs
  exact ⟨by omega, by omega, occurs⟩

end Turns

/-! ## The map -/

/-- Every entry is an object under its own name, which is not empty. -/
def Named (fields : Fields) : Prop :=
  ∀ key object, fields.lookup key = some object → key ≠ [] ∧ key = object.name

theorem named_empty : Named ∅ := by
  intro key object found
  rw [Finmap.lookup_empty] at found
  cases found

theorem Named.emplace {fields : Fields} (named : Named fields)
    (object : MultipartFormDataObject) : Named (emplace fields object) := by
  unfold Http.emplace
  split
  next => exact named
  next nonempty =>
    split
    next => exact named
    next =>
      intro key found isFound
      by_cases same : key = object.name
      · subst same
        rw [Finmap.lookup_insert] at isFound
        cases isFound
        exact ⟨nonempty, rfl⟩
      · rw [Finmap.lookup_insert_of_ne _ same] at isFound
        exact named key found isFound

/-- An object is at most one more entry. -/
theorem card_emplace_le (fields : Fields) (object : MultipartFormDataObject) :
    (emplace fields object).keys.card ≤ fields.keys.card + 1 := by
  unfold emplace
  split
  next => exact Nat.le_succ _
  next =>
    split
    next => exact Nat.le_succ _
    next =>
      have keys : (fields.insert object.name object).keys = insert object.name fields.keys := by
        ext key
        rw [Finmap.mem_keys, Finmap.mem_insert, Finset.mem_insert, Finmap.mem_keys]
      rw [keys]
      exact Finset.card_insert_le _ _

/-! ## The whole loop -/

/-- The delimiters that are left from `pos` on. -/
def remaining (boundary body : Bytes) : Option Nat → Nat
  | none => 0
  | some pos => 1 + countMatches boundary 0 (body.drop (pos + boundary.length))

section Loop

variable {strayCopy : StrayCopy} {boundary body : Bytes} {fields result : Fields}
variable {pos : Option Nat} {outcome : Except MultipartFault Fields}

/-- A search leaves the delimiters that are behind its start. -/
theorem remaining_findAt (nonempty : boundary ≠ []) (start : Nat) :
    remaining boundary body (findAt body boundary start) =
      countMatches boundary 0 (body.drop start) := by
  rw [countMatches_eq nonempty, findAt]
  cases find (body.drop start) boundary with
  | none => rfl
  | some offset =>
      simp only [Option.map_some, remaining]
      rw [List.drop_drop, Nat.add_assoc]

theorem remaining_find (nonempty : boundary ≠ []) :
    remaining boundary body (find body boundary) = countMatches boundary 0 body := by
  have fromStart : findAt body boundary 0 = find body boundary := by
    simp [findAt]
  rw [← fromStart, remaining_findAt nonempty, List.drop_zero]

/-- Every turn uses up one delimiter. By induction on the turns. -/
theorem loop_ends (nonempty : boundary ≠ []) {turns : Nat}
    (enough : remaining boundary body pos ≤ turns) :
    ∃ outcome, loop strayCopy boundary body turns pos fields = some outcome := by
  induction turns generalizing pos fields with
  | zero =>
      cases pos with
      | none => exact ⟨_, rfl⟩
      | some pos =>
          rw [remaining] at enough
          omega
  | succ turns inductionHypothesis =>
      cases pos with
      | none => exact ⟨_, rfl⟩
      | some pos =>
          rw [loop]
          split
          next =>
            split
            next => exact ⟨_, rfl⟩
            next => exact ⟨_, rfl⟩
            next next after turned =>
              apply inductionHypothesis
              rw [(iteration_ok turned).1, remaining_findAt nonempty]
              rw [remaining] at enough
              omega
          next => exact ⟨_, rfl⟩

/-- More turns do not change an outcome. -/
theorem loop_mono {turns more : Nat} (atLeast : turns ≤ more)
    (ends : loop strayCopy boundary body turns pos fields = some outcome) :
    loop strayCopy boundary body more pos fields = some outcome := by
  induction turns generalizing pos fields more with
  | zero =>
      cases pos with
      | none =>
          rw [loop] at ends ⊢
          exact ends
      | some pos => cases ends
  | succ turns inductionHypothesis =>
      obtain ⟨more, rfl⟩ := Nat.exists_eq_add_of_lt atLeast
      cases pos with
      | none =>
          rw [loop] at ends ⊢
          exact ends
      | some pos =>
          rw [loop] at ends ⊢
          split at ends
          next inside =>
            rw [if_pos inside]
            split at ends
            next => exact ends
            next => exact ends
            next => exact inductionHypothesis (by omega) ends
          next outside =>
            rw [if_neg outside]
            exact ends

/-- The map that is returned is named, and every turn has added one entry at most. -/
theorem loop_fields (nonempty : boundary ≠ []) {turns : Nat} (named : Named fields)
    (returns : loop strayCopy boundary body turns pos fields = some (.ok result)) :
    Named result ∧ result.keys.card ≤ fields.keys.card + remaining boundary body pos := by
  induction turns generalizing pos fields with
  | zero =>
      cases pos with
      | none =>
          cases returns
          exact ⟨named, Nat.le_add_right _ _⟩
      | some pos => cases returns
  | succ turns inductionHypothesis =>
      cases pos with
      | none =>
          cases returns
          exact ⟨named, Nat.le_add_right _ _⟩
      | some pos =>
          rw [loop] at returns
          split at returns
          next =>
            split at returns
            next => cases returns
            next =>
              cases returns
              exact ⟨named, Nat.le_add_right _ _⟩
            next next after turned =>
              obtain ⟨isNext, object, rfl⟩ := iteration_ok turned
              obtain ⟨namedResult, few⟩ := inductionHypothesis (named.emplace object) returns
              refine ⟨namedResult, ?_⟩
              have oneMore := card_emplace_le fields object
              rw [isNext, remaining_findAt nonempty] at few
              rw [remaining]
              omega
          next =>
            cases returns
            exact ⟨named, Nat.le_add_right _ _⟩

end Loop

/-! ## The parser on the rest of the body -/

/-- A copy that is a fault, as in `multipartFormData`. -/
def refuseCopy : StrayCopy := fun _ _ _ => .error .invalidRange

section Parser

variable {boundary body : Bytes} {pos : Nat} {fields : Fields}

private theorem copyBetween_shift (start : Nat) (line : Option Nat) (stop : Nat) :
    copyBetween refuseCopy body (line.map (start + ·)) (some (start + stop)) =
      copyData (body.drop start) line stop := by
  cases line with
  | none => rfl
  | some line =>
      have width : start + stop - 2 - (start + (line + 4)) = stop - 2 - (line + 4) := by omega
      simp only [Option.map_some, copyBetween, copyData, List.drop_drop, width, Nat.add_assoc]
      by_cases room : line + (4 + 2) ≤ stop
      · rw [if_pos room, if_pos (Nat.add_le_add_left room start)]
      · rw [if_neg room, if_neg (fun shifted => room (Nat.le_of_add_le_add_left shifted))]
        rfl

/-- One turn is one part of the rest of the body. -/
theorem iteration_eq :
    iteration refuseCopy boundary body pos fields =
      (readPart boundary (body.drop (pos + boundary.length))).map fun part =>
        part.map fun objectAndRest =>
          (findAt body boundary (pos + boundary.length), emplace fields objectAndRest.1) := by
  unfold iteration readPart
  dsimp only
  split
  next => rfl
  next =>
    cases found : find (body.drop (pos + boundary.length)) boundary with
    | none =>
        have noNext : findAt body boundary (pos + boundary.length) = none := by
          rw [findAt, found, Option.map_none]
        rw [noNext]
        cases findAt body emptyLine (pos + boundary.length) <;> rfl
    | some offset =>
        rw [findAt_of_find found, findAt, copyBetween_shift]
        dsimp only
        cases copyData (body.drop (pos + boundary.length))
            (find (body.drop (pos + boundary.length)) emptyLine) offset <;> rfl

theorem readPart_rest {object : MultipartFormDataObject} {rest : Option Bytes} {text : Bytes}
    (reads : readPart boundary text = .ok (some (object, rest))) :
    rest = (find text boundary).map fun offset => text.drop (offset + boundary.length) := by
  unfold readPart at reads
  split at reads
  next => cases reads
  next =>
    dsimp only at reads
    split at reads
    next offset found =>
      obtain ⟨data, _, reads⟩ := Fallible.bind_ok reads
      cases reads
      rw [found, Option.map_some]
    next found =>
      cases reads
      rw [found, Option.map_none]

/-- A loop that has ended has done what the parser does with at least as many turns. By induction
on the turns. -/
theorem loop_eq_multipartParts {turns count : Nat} {outcome : Except MultipartFault Fields}
    (nonempty : boundary ≠ []) (inside : pos < body.length) (enough : turns ≤ count)
    (ends : loop refuseCopy boundary body turns (some pos) fields = some outcome) :
    (multipartParts boundary count (body.drop (pos + boundary.length)) >>= fun objects =>
      .ok (objects.foldl emplace fields)) = outcome := by
  induction turns generalizing pos fields count with
  | zero => cases ends
  | succ turns inductionHypothesis =>
      obtain ⟨count, rfl⟩ := Nat.exists_eq_succ_of_ne_zero (by omega : count ≠ 0)
      rw [loop, if_pos inside, iteration_eq] at ends
      rw [multipartParts]
      cases reads : readPart boundary (body.drop (pos + boundary.length)) with
      | error fault =>
          rw [reads] at ends
          exact Option.some.inj ends
      | ok part =>
          rw [reads] at ends
          cases part with
          | none => exact Option.some.inj ends
          | some objectAndRest =>
              obtain ⟨object, rest⟩ := objectAndRest
              change loop refuseCopy boundary body turns
                (findAt body boundary (pos + boundary.length)) (emplace fields object) =
                  some outcome at ends
              have isRest := readPart_rest reads
              cases found : find (body.drop (pos + boundary.length)) boundary with
              | none =>
                  rw [findAt, found, Option.map_none, loop] at ends
                  rw [isRest, found]
                  exact Option.some.inj ends
              | some offset =>
                  have stillInside : pos + boundary.length + offset < body.length := by
                    have within := find_some found
                    have positive := List.length_pos_of_ne_nil nonempty
                    rw [List.length_drop] at within
                    omega
                  rw [findAt_of_find found] at ends
                  have later := inductionHypothesis stillInside (Nat.le_of_succ_le_succ enough) ends
                  rw [isRest, found, Option.map_some, List.drop_drop, ← Nat.add_assoc, ← later]
                  dsimp only
                  cases multipartParts boundary count
                    (body.drop (pos + boundary.length + offset + boundary.length)) <;> rfl

/-- With enough turns this is the parser, and the turns that the parser has are enough. -/
theorem multipartFormDataWithin_eq (request : Request) {turns : Nat}
    (enough : boundaryCount request ≤ turns) :
    multipartFormDataWithin refuseCopy turns request = some (multipartFormData request) := by
  unfold boundaryCount at enough
  rw [multipartFormData_eq, multipartFormDataWithin]
  cases isBoundary : formBoundary request with
  | none => rfl
  | some boundary =>
      have nonempty := boundary_nonempty isBoundary
      rw [isBoundary] at enough
      dsimp only at enough ⊢
      rw [leadingParts]
      cases found : find request.body boundary with
      | none => cases turns <;> rfl
      | some pos =>
          have inside : pos < request.body.length := by
            have within := find_some found
            have positive := List.length_pos_of_ne_nil nonempty
            omega
          obtain ⟨outcome, ends⟩ : ∃ outcome, loop refuseCopy boundary request.body
              (countMatches boundary 0 request.body) (some pos) ∅ = some outcome := by
            apply loop_ends nonempty
            rw [← found, remaining_find nonempty]
          have parsed := loop_eq_multipartParts nonempty inside
            (countMatches_le_length boundary 0 request.body) ends
          rw [loop_mono enough ends, ← parsed]

end Parser

/-- **The multipart loop ends.** For every body and every content type, and whatever a copy of an
invalid range does: every turn goes on at a later delimiter or leaves the loop, as many turns as
there are delimiters in the body are enough for an outcome, and a map that is returned has only
objects under their own names, which are not empty, and at most one for every delimiter. -/
theorem multipart_loop_ends (strayCopy : StrayCopy) (request : Request) :
    ∃ outcome,
      (∀ turns, boundaryCount request ≤ turns →
        multipartFormDataWithin strayCopy turns request = some outcome) ∧
      (∀ fields, outcome = .ok fields →
        (∀ key object, fields.lookup key = some object → key ≠ [] ∧ key = object.name) ∧
          fields.keys.card ≤ boundaryCount request) ∧
      ∀ boundary, formBoundary request = some boundary →
        ∀ pos fields next after,
          iteration strayCopy boundary request.body pos fields = .ok (some (some next, after)) →
            pos < next ∧ pos + boundary.length ≤ next ∧ OccursAt boundary request.body next := by
  unfold multipartFormDataWithin boundaryCount
  cases isBoundary : formBoundary request with
  | none =>
      refine ⟨.ok ∅, fun turns _ => rfl, ?_, ?_⟩
      · intro fields returned
        cases returned
        exact ⟨named_empty, Nat.le_refl _⟩
      · intro boundary impossible
        cases impossible
  | some boundary =>
      have nonempty := boundary_nonempty isBoundary
      obtain ⟨outcome, ends⟩ : ∃ outcome, loop strayCopy boundary request.body
          (countMatches boundary 0 request.body) (find request.body boundary) ∅ = some outcome :=
        loop_ends nonempty (Nat.le_of_eq (remaining_find nonempty))
      refine ⟨outcome, fun turns enough => loop_mono enough ends, ?_, ?_⟩
      · rintro fields rfl
        obtain ⟨named, few⟩ := loop_fields nonempty named_empty ends
        rw [remaining_find nonempty, Finmap.keys_empty, Finset.card_empty, Nat.zero_add] at few
        exact ⟨named, few⟩
      · intro other isOther pos fields next after turned
        cases isOther
        exact iteration_advances nonempty turned

end Onyxup.Http
