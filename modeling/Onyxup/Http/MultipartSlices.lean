import Onyxup.Http.Multipart

/-!
Contract: the ranges that `multipartFormData` copies, in positions of the body.

Owns: the turns of the loop over the parts with the absolute positions of their searches,
the equivalence between valid ranges and a parser that returns, and the exact condition
under which every range is valid.

Does not own: what is done with the copied bytes.

The start of a range comes from the first empty line behind the delimiter, its end from the
next delimiter. Nothing relates the two searches.
-/

set_option autoImplicit false

namespace Onyxup.Http

open Onyxup.Lib
open Onyxup.Lib.CString

/-- `body.find(needle, from)`. -/
def findAt (body needle : Bytes) (start : Nat) : Option Nat :=
  (find (body.drop start) needle).map (start + ·)

/-- The boundary that the loop runs with, if the content type leads there. -/
def formBoundary (request : Request) : Option Bytes :=
  match request.headers.lookup (ascii "content-type") with
  | none => none
  | some contentType =>
      match find contentType (ascii "boundary=") with
      | none => none
      | some pos =>
          if (find contentType (ascii "multipart/form-data")).isNone then none
          else if contentType.drop (pos + 9) = [] then none
          else some (contentType.drop (pos + 9))

section Turns

variable (boundary body : Bytes)

/-- The turn of the loop that starts at `pos` is not left by the `break`. -/
def Disposed (pos : Nat) : Prop :=
  (findAt body contentDisposition (pos + boundary.length)).isSome = true

/-- The values of `pos` with which the loop body is entered. -/
inductive Turn : Nat → Prop where
  | first {pos : Nat} (found : find body boundary = some pos) : Turn pos
  | next {pos stop : Nat} (before : Turn pos) (disposed : Disposed boundary body pos)
      (found : findAt body boundary (pos + boundary.length) = some stop) : Turn stop

/-- The turn at `pos` copies data: it has found an empty line and a next delimiter. -/
structure Copies (pos positionData stop : Nat) : Prop where
  turn : Turn boundary body pos
  disposed : Disposed boundary body pos
  line : findAt body emptyLine (pos + boundary.length) = some positionData
  ends : findAt body boundary (pos + boundary.length) = some stop

/-- `[position_data + 4, stop - 2)` is a range of the body, without underflow, and lies between
the two delimiters of the part. -/
structure ValidSlice (pos positionData stop : Nat) : Prop where
  noUnderflow : 2 ≤ stop
  ordered : positionData + 4 ≤ stop - 2
  inside : stop - 2 ≤ body.length
  behindDelimiter : pos + boundary.length ≤ positionData + 4
  beforeDelimiter : stop - 2 ≤ stop ∧ boundary <+: body.drop stop

end Turns

/-- Every range that the loop copies is valid. -/
def SlicesValid (request : Request) : Prop :=
  ∀ boundary, formBoundary request = some boundary →
    ∀ pos positionData stop, Copies boundary request.body pos positionData stop →
      ValidSlice boundary request.body pos positionData stop

/-- The bytes between two delimiters. -/
def partBetween (boundary body : Bytes) (pos stop : Nat) : Bytes :=
  (body.drop (pos + boundary.length)).take (stop - (pos + boundary.length))

/-- The part has an empty line with at least two bytes behind it. -/
def HasData (part : Bytes) : Prop :=
  ∃ head data, part = head ++ emptyLine ++ data ∧ 2 ≤ data.length

/-- Every part that the loop comes to and that a delimiter ends has data, unless no empty line
follows anywhere. -/
def PartsHaveData (request : Request) : Prop :=
  ∀ boundary, formBoundary request = some boundary →
    ∀ pos stop, Turn boundary request.body pos → Disposed boundary request.body pos →
      findAt request.body boundary (pos + boundary.length) = some stop →
      emptyLine <:+: request.body.drop (pos + boundary.length) →
      HasData (partBetween boundary request.body pos stop)

/-! ## Positions -/

section Positions

variable {boundary body text : Bytes} {pos positionData stop : Nat}

theorem findAt_eq_some {needle : Bytes} {start index : Nat}
    (found : findAt body needle start = some index) :
    ∃ offset, find (body.drop start) needle = some offset ∧ index = start + offset := by
  obtain ⟨offset, isFound, rfl⟩ := Option.map_eq_some_iff.mp found
  exact ⟨offset, isFound, rfl⟩

theorem findAt_of_find {needle : Bytes} {start offset : Nat}
    (found : find (body.drop start) needle = some offset) :
    findAt body needle start = some (start + offset) := by
  rw [findAt, found, Option.map_some]

/-- The first empty line is at least six bytes in front of `stop` if any empty line is. -/
theorem hasData_iff {line : Nat} (found : find text emptyLine = some line)
    (inside : stop ≤ text.length) : HasData (text.take stop) ↔ line + 4 + 2 ≤ stop := by
  have width : emptyLine.length = 4 := by decide
  obtain ⟨occurs, first⟩ := (find_eq_some_iff (by decide)).mp found
  constructor
  · rintro ⟨head, data, part, long⟩
    have lengths := congrArg List.length part
    simp only [List.length_append, List.length_take, width] at lengths
    have here : OccursAt emptyLine text head.length := by
      rw [OccursAt, ← List.take_append_drop stop text, part, List.append_assoc,
        List.append_assoc, List.drop_left]
      exact List.prefix_append _ _
    have notBefore : line ≤ head.length := by
      by_contra before
      exact first head.length (by omega) here
    omega
  · intro room
    obtain ⟨rest, here⟩ := occurs
    have front : (text.take line).length = line := List.length_take_of_le (by omega)
    have whole : text = text.take line ++ emptyLine ++ rest := by
      rw [List.append_assoc, here, List.take_append_drop]
    have lengths := congrArg List.length whole
    simp only [List.length_append, front, width] at lengths
    refine ⟨text.take line, rest.take (stop - (line + 4)), ?_, ?_⟩
    · conv_lhs => rw [whole]
      rw [List.take_append, List.take_of_length_le]
      · simp only [List.length_append, front, width]
      · simp only [List.length_append, front, width]
        omega
    · rw [List.length_take]
      omega

theorem boundary_nonempty {request : Request} (isBoundary : formBoundary request = some boundary) :
    boundary ≠ [] := by
  unfold formBoundary at isBoundary
  split at isBoundary
  next => cases isBoundary
  next =>
    split at isBoundary
    next => cases isBoundary
    next =>
      split at isBoundary
      next => cases isBoundary
      next =>
        split at isBoundary
        next => cases isBoundary
        next nonempty =>
          cases isBoundary
          exact nonempty

/-- In offsets from the end of the first delimiter only the order of the two searches is
left. -/
theorem validSlice_iff {line offset : Nat} (nonempty : boundary ≠ [])
    (found : find (body.drop (pos + boundary.length)) boundary = some offset) :
    ValidSlice boundary body pos (pos + boundary.length + line) (pos + boundary.length + offset) ↔
      line + 4 + 2 ≤ offset := by
  have inside := find_some found
  have positive := List.length_pos_of_ne_nil nonempty
  rw [List.length_drop] at inside
  constructor
  · intro valid
    have underflow := valid.noUnderflow
    have ordered := valid.ordered
    omega
  · intro room
    have occurs := ((find_eq_some_iff nonempty).mp found).1
    rw [OccursAt, List.drop_drop] at occurs
    exact ⟨by omega, by omega, by omega, by omega, by omega, occurs⟩

end Positions

/-! ## The parser that returns -/

section Returns

variable {boundary body : Bytes} {pos : Nat}

theorem multipartFormData_eq (request : Request) :
    multipartFormData request =
      match formBoundary request with
      | none => .ok ∅
      | some boundary =>
          leadingParts boundary request.body request.body.length >>= fun objects =>
            .ok (objects.foldl emplace ∅) := by
  unfold multipartFormData formBoundary
  cases request.headers.lookup (ascii "content-type") with
  | none => rfl
  | some contentType =>
      dsimp only
      cases find contentType (ascii "boundary=") with
      | none => rfl
      | some pos =>
          dsimp only
          split
          next => rfl
          next =>
            split
            next => rfl
            next => rfl

/-- The turn at `pos` copies nothing, or a valid range. -/
def CopiesSafely (boundary body : Bytes) (pos : Nat) : Prop :=
  ∀ positionData stop, Copies boundary body pos positionData stop →
    ValidSlice boundary body pos positionData stop

/-- A turn that comes to a next delimiter goes on behind it, or its copy is a fault. -/
theorem readPart_of_next {offset : Nat} (nonempty : boundary ≠ []) (turn : Turn boundary body pos)
    (disposed : Disposed boundary body pos)
    (boundaryAt : find (body.drop (pos + boundary.length)) boundary = some offset) :
    (CopiesSafely boundary body pos ∧ ∃ object,
      readPart boundary (body.drop (pos + boundary.length)) =
        .ok (some (object, some (body.drop (pos + boundary.length + offset + boundary.length))))) ∨
    (¬ CopiesSafely boundary body pos ∧
      readPart boundary (body.drop (pos + boundary.length)) = .error .invalidRange) := by
  have present : (find (body.drop (pos + boundary.length)) contentDisposition).isNone = false := by
    rw [Disposed, findAt, Option.isSome_map] at disposed
    rw [← Option.not_isSome, disposed]
    rfl
  have ends : findAt body boundary (pos + boundary.length) =
      some (pos + boundary.length + offset) := findAt_of_find boundaryAt
  have rest : (body.drop (pos + boundary.length)).drop (offset + boundary.length) =
      body.drop (pos + boundary.length + offset + boundary.length) := by
    rw [List.drop_drop, Nat.add_assoc (pos + boundary.length)]
  rw [readPart, present, if_neg Bool.false_ne_true, boundaryAt]
  dsimp only
  rw [rest]
  cases lineAt : find (body.drop (pos + boundary.length)) emptyLine with
  | none =>
      refine .inl ⟨?_, _, rfl⟩
      intro positionData stop copies
      obtain ⟨line, isFound, _⟩ := findAt_eq_some copies.line
      rw [lineAt] at isFound
      cases isFound
  | some line =>
      have lineFound : findAt body emptyLine (pos + boundary.length) =
          some (pos + boundary.length + line) := findAt_of_find lineAt
      have inOffsets : CopiesSafely boundary body pos ↔ line + 4 + 2 ≤ offset := by
        rw [← validSlice_iff nonempty boundaryAt]
        constructor
        · intro safe
          exact safe _ _ ⟨turn, disposed, lineFound, ends⟩
        · intro valid positionData stop copies
          rw [Option.some.inj (copies.line.symm.trans lineFound),
            Option.some.inj (copies.ends.symm.trans ends)]
          exact valid
      rw [inOffsets, copyData]
      by_cases room : line + 4 + 2 ≤ offset
      · rw [if_pos room]
        exact .inl ⟨room, _, rfl⟩
      · rw [if_neg room]
        exact .inr ⟨room, rfl⟩

/-- A loop that ends well has copied a valid range in its first turn, and ends well from the next
delimiter on. -/
theorem multipartParts_of_next {offset count : Nat} {objects : List MultipartFormDataObject}
    (nonempty : boundary ≠ []) (turn : Turn boundary body pos)
    (disposed : Disposed boundary body pos)
    (boundaryAt : find (body.drop (pos + boundary.length)) boundary = some offset)
    (runs : multipartParts boundary (count + 1) (body.drop (pos + boundary.length)) =
      .ok objects) :
    CopiesSafely boundary body pos ∧ ∃ others, multipartParts boundary count
      (body.drop (pos + boundary.length + offset + boundary.length)) = .ok others := by
  rcases readPart_of_next nonempty turn disposed boundaryAt with
    ⟨safe, object, reads⟩ | ⟨_, fails⟩
  · refine ⟨safe, ?_⟩
    rw [multipartParts_succ reads] at runs
    cases later : multipartParts boundary count
        (body.drop (pos + boundary.length + offset + boundary.length)) with
    | ok others => exact ⟨others, rfl⟩
    | error fault =>
        rw [later] at runs
        cases runs
  · rw [multipartParts, fails] at runs
    cases runs

/-- The other turns end the loop. -/
theorem multipartParts_of_last (count : Nat)
    (last : ¬ Disposed boundary body pos ∨
      find (body.drop (pos + boundary.length)) boundary = none) :
    ∃ objects, multipartParts boundary count (body.drop (pos + boundary.length)) =
      .ok objects := by
  cases count with
  | zero => exact ⟨[], rfl⟩
  | succ count =>
      rw [multipartParts, readPart]
      by_cases absent : (find (body.drop (pos + boundary.length)) contentDisposition).isNone = true
      · rw [if_pos absent]
        exact ⟨[], rfl⟩
      · have noBoundary : find (body.drop (pos + boundary.length)) boundary = none := by
          apply last.resolve_left
          intro notDisposed
          apply notDisposed
          rw [Disposed, findAt, Option.isSome_map, ← Option.not_isNone,
            Bool.eq_false_iff.mpr absent]
          rfl
        rw [if_neg absent, noBoundary]
        exact ⟨_, rfl⟩

/-- A turn begins in front of a delimiter. -/
theorem Turn.inside (nonempty : boundary ≠ []) (turn : Turn boundary body pos) :
    pos + boundary.length ≤ body.length := by
  cases turn with
  | first found => exact find_some found
  | next before disposed found =>
      obtain ⟨offset, isFound, rfl⟩ := findAt_eq_some found
      have inside := find_some isFound
      have positive := List.length_pos_of_ne_nil nonempty
      rw [List.length_drop] at inside
      omega

private theorem multipartParts_of_safe (nonempty : boundary ≠ [])
    (safe : ∀ pos, Turn boundary body pos → CopiesSafely boundary body pos) (count : Nat) :
    ∀ {pos : Nat}, Turn boundary body pos →
      ∃ objects, multipartParts boundary count (body.drop (pos + boundary.length)) =
        .ok objects := by
  induction count with
  | zero => exact fun _ => ⟨[], rfl⟩
  | succ count inductionHypothesis =>
      intro pos turn
      by_cases disposed : Disposed boundary body pos
      · cases boundaryAt : find (body.drop (pos + boundary.length)) boundary with
        | none => exact multipartParts_of_last _ (.inr boundaryAt)
        | some offset =>
            obtain ⟨_, object, reads⟩ := (readPart_of_next nonempty turn disposed
              boundaryAt).resolve_right fun faults => faults.1 (safe pos turn)
            have next : Turn boundary body (pos + boundary.length + offset) :=
              .next turn disposed (findAt_of_find boundaryAt)
            obtain ⟨objects, runs⟩ := inductionHypothesis next
            rw [multipartParts_succ reads, runs]
            exact ⟨_, rfl⟩
      · exact multipartParts_of_last _ (.inl disposed)

private theorem multipartParts_of_turn (nonempty : boundary ≠ [])
    {objects : List MultipartFormDataObject}
    (runs : leadingParts boundary body body.length = .ok objects) (turn : Turn boundary body pos) :
    ∃ count objects, body.length ≤ count + pos ∧
      multipartParts boundary count (body.drop (pos + boundary.length)) = .ok objects := by
  -- From every turn on the loop ends well, with as many turns left as there are bytes.
  induction turn with
  | first found =>
      rw [leadingParts, found] at runs
      exact ⟨body.length, objects, Nat.le_add_right _ _, runs⟩
  | @next pos stop before disposed found inductionHypothesis =>
      obtain ⟨count, objects, enough, runs⟩ := inductionHypothesis
      obtain ⟨offset, boundaryAt, rfl⟩ := findAt_eq_some found
      have inside := before.inside nonempty
      have positive := List.length_pos_of_ne_nil nonempty
      obtain ⟨count, rfl⟩ := Nat.exists_eq_succ_of_ne_zero (by omega : count ≠ 0)
      obtain ⟨_, others, later⟩ :=
        multipartParts_of_next nonempty before disposed boundaryAt runs
      exact ⟨count, others, by omega, later⟩

end Returns

/-- The parser returns exactly if every range it copies is valid. -/
theorem multipartFormData_returns_iff (request : Request) :
    (∃ fields, multipartFormData request = .ok fields) ↔ SlicesValid request := by
  rw [multipartFormData_eq]
  cases isBoundary : formBoundary request with
  | none =>
      refine iff_of_true ⟨∅, rfl⟩ ?_
      intro boundary other
      rw [isBoundary] at other
      cases other
  | some boundary =>
      have nonempty := boundary_nonempty isBoundary
      constructor
      · rintro ⟨fields, returns⟩ other isOther pos positionData stop copies
        rw [isBoundary] at isOther
        cases isOther
        obtain ⟨objects, runs, _⟩ := Fallible.bind_ok returns
        obtain ⟨count, others, enough, later⟩ :=
          multipartParts_of_turn nonempty runs copies.turn
        have inside := copies.turn.inside nonempty
        have positive := List.length_pos_of_ne_nil nonempty
        obtain ⟨offset, boundaryAt, _⟩ := findAt_eq_some copies.ends
        obtain ⟨count, rfl⟩ := Nat.exists_eq_succ_of_ne_zero (by omega : count ≠ 0)
        exact (multipartParts_of_next nonempty copies.turn copies.disposed boundaryAt
          later).1 positionData stop copies
      · intro valid
        have safe : ∀ pos, Turn boundary request.body pos →
            CopiesSafely boundary request.body pos :=
          fun pos _ => valid boundary isBoundary pos
        dsimp only
        rw [leadingParts]
        cases found : find request.body boundary with
        | none => exact ⟨_, rfl⟩
        | some pos =>
            obtain ⟨objects, runs⟩ :=
              multipartParts_of_safe nonempty safe request.body.length (.first found)
            dsimp only
            rw [runs]
            exact ⟨_, rfl⟩

/-! ## The condition -/

/-- **The copied ranges.** For every body and every content type: all ranges that the loop copies
are valid exactly if every part that it comes to has an empty line with two bytes behind it, or
nothing behind its beginning has one. -/
theorem slices_valid_iff (request : Request) : SlicesValid request ↔ PartsHaveData request := by
  constructor
  · intro valid boundary isBoundary pos stop turn disposed ends hasLine
    obtain ⟨offset, boundaryAt, rfl⟩ := findAt_eq_some ends
    have lineAt : find (request.body.drop (pos + boundary.length)) emptyLine ≠ none := by
      intro absent
      exact (find_eq_none_iff_absent (by decide)).mp absent hasLine
    obtain ⟨line, lineAt⟩ := Option.ne_none_iff_exists'.mp lineAt
    have inside := find_some boundaryAt
    have slice := valid boundary isBoundary pos (pos + boundary.length + line) _
      ⟨turn, disposed, findAt_of_find lineAt, ends⟩
    rw [partBetween, Nat.add_sub_cancel_left, hasData_iff lineAt (by omega)]
    exact (validSlice_iff (boundary_nonempty isBoundary) boundaryAt).mp slice
  · intro haveData boundary isBoundary pos positionData stop copies
    obtain ⟨line, lineAt, rfl⟩ := findAt_eq_some copies.line
    obtain ⟨offset, boundaryAt, rfl⟩ := findAt_eq_some copies.ends
    have inside := find_some boundaryAt
    have hasLine : emptyLine <:+: request.body.drop (pos + boundary.length) := by
      obtain ⟨occurs, _⟩ := (find_eq_some_iff (by decide)).mp lineAt
      exact occurs.isInfix.trans (List.drop_suffix _ _).isInfix
    have part := haveData boundary isBoundary pos _ copies.turn copies.disposed copies.ends hasLine
    rw [partBetween, Nat.add_sub_cancel_left, hasData_iff lineAt (by omega)] at part
    exact (validSlice_iff (boundary_nonempty isBoundary) boundaryAt).mpr part

/-- A part without an empty line in front of one that has it. -/
def headlessUpload : Request :=
  { requestFactory 1 1024 with
    headers := (∅ : Dict).insert (ascii "content-type")
      (ascii "multipart/form-data; boundary=--x")
    body := ascii "--x\r\nContent-Disposition: form-data; name=\"a\"\r\n" ++
      ascii "--x\r\nContent-Disposition: form-data; name=\"b\"\r\n\r\n1\r\n--x--" }

/-- The first part takes the empty line of the second one: the range begins at 96 and ends at
45. -/
theorem headless_upload_copies_backwards : ¬ SlicesValid headlessUpload := by
  intro valid
  have slice := valid (ascii "--x") (by decide +kernel) 0 92 47
    { turn := .first (by decide +kernel)
      disposed := by unfold Disposed; decide +kernel
      line := by decide +kernel
      ends := by decide +kernel }
  exact absurd slice.ordered (by decide)

end Onyxup.Http
