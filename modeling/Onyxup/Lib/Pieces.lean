import Mathlib.Data.List.Basic

/-!
Contract: a text cut at every occurrence of a separator.

Owns: what the pieces of `List.splitOn` contain, when the last one is empty, and the two
halves of a text around its first separator.

Does not own: putting pieces together again, which is in the library.
-/

set_option autoImplicit false

namespace Onyxup.Lib.Pieces

variable {α : Type} [BEq α] [LawfulBEq α] {separator item : α} {text piece : List α}

omit [BEq α] [LawfulBEq α] in
/-- Everything in a joined text is the separator or in a piece. -/
theorem exists_of_mem_intercalate {pieces : List (List α)}
    (member : item ∈ [separator].intercalate pieces) (different : item ≠ separator) :
    ∃ piece ∈ pieces, item ∈ piece := by
  induction pieces with
  | nil => cases member
  | cons first rest inductionHypothesis =>
      by_cases last : rest = []
      · rw [last, List.intercalate_singleton] at member
        exact ⟨first, List.mem_cons_self, member⟩
      · rw [List.intercalate_cons_of_ne_nil last, List.mem_append, List.mem_append,
          List.mem_singleton] at member
        rcases member with (inFirst | isSeparator) | later
        · exact ⟨first, List.mem_cons_self, inFirst⟩
        · exact absurd isSeparator different
        · obtain ⟨piece, isPiece, inPiece⟩ := inductionHypothesis later
          exact ⟨piece, List.mem_cons_of_mem _ isPiece, inPiece⟩

/-- Everything but the separator is in a piece. -/
theorem exists_mem_splitOn (member : item ∈ text) (different : item ≠ separator) :
    ∃ piece ∈ text.splitOn separator, item ∈ piece := by
  have whole : [separator].intercalate (text.splitOn separator) = text :=
    List.intercalate_splitOn separator
  rw [← whole] at member
  exact exists_of_mem_intercalate member different

private theorem splitOn_of_last (last : text.getLast? = some item) (different : item ≠ separator) :
    ∃ front piece, text.splitOn separator = front ++ [piece ++ [item]] := by
  induction text with
  | nil => cases last
  | cons head tail inductionHypothesis =>
      cases tail with
      | nil =>
          cases last
          refine ⟨[], [], List.splitOn_eq_singleton ?_⟩
          simpa using different.symm
      | cons next rest =>
          rw [List.getLast?_cons_cons] at last
          obtain ⟨front, piece, pieces⟩ := inductionHypothesis last
          rw [List.splitOn_cons_eq_if_modifyHead, pieces]
          split
          next => exact ⟨[] :: front, piece, rfl⟩
          next =>
            cases front with
            | nil => exact ⟨[], head :: piece, rfl⟩
            | cons first front => exact ⟨(head :: first) :: front, piece, rfl⟩

/-- The last piece is empty if nothing stands behind the last separator. -/
theorem getLast?_splitOn_eq_nil_iff :
    (text.splitOn separator).getLast? = some [] ↔
      text = [] ∨ text.getLast? = some separator := by
  cases last : text.getLast? with
  | none =>
      rw [List.getLast?_eq_none_iff.mp last]
      simp
  | some item =>
      have nonempty : text ≠ [] := by
        rintro rfl
        cases last
      rw [or_iff_right nonempty, Option.some_inj]
      by_cases same : item = separator
      · refine iff_of_true ?_ same
        obtain ⟨front, rfl⟩ := List.getLast?_eq_some_iff.mp last
        rw [same, List.splitOn_append_cons_self, List.splitOn_nil, List.getLast?_concat]
      · refine iff_of_false ?_ same
        obtain ⟨front, piece, pieces⟩ := splitOn_of_last last same
        rw [pieces, List.getLast?_concat]
        simp

omit [LawfulBEq α] in
/-- Every piece is part of the text. By induction on the text. -/
theorem mem_of_mem_splitOn (isPiece : piece ∈ text.splitOn separator) (member : item ∈ piece) :
    item ∈ text := by
  induction text generalizing piece with
  | nil =>
      rw [List.splitOn_nil, List.mem_singleton] at isPiece
      rwa [isPiece] at member
  | cons head tail inductionHypothesis =>
      rw [List.splitOn_cons_eq_if_modifyHead] at isPiece
      split at isPiece
      next =>
        rcases List.mem_cons.mp isPiece with rfl | later
        · cases member
        · exact List.mem_cons_of_mem _ (inductionHypothesis later member)
      next =>
        obtain ⟨first, rest, pieces⟩ := List.exists_cons_of_ne_nil
          (List.splitOn_ne_nil separator tail)
        rw [pieces] at inductionHypothesis isPiece
        rcases List.mem_cons.mp isPiece with rfl | later
        · rcases List.mem_cons.mp member with rfl | inFirst
          · exact List.mem_cons_self
          · exact List.mem_cons_of_mem _ (inductionHypothesis List.mem_cons_self inFirst)
        · exact List.mem_cons_of_mem _
            (inductionHypothesis (List.mem_cons_of_mem _ later) member)

/-! ## The first separator -/

/-- The text in front of the first separator and the text behind it. -/
def cutAt (separator : α) : List α → Option (List α × List α)
  | [] => none
  | head :: tail =>
      if head == separator then some ([], tail)
      else (cutAt separator tail).map fun halves => (head :: halves.1, halves.2)

theorem cutAt_eq_none_iff : cutAt separator text = none ↔ separator ∉ text := by
  induction text with
  | nil => simp [cutAt]
  | cons head tail inductionHypothesis =>
      rw [cutAt]
      split
      next same => simp [eq_of_beq same]
      next different =>
        have notHere : separator ≠ head := by
          rintro rfl
          exact different BEq.rfl
        rw [Option.map_eq_none_iff, inductionHypothesis, List.mem_cons, not_or]
        exact (and_iff_right notHere).symm

theorem cutAt_append {front : List α} (missing : separator ∉ front) (back : List α) :
    cutAt separator (front ++ separator :: back) = some (front, back) := by
  induction front with
  | nil => rw [List.nil_append, cutAt, if_pos BEq.rfl]
  | cons head tail inductionHypothesis =>
      have different : ¬ (head == separator) = true := by
        intro same
        exact missing (by rw [eq_of_beq same]; exact List.mem_cons_self)
      rw [List.cons_append, cutAt, if_neg different,
        inductionHypothesis fun member => missing (List.mem_cons_of_mem _ member)]
      rfl

theorem eq_append_of_cutAt {front back : List α} (cut : cutAt separator text = some (front, back)) :
    text = front ++ separator :: back ∧ separator ∉ front := by
  have member : separator ∈ text := by
    by_contra missing
    rw [cutAt_eq_none_iff.mpr missing] at cut
    cases cut
  obtain ⟨before, behind, rfl, missing⟩ := List.eq_append_cons_of_mem member
  rw [cutAt_append missing] at cut
  cases cut
  exact ⟨rfl, missing⟩

end Onyxup.Lib.Pieces
