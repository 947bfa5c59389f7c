import Onyxup.Lib.CString

/-!
Contract: the first occurrence of a needle in a text.

Owns: what `find` returns in terms of occurrences, and how a search goes through
a text that is put together from pieces: an occurrence in front is found first,
and a piece that no occurrence can touch is skipped. The count of the occurrences
that a search from left to right comes to.

Does not own: what is searched for.
-/

set_option autoImplicit false

namespace Onyxup.Lib.CString

variable {text front back needle : Bytes} {index : Nat}

/-- `needle` stands at `index`. -/
def OccursAt (needle text : Bytes) (index : Nat) : Prop :=
  needle <+: text.drop index

theorem OccursAt.inside (nonempty : needle ≠ []) (occurs : OccursAt needle text index) :
    index + needle.length ≤ text.length := by
  have shorter := List.IsPrefix.length_le occurs
  have positive := List.length_pos_of_ne_nil nonempty
  rw [List.length_drop] at shorter
  omega

theorem occursAt_append (front back : Bytes) (index : Nat) :
    OccursAt needle (front ++ back) (front.length + index) ↔ OccursAt needle back index := by
  rw [OccursAt, List.drop_append, List.drop_eq_nil_of_le (Nat.le_add_right _ _),
    List.nil_append, Nat.add_sub_cancel_left]
  rfl

/-- Inside the front of a text nothing behind it matters. -/
theorem occursAt_append_left (inside : index + needle.length ≤ front.length) :
    OccursAt needle (front ++ back) index ↔ OccursAt needle front index := by
  have starts : index ≤ front.length := by omega
  have width : needle.length ≤ (front.drop index).length := by
    rw [List.length_drop]
    omega
  unfold OccursAt
  rw [List.drop_append_of_le_length starts]
  constructor
  · intro occurs
    exact List.prefix_of_prefix_length_le occurs (List.prefix_append _ _) width
  · intro occurs
    exact occurs.trans (List.prefix_append _ _)

private theorem findFrom_eq_map :
    ∀ (text : Bytes) (offset : Nat),
      findFrom needle offset text = (find text needle).map (offset + ·) := by
  intro text
  induction text with
  | nil =>
      intro offset
      simp only [find, findFrom]
      split <;> rfl
  | cons byte rest inductionHypothesis =>
      intro offset
      simp only [find, findFrom]
      split
      next => rfl
      next =>
        rw [inductionHypothesis, inductionHypothesis, Option.map_map]
        congr 1
        funext found
        simp only [Function.comp_apply]
        omega

theorem find_cons (byte : UInt8) (rest needle : Bytes) :
    find (byte :: rest) needle =
      if needle.isPrefixOf (byte :: rest) then some 0 else (find rest needle).map (1 + ·) := by
  rw [find, findFrom]
  split
  next => rfl
  next => exact findFrom_eq_map rest 1

/-- The first occurrence. By induction on the text. -/
theorem find_eq_some_iff (nonempty : needle ≠ []) :
    find text needle = some index ↔
      OccursAt needle text index ∧ ∀ earlier < index, ¬ OccursAt needle text earlier := by
  induction text generalizing index with
  | nil =>
      have nowhere : ∀ index, ¬ OccursAt needle [] index := by
        intro index occurs
        rw [OccursAt, List.drop_nil, List.prefix_nil] at occurs
        exact nonempty occurs
      simp [find, findFrom, nonempty, nowhere]
  | cons byte rest inductionHypothesis =>
      rw [find_cons]
      by_cases here : needle.isPrefixOf (byte :: rest) = true
      · have starts : OccursAt needle (byte :: rest) 0 := List.isPrefixOf_iff_prefix.mp here
        rw [if_pos here, Option.some.injEq]
        constructor
        · rintro rfl
          exact ⟨starts, fun earlier impossible => absurd impossible (Nat.not_lt_zero _)⟩
        · rintro ⟨_, first⟩
          by_contra later
          exact first 0 (by omega) starts
      · have notHere : ¬ OccursAt needle (byte :: rest) 0 :=
          fun starts => here (List.isPrefixOf_iff_prefix.mpr starts)
        rw [if_neg here]
        cases index with
        | zero =>
            refine iff_of_false ?_ (fun both => notHere both.1)
            rw [Option.map_eq_some_iff]
            rintro ⟨found, _, impossible⟩
            omega
        | succ index =>
            have shifted : (find rest needle).map (1 + ·) = some (index + 1) ↔
                find rest needle = some index := by
              rw [Option.map_eq_some_iff]
              constructor
              · rintro ⟨found, isFound, same⟩
                rw [isFound]
                congr 1
                omega
              · intro isFound
                exact ⟨index, isFound, Nat.add_comm _ _⟩
            rw [shifted, inductionHypothesis]
            apply and_congr_right
            intro _
            constructor
            · intro first earlier before
              cases earlier with
              | zero => exact notHere
              | succ earlier => exact first earlier (by omega)
            · intro first earlier before
              exact first (earlier + 1) (by omega)

theorem find_eq_none_iff (nonempty : needle ≠ []) :
    find text needle = none ↔ ∀ index, ¬ OccursAt needle text index := by
  constructor
  · intro missing index
    induction index using Nat.strongRecOn with
    | ind index earlier =>
        intro occurs
        rw [(find_eq_some_iff nonempty).mpr ⟨occurs, earlier⟩] at missing
        cases missing
  · intro nowhere
    cases found : find text needle with
    | none => rfl
    | some index => exact absurd ((find_eq_some_iff nonempty).mp found).1 (nowhere index)

/-- A needle is not found in a text exactly if it is no part of it. -/
theorem find_eq_none_iff_absent (nonempty : needle ≠ []) :
    find text needle = none ↔ ¬ needle <:+: text := by
  rw [find_eq_none_iff nonempty, List.infix_iff_prefix_suffix]
  constructor
  · rintro nowhere ⟨rest, starts, ends⟩
    rw [List.suffix_iff_eq_drop.mp ends] at starts
    exact nowhere _ starts
  · rintro noPart index occurs
    exact noPart ⟨_, occurs, List.drop_suffix _ _⟩

/-- A byte that the text does not have. -/
theorem find_eq_none_of_not_mem {byte : UInt8} (inNeedle : byte ∈ needle) (missing : byte ∉ text) :
    find text needle = none := by
  rw [find_eq_none_iff_absent (List.ne_nil_of_mem inNeedle)]
  intro isPart
  exact missing (isPart.mem inNeedle)

/-! ## Texts in pieces -/

/-- A text that starts with the needle. -/
theorem find_self_append (nonempty : needle ≠ []) (back : Bytes) :
    find (needle ++ back) needle = some 0 := by
  rw [find_eq_some_iff nonempty]
  exact ⟨List.prefix_append _ _, fun earlier impossible => absurd impossible (Nat.not_lt_zero _)⟩

/-- The first occurrence does not depend on what follows it. -/
theorem find_append_iff (nonempty : needle ≠ [])
    (inside : index + needle.length ≤ front.length) (back : Bytes) :
    find (front ++ back) needle = some index ↔ find front needle = some index := by
  rw [find_eq_some_iff nonempty, find_eq_some_iff nonempty, occursAt_append_left inside]
  apply and_congr_right
  intro _
  apply forall₂_congr
  intro earlier before
  rw [occursAt_append_left (by omega)]

theorem find_append_of_some (nonempty : needle ≠ []) (found : find front needle = some index)
    (back : Bytes) : find (front ++ back) needle = some index :=
  (find_append_iff nonempty (find_some found) back).mpr found

/-- A piece that cannot touch an occurrence is skipped. -/
theorem find_append_of_untouched (nonempty : needle ≠ [])
    (untouched : ∀ index < front.length, ¬ OccursAt needle (front ++ back) index) :
    find (front ++ back) needle = (find back needle).map (front.length + ·) := by
  cases found : find back needle with
  | none =>
      rw [find_eq_none_iff nonempty] at found
      rw [Option.map_none, find_eq_none_iff nonempty]
      intro index
      by_cases before : index < front.length
      · exact untouched index before
      · rw [show index = front.length + (index - front.length) by omega, occursAt_append]
        exact found _
  | some position =>
      rw [find_eq_some_iff nonempty] at found
      rw [Option.map_some, find_eq_some_iff nonempty, occursAt_append]
      refine ⟨found.1, ?_⟩
      intro earlier before
      by_cases inFront : earlier < front.length
      · exact untouched earlier inFront
      · rw [show earlier = front.length + (earlier - front.length) by omega, occursAt_append]
        exact found.2 _ (by omega)

/-- A piece without the first byte of the needle is skipped. -/
theorem find_append_of_not_mem {first : UInt8} {rest : Bytes} (missing : first ∉ front)
    (back : Bytes) :
    find (front ++ back) (first :: rest) =
      (find back (first :: rest)).map (front.length + ·) := by
  apply find_append_of_untouched (by simp)
  intro index before occurs
  have starts := List.IsPrefix.getElem occurs (Nat.zero_lt_succ rest.length)
  simp only [List.getElem_cons_zero, List.getElem_drop, Nat.add_zero] at starts
  rw [List.getElem_append_left before] at starts
  exact missing (starts ▸ List.getElem_mem before)

/-- A needle whose first byte does not come again is found behind a text without it. -/
theorem find_append_needle {first : UInt8} {rest : Bytes} (once : first ∉ rest)
    (missing : find front (first :: rest) = none) (back : Bytes) :
    find (front ++ (first :: rest ++ back)) (first :: rest) = some front.length := by
  rw [find_append_of_untouched (by simp), find_self_append (by simp)]
  · rfl
  intro index before occurs
  by_cases inside : index + (first :: rest).length ≤ front.length
  · rw [occursAt_append_left inside] at occurs
    exact (find_eq_none_iff (by simp)).mp missing index occurs
  · -- The occurrence would cover the first byte of the needle behind the front.
    have covers : front.length - index < (first :: rest).length := by omega
    have starts := List.IsPrefix.getElem occurs covers
    have position : index + (front.length - index) = front.length := by omega
    simp only [List.getElem_drop, position, List.getElem_append_right (Nat.le_refl _),
      Nat.sub_self, List.cons_append, List.getElem_cons_zero] at starts
    obtain ⟨offset, later⟩ : ∃ offset, front.length - index = offset + 1 :=
      ⟨front.length - index - 1, by omega⟩
    simp only [later, List.getElem_cons_succ] at starts
    exact once (starts ▸ List.getElem_mem _)

/-- No occurrence goes across a byte that the needle does not have. -/
theorem find_append_separator {separator : UInt8} (nonempty : needle ≠ [])
    (foreign : separator ∉ needle) (missing : find front needle = none) (back : Bytes) :
    find (front ++ separator :: back) needle =
      (find back needle).map (front.length + 1 + ·) := by
  rw [show front ++ separator :: back = (front ++ [separator]) ++ back by simp]
  rw [find_append_of_untouched nonempty, List.length_append, List.length_singleton]
  intro index before occurs
  rw [List.append_assoc, List.singleton_append] at occurs
  rw [List.length_append, List.length_singleton] at before
  by_cases inside : index + needle.length ≤ front.length
  · rw [occursAt_append_left inside] at occurs
    exact (find_eq_none_iff nonempty).mp missing index occurs
  · -- The occurrence would cover the separator.
    have covers : front.length - index < needle.length := by omega
    have starts := List.IsPrefix.getElem occurs covers
    simp only [List.getElem_drop] at starts
    have position : index + (front.length - index) = front.length := by omega
    simp only [position, List.getElem_append_right (Nat.le_refl _), Nat.sub_self,
      List.getElem_cons_zero] at starts
    exact foreign (starts ▸ List.getElem_mem covers)

/-- A needle that starts inside a run of one byte in front of itself is that byte
all over. By strong induction on the position in the needle. -/
theorem eq_of_overlap {byte : UInt8} (nonempty : front ≠ []) (run : ∀ other ∈ front, other = byte)
    (overlaps : needle <+: front ++ (needle ++ back)) : ∀ other ∈ needle, other = byte := by
  have positive := List.length_pos_of_ne_nil nonempty
  have each : ∀ index (inside : index < needle.length), needle[index] = byte := by
    intro index
    induction index using Nat.strongRecOn with
    | ind index earlier =>
        intro inside
        have same := List.IsPrefix.getElem overlaps inside
        rw [same]
        by_cases inFront : index < front.length
        · rw [List.getElem_append_left inFront]
          exact run _ (List.getElem_mem inFront)
        · rw [List.getElem_append_right (by omega), List.getElem_append_left (by omega)]
          exact earlier _ (by omega) _
  intro other member
  obtain ⟨index, inside, rfl⟩ := List.getElem_of_mem member
  exact each index inside

/-! ## Lines -/

private theorem find_emptyLine_lineEnd {first : UInt8} (notCr : first ≠ 13) (back : Bytes) :
    find (ascii "\r\n" ++ first :: back) (ascii "\r\n\r\n") =
      (find (first :: back) (ascii "\r\n\r\n")).map (2 + ·) := by
  apply find_append_of_untouched (by decide)
  intro index before occurs
  have third := List.IsPrefix.getElem occurs (show 2 < (ascii "\r\n\r\n").length by decide)
  have start := List.IsPrefix.getElem occurs (show 0 < (ascii "\r\n\r\n").length by decide)
  match index, before with
  | 0, _ => exact notCr third.symm
  | 1, _ =>
      have impossible : (13 : UInt8) = 10 := start
      exact absurd impossible (by decide)

private theorem find_emptyLine_lines {lines : List Bytes}
    (plain : ∀ line ∈ lines, line ≠ [] ∧ 13 ∉ line) (back : Bytes) :
    find (lines.flatMap (ascii "\r\n" ++ ·) ++ (ascii "\r\n\r\n" ++ back))
        (ascii "\r\n\r\n") =
      some (lines.flatMap (ascii "\r\n" ++ ·)).length := by
  induction lines with
  | nil => exact find_self_append (by decide) back
  | cons line rest inductionHypothesis =>
      obtain ⟨nonempty, noCr⟩ := plain line List.mem_cons_self
      have later := inductionHypothesis fun other member =>
        plain other (List.mem_cons_of_mem _ member)
      obtain ⟨first, others, rfl⟩ := List.exists_cons_of_ne_nil nonempty
      have notCr : first ≠ 13 := by
        rintro rfl
        exact noCr List.mem_cons_self
      have skipped : find ((first :: others) ++ (rest.flatMap (ascii "\r\n" ++ ·) ++
          (ascii "\r\n\r\n" ++ back))) (ascii "\r\n\r\n") = _ :=
        find_append_of_not_mem noCr _
      rw [List.flatMap_cons, List.append_assoc, List.append_assoc, List.cons_append,
        find_emptyLine_lineEnd notCr, ← List.cons_append, skipped]
      change ((find _ (ascii "\r\n\r\n")).map _).map _ = _
      rw [later]
      have two : (ascii "\r\n").length = 2 := by decide
      simp only [Option.map_some, List.length_append, two, Option.some.injEq]
      omega

/-- The first empty line stands behind the lines in front of it. -/
theorem find_emptyLine {first : Bytes} {lines : List Bytes} (noCr : 13 ∉ first)
    (plain : ∀ line ∈ lines, line ≠ [] ∧ 13 ∉ line) (back : Bytes) :
    find (first ++ lines.flatMap (ascii "\r\n" ++ ·) ++ (ascii "\r\n\r\n" ++ back))
        (ascii "\r\n\r\n") =
      some (first ++ lines.flatMap (ascii "\r\n" ++ ·)).length := by
  have skipped : find (first ++ (lines.flatMap (ascii "\r\n" ++ ·) ++
      (ascii "\r\n\r\n" ++ back))) (ascii "\r\n\r\n") = _ :=
    find_append_of_not_mem noCr _
  rw [List.append_assoc, skipped]
  change (find _ (ascii "\r\n\r\n")).map _ = _
  rw [find_emptyLine_lines plain, Option.map_some, List.length_append]

/-! ## All occurrences -/

/-- How many occurrences a search from left to right finds, each behind the end of the one before.
The next `skip` bytes are still part of the last one. -/
def countMatches (needle : Bytes) : (skip : Nat) → (text : Bytes) → Nat
  | _, [] => 0
  | 0, byte :: rest =>
      if needle.isPrefixOf (byte :: rest) then 1 + countMatches needle (needle.length - 1) rest
      else countMatches needle 0 rest
  | skip + 1, _ :: rest => countMatches needle skip rest

private theorem countMatches_skip (needle : Bytes) (skip : Nat) (text : Bytes) :
    countMatches needle skip text = countMatches needle 0 (text.drop skip) := by
  induction text generalizing skip with
  | nil => rw [List.drop_nil, countMatches, countMatches]
  | cons byte rest inductionHypothesis =>
      cases skip with
      | zero => rfl
      | succ skip => exact inductionHypothesis skip

theorem countMatches_le_length (needle : Bytes) (skip : Nat) (text : Bytes) :
    countMatches needle skip text ≤ text.length := by
  induction text generalizing skip with
  | nil =>
      rw [countMatches]
      exact Nat.zero_le _
  | cons byte rest inductionHypothesis =>
      rw [List.length_cons]
      cases skip with
      | zero =>
          have skipping := inductionHypothesis (needle.length - 1)
          have searching := inductionHypothesis 0
          rw [countMatches]
          split <;> omega
      | succ skip =>
          have skipping := inductionHypothesis skip
          rw [countMatches]
          omega

/-- One occurrence is the first one, and the others are behind it. By induction on the text. -/
theorem countMatches_eq (nonempty : needle ≠ []) (text : Bytes) :
    countMatches needle 0 text =
      match find text needle with
      | none => 0
      | some index => 1 + countMatches needle 0 (text.drop (index + needle.length)) := by
  have positive := List.length_pos_of_ne_nil nonempty
  induction text with
  | nil =>
      have absent : find [] needle = none := by
        rw [find, findFrom, if_neg]
        simpa using nonempty
      rw [absent]
      rfl
  | cons byte rest inductionHypothesis =>
      obtain ⟨width, isWidth⟩ := Nat.exists_eq_succ_of_ne_zero (Nat.ne_of_gt positive)
      rw [find_cons, countMatches]
      by_cases here : needle.isPrefixOf (byte :: rest) = true
      · rw [if_pos here, if_pos here, countMatches_skip, isWidth]
        simp only [Nat.succ_eq_add_one, Nat.add_sub_cancel, Nat.zero_add, List.drop_succ_cons]
      · rw [if_neg here, if_neg here, inductionHypothesis]
        cases find rest needle with
        | none => rfl
        | some index =>
            simp only [Option.map_some]
            rw [show 1 + index + needle.length = index + needle.length + 1 by omega,
              List.drop_succ_cons]

end Onyxup.Lib.CString
