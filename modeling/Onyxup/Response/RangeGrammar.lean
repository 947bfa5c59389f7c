import Onyxup.Lib.Pieces
import Onyxup.Lib.Search
import Onyxup.Response.RangeForms

/-!
Contract: the grammar of a Range header, and what `parseRangesRequest` accepts of it.

Owns: the three forms `D-D`, `D-` and `-D` with nonempty digit strings, and the exact
condition under which an accepted header is in the grammar.

Does not own: what an accepted range means.

`std::getline` returns nothing for the text behind a last comma. Whether that counts as a
token is the `tokensOf` of a statement.
-/

set_option autoImplicit false

namespace Onyxup.Response

open Onyxup.Lib.CString
open Onyxup.Lib.Memory
open Onyxup.Lib.Pieces

/-- `D-D`, `D-` or `-D`, with at least one digit in every `D`. -/
inductive InGrammar : Bytes → Prop where
  | closed {left right : Bytes} (isLeft : Decimal left) (isRight : Decimal right) :
      InGrammar (left ++ 45 :: right)
  | openEnded {left : Bytes} (isLeft : Decimal left) : InGrammar (left ++ [45])
  | suffix {count : Bytes} (isCount : Decimal count) : InGrammar (45 :: count)

/-- Whatever is accepted contains `bytes=`, and every token behind its first occurrence is in
the grammar once its spaces are removed. -/
def AcceptsOnlyGrammar (tokensOf : Bytes → List Bytes) (library : RangeLibrary) (src : Bytes)
    (length : Nat) : Prop :=
  ∀ ranges, parseRangesRequest library src length = .ok ranges →
    ∃ index, find src (ascii "bytes=") = some index ∧
      ∀ token ∈ tokensOf (src.drop (index + 6)), InGrammar (trimSpaces token)

/-! ## Forms and grammar -/

theorem InGrammar.two_le_length {token : Bytes} (inGrammar : InGrammar token) :
    2 ≤ token.length := by
  cases inGrammar with
  | closed isLeft isRight =>
      have := List.length_pos_of_ne_nil isLeft.1
      rw [List.length_append, List.length_cons]
      omega
  | openEnded isLeft =>
      have := List.length_pos_of_ne_nil isLeft.1
      rw [List.length_append, List.length_singleton]
      omega
  | suffix isCount =>
      have := List.length_pos_of_ne_nil isCount.1
      rw [List.length_cons]
      omega

/-- The bytes of a form. -/
def RangeForm.text : RangeForm → Bytes
  | openEnded left => left ++ [45]
  | suffix count => 45 :: count
  | closed left right => left ++ 45 :: right

private theorem split_at_dash {token : Bytes} {pos : Nat}
    (found : find token (ascii "-") = some pos) :
    token = token.take pos ++ 45 :: token.drop (pos + 1) := by
  have dash : ascii "-" = [45] := by decide
  rw [dash, find_eq_some_iff (by simp)] at found
  obtain ⟨rest, here⟩ := found.1
  have behind : rest = token.drop (pos + 1) := by
    rw [← List.tail_drop, ← here]
    rfl
  rw [← behind, ← List.singleton_append, here, List.take_append_drop]

/-- The form of a token has its bytes, only digits in its numbers, and at least one in each
of them unless the token is a lone dash. -/
theorem formOf_eq_some {token : Bytes} {form : RangeForm} (isForm : formOf token = some form) :
    token = form.text ∧ (∀ number ∈ form.numbers, number.all isDigit = true) ∧
      (form = .openEnded [] ∨ ∀ number ∈ form.numbers, number ≠ []) := by
  unfold formOf at isForm
  split at isForm
  next last =>
    obtain ⟨front, rfl⟩ := List.getLast?_eq_some_iff.mp last
    rw [List.dropLast_concat] at isForm
    split at isForm
    next digits =>
      cases isForm
      refine ⟨rfl, by simpa [RangeForm.numbers] using digits, ?_⟩
      by_cases empty : front = []
      · exact .inl (by rw [empty])
      · exact .inr (by simpa [RangeForm.numbers] using empty)
    next => cases isForm
  next notLast =>
    split at isForm
    next first =>
      obtain ⟨rest, rfl⟩ := List.head?_eq_some_iff.mp first
      rw [List.tail_cons] at isForm
      split at isForm
      next digits =>
        cases isForm
        refine ⟨rfl, by simpa [RangeForm.numbers] using digits, .inr ?_⟩
        have nonempty : rest ≠ [] := by
          rintro rfl
          exact notLast rfl
        simpa [RangeForm.numbers] using nonempty
      next => cases isForm
    next notFirst =>
      split at isForm
      next => cases isForm
      next pos found =>
        split at isForm
        next digits =>
          cases isForm
          have dash := (split_at_dash found).symm
          rw [Bool.and_eq_true] at digits
          refine ⟨dash.symm, by simpa [RangeForm.numbers] using digits, .inr ?_⟩
          have leftNonempty : token.take pos ≠ [] := by
            intro empty
            rw [empty, List.nil_append] at dash
            exact notFirst (by rw [← dash, List.head?_cons])
          have rightNonempty : token.drop (pos + 1) ≠ [] := by
            intro empty
            rw [empty] at dash
            exact notLast (by rw [← dash, List.getLast?_concat])
          exact List.forall_mem_cons.mpr
            ⟨leftNonempty, List.forall_mem_singleton.mpr rightNonempty⟩
        next => cases isForm

theorem inGrammar_text {form : RangeForm}
    (digits : ∀ number ∈ form.numbers, number.all isDigit = true)
    (nonempty : ∀ number ∈ form.numbers, number ≠ []) : InGrammar form.text := by
  have plain : ∀ number ∈ form.numbers, Decimal number :=
    fun number member => ⟨nonempty number member, List.all_eq_true.mp (digits number member)⟩
  cases form with
  | openEnded left => exact .openEnded (plain left (by simp [RangeForm.numbers]))
  | suffix count => exact .suffix (plain count (by simp [RangeForm.numbers]))
  | closed left right =>
      exact .closed (plain left (by simp [RangeForm.numbers]))
        (plain right (by simp [RangeForm.numbers]))

/-- A token with a form is in the grammar unless it is a lone dash. -/
theorem inGrammar_iff {token : Bytes} {form : RangeForm} (isForm : formOf token = some form) :
    InGrammar token ↔ form ≠ .openEnded [] := by
  obtain ⟨rfl, digits, shape⟩ := formOf_eq_some isForm
  constructor
  · rintro inGrammar rfl
    have long := inGrammar.two_le_length
    exact absurd long (by decide)
  · intro notDash
    exact inGrammar_text digits (shape.resolve_left notDash)

/-- A token with a form has no other bytes than digits and dashes. -/
theorem digit_or_dash_of_mem {token : Bytes} {form : RangeForm} {byte : UInt8}
    (isForm : formOf token = some form) (member : byte ∈ token) :
    isDigit byte = true ∨ byte = 45 := by
  obtain ⟨rfl, digits, _⟩ := formOf_eq_some isForm
  have inNumber : byte = 45 ∨ ∃ number ∈ form.numbers, byte ∈ number := by
    cases form <;> simp [RangeForm.text, RangeForm.numbers] at member ⊢ <;> tauto
  rcases inNumber with rfl | ⟨number, isNumber, member⟩
  · exact .inr rfl
  · exact .inl (List.all_eq_true.mp (digits number isNumber) byte member)

/-! ## Tokens -/

/-- The pieces of a text are its tokens and, behind a last comma, nothing. -/
theorem forall_mem_splitOn_iff {property : Bytes → Prop} {text : Bytes} (nonempty : text ≠ []) :
    (∀ piece ∈ text.splitOn 44, property piece) ↔
      (∀ token ∈ getlines 44 text, property token) ∧
        (text.getLast? = some 44 → property []) := by
  have lastPiece : (text.splitOn 44).getLast? = some [] ↔ text.getLast? = some 44 := by
    rw [getLast?_splitOn_eq_nil_iff, or_iff_right nonempty]
  rw [← lastPiece, getlines]
  split
  next empty =>
    obtain ⟨front, pieces⟩ := List.getLast?_eq_some_iff.mp empty
    rw [pieces, List.dropLast_concat, List.forall_mem_append, List.forall_mem_singleton,
      List.getLast?_concat]
    simp only [forall_const]
  next full => exact ⟨fun each => ⟨each, fun empty => absurd empty full⟩, fun both => both.1⟩

/-- A byte other than comma and space is still in a token without its spaces. -/
theorem exists_mem_rangeTokens {text : Bytes} {byte : UInt8} (member : byte ∈ text)
    (notComma : byte ≠ 44) (notSpace : byte ≠ 32) : ∃ token ∈ rangeTokens text, byte ∈ token := by
  obtain ⟨piece, isPiece, inPiece⟩ := exists_mem_splitOn member notComma
  have isToken : piece ∈ getlines 44 text := by
    rw [getlines]
    split
    next empty =>
      obtain ⟨front, pieces⟩ := List.getLast?_eq_some_iff.mp empty
      rw [pieces, List.mem_append, List.mem_singleton] at isPiece
      rw [pieces, List.dropLast_concat]
      exact isPiece.resolve_right (List.ne_nil_of_mem inPiece)
    next => exact isPiece
  refine ⟨trimSpaces piece, List.mem_map_of_mem isToken, List.mem_filter.mpr ⟨inPiece, ?_⟩⟩
  simpa using notSpace

/-! ## Accepted headers -/

private theorem rangesText_ok {src text : Bytes} (size : src.length < 9223372036854775808)
    (found : rangesText src = .ok text) :
    ∃ index, find src (ascii "bytes=") = some index ∧
      (text = src.drop (index + 6) ∨ ∃ start ≤ index, text = src.drop start) := by
  unfold rangesText at found
  split at found
  next => cases found
  next index position =>
    dsimp only at found
    split at found
    next => cases found
    next notNpos =>
      split at found
      next => cases found
      next inside =>
        have start : toSizeT (toInt32 index + 6) = index + 6 ∨
            toSizeT (toInt32 index + 6) ≤ index := by
          have below : index + 6 ≤ src.length := find_some position
          simp only [toSizeT, toInt32] at inside ⊢
          omega
        refine ⟨index, position, ?_⟩
        rw [← Except.ok.inj found]
        rcases start with kept | before
        · exact .inl (by rw [kept])
        · exact .inr ⟨_, before, rfl⟩

private theorem exists_form_of_mem {tokens : List Bytes} {forms : List RangeForm} {token : Bytes}
    (areForms : tokens.map formOf = forms.map some) (isToken : token ∈ tokens) :
    ∃ form ∈ forms, formOf token = some form := by
  have isSome : formOf token ∈ forms.map some := by
    rw [← areForms]
    exact List.mem_map_of_mem isToken
  obtain ⟨form, member, same⟩ := List.mem_map.mp isSome
  exact ⟨form, member, same.symm⟩

/-- What has forms is behind the first `bytes=`: no token can have its `b` in it. -/
theorem rangesText_of_formsOf {src : Bytes} {forms : List RangeForm}
    (size : src.length < 9223372036854775808) (areForms : FormsOf src forms) :
    ∃ index, find src (ascii "bytes=") = some index ∧
      rangesText src = .ok (src.drop (index + 6)) := by
  obtain ⟨text, found, areForms⟩ := areForms
  obtain ⟨index, position, kept | ⟨start, before, displaced⟩⟩ := rangesText_ok size found
  · exact ⟨index, position, by rw [found, kept]⟩
  · have inText : 98 ∈ text := by
      obtain ⟨rest, here⟩ := ((find_eq_some_iff (by decide)).mp position).1
      have behind : 98 ∈ (src.drop start).drop (index - start) := by
        rw [List.drop_drop, Nat.add_sub_cancel' before, ← here]
        exact List.mem_append_left rest (by decide)
      rw [displaced]
      exact List.mem_of_mem_drop behind
    obtain ⟨token, isToken, inToken⟩ := exists_mem_rangeTokens inText (by decide) (by decide)
    obtain ⟨form, _, isForm⟩ := exists_form_of_mem areForms isToken
    exact absurd (digit_or_dash_of_mem isForm inToken) (by decide)

private theorem tokens_inGrammar_iff {text : Bytes} {forms : List RangeForm}
    (areForms : (rangeTokens text).map formOf = forms.map some) :
    (∀ token ∈ getlines 44 text, InGrammar (trimSpaces token)) ↔ .openEnded [] ∉ forms := by
  constructor
  · intro inGrammar isDash
    have isForm : some (.openEnded []) ∈ (rangeTokens text).map formOf := by
      rw [areForms]
      exact List.mem_map_of_mem isDash
    obtain ⟨token, isToken, dash⟩ := List.mem_map.mp isForm
    obtain ⟨untrimmed, isLine, rfl⟩ := List.mem_map.mp isToken
    exact (inGrammar_iff dash).mp (inGrammar untrimmed isLine) rfl
  · intro noDash token isLine
    obtain ⟨form, member, isForm⟩ := exists_form_of_mem areForms (List.mem_map_of_mem isLine)
    apply (inGrammar_iff isForm).mpr
    rintro rfl
    exact noDash member

/-- No token of the header is a lone dash, or the tests of the parser refuse the header for
another reason. -/
def NoAcceptedDash (library : RangeLibrary) (src : Bytes) (length : Nat) : Prop :=
  ∀ forms, FormsOf src forms → AcceptedAs residue library length forms →
    .openEnded [] ∉ forms

/-- The header does not end in a comma, or the tests of the parser refuse it for another
reason. -/
def NoAcceptedComma (library : RangeLibrary) (src : Bytes) (length : Nat) : Prop :=
  ∀ forms, FormsOf src forms → AcceptedAs residue library length forms →
    src.getLast? ≠ some 44

section Accepted

variable {library : RangeLibrary} {src : Bytes} {length : Nat}

private theorem acceptsOnlyGrammar_iff (tokensOf : Bytes → List Bytes)
    (size : src.length < 9223372036854775808) :
    AcceptsOnlyGrammar tokensOf library src length ↔
      ∀ forms, FormsOf src forms → AcceptedAs residue library length forms →
        ∀ text, rangesText src = .ok text →
          ∀ token ∈ tokensOf text, InGrammar (trimSpaces token) := by
  constructor
  · intro only forms areForms accepted text found
    obtain ⟨index, position, isText⟩ := rangesText_of_formsOf size areForms
    obtain ⟨same, alsoPosition, inGrammar⟩ :=
      only _ (parseRangesRequest_ok_iff.mpr ⟨forms, areForms, accepted, rfl⟩)
    rw [position] at alsoPosition
    rw [found] at isText
    rw [Except.ok.inj isText, Option.some.inj alsoPosition]
    exact inGrammar
  · intro each ranges returned
    obtain ⟨forms, areForms, accepted, _⟩ := parseRangesRequest_ok_iff.mp returned
    obtain ⟨index, position, isText⟩ := rangesText_of_formsOf size areForms
    exact ⟨index, position, each forms areForms accepted _ isText⟩

private theorem getLast?_of_accepted {forms : List RangeForm} {text : Bytes}
    (size : src.length < 9223372036854775808) (areForms : FormsOf src forms)
    (accepted : AcceptedAs residue library length forms) (found : rangesText src = .ok text) :
    text ≠ [] ∧ text.getLast? = src.getLast? := by
  have nonempty : text ≠ [] := by
    rintro rfl
    obtain ⟨empty, alsoFound, same⟩ := areForms
    rw [found] at alsoFound
    cases alsoFound
    exact accepted.2.1 (List.map_eq_nil_iff.mp same.symm)
  refine ⟨nonempty, ?_⟩
  obtain ⟨index, _, isText⟩ := rangesText_of_formsOf size areForms
  rw [found] at isText
  rw [Except.ok.inj isText, List.getLast?_drop, if_neg]
  intro behind
  rw [Except.ok.inj isText] at nonempty
  exact nonempty (List.drop_eq_nil_of_le behind)

private theorem pieces_inGrammar_iff {text : Bytes} (nonempty : text ≠ []) :
    (∀ token ∈ text.splitOn 44, InGrammar (trimSpaces token)) ↔
      (∀ token ∈ getlines 44 text, InGrammar (trimSpaces token)) ∧ text.getLast? ≠ some 44 := by
  rw [forall_mem_splitOn_iff nonempty]
  apply and_congr_right
  intro _
  constructor
  · intro emptyToo isComma
    have long := (emptyToo isComma).two_le_length
    exact absurd long (by decide)
  · intro notComma isComma
    exact absurd isComma notComma

end Accepted

/-- A lone dash is accepted as `D-`, and nothing behind a last comma is not looked at.
Everything else that is accepted is in the grammar. -/
theorem accepts_only_grammar_iff (library : RangeLibrary) (src : Bytes) (length : Nat)
    (size : src.length < 9223372036854775808) :
    (AcceptsOnlyGrammar (getlines 44) library src length ↔
      NoAcceptedDash library src length) ∧
    (AcceptsOnlyGrammar (fun text => text.splitOn 44) library src length ↔
      NoAcceptedDash library src length ∧ NoAcceptedComma library src length) := by
  have dashes : (∀ forms, FormsOf src forms → AcceptedAs residue library length forms →
      ∀ text, rangesText src = .ok text →
        ∀ token ∈ getlines 44 text, InGrammar (trimSpaces token)) ↔
      NoAcceptedDash library src length := by
    constructor
    · intro each forms areForms accepted
      have ⟨text, found, same⟩ := areForms
      exact (tokens_inGrammar_iff same).mp (each forms areForms accepted text found)
    · intro noDash forms areForms accepted text found
      have ⟨other, alsoFound, same⟩ := areForms
      rw [found] at alsoFound
      cases alsoFound
      exact (tokens_inGrammar_iff same).mpr (noDash forms areForms accepted)
  constructor
  · rw [acceptsOnlyGrammar_iff _ size, dashes]
  · rw [acceptsOnlyGrammar_iff _ size, ← dashes]
    constructor
    · intro each
      constructor
      · intro forms areForms accepted text found
        have ends := getLast?_of_accepted size areForms accepted found
        exact ((pieces_inGrammar_iff ends.1).mp (each forms areForms accepted text found)).1
      · intro forms areForms accepted
        obtain ⟨index, _, found⟩ := rangesText_of_formsOf size areForms
        have ends := getLast?_of_accepted size areForms accepted found
        rw [← ends.2]
        exact ((pieces_inGrammar_iff ends.1).mp (each forms areForms accepted _ found)).2
    · rintro ⟨inGrammar, noComma⟩ forms areForms accepted text found
      have ends := getLast?_of_accepted size areForms accepted found
      apply (pieces_inGrammar_iff ends.1).mpr
      rw [ends.2]
      exact ⟨inGrammar forms areForms accepted text found, noComma forms areForms accepted⟩

/-- Two tokens, each with its digits. -/
theorem two_tokens_in_grammar :
    AcceptsOnlyGrammar (getlines 44) stableLibrary (ascii "bytes=0-1,-2") 9 ∧
      AcceptsOnlyGrammar (fun text => text.splitOn 44) stableLibrary (ascii "bytes=0-1,-2") 9 := by
  have areThese : FormsOf (ascii "bytes=0-1,-2")
      [.closed (ascii "0") (ascii "1"), .suffix (ascii "2")] :=
    ⟨ascii "0-1,-2", by decide, by decide⟩
  have noDash : NoAcceptedDash stableLibrary (ascii "bytes=0-1,-2") 9 := by
    intro forms areForms _
    rw [areForms.unique areThese]
    decide
  obtain ⟨lines, pieces⟩ :=
    accepts_only_grammar_iff stableLibrary (ascii "bytes=0-1,-2") 9 (by decide)
  exact ⟨lines.mpr noDash, pieces.mpr ⟨noDash, fun _ _ _ => by decide⟩⟩

/-- A lone dash is the whole body. -/
theorem lone_dash_accepted :
    parseRangesRequest stableLibrary (ascii "bytes=-") 9 = .ok [⟨0, 9⟩] ∧
      ¬ AcceptsOnlyGrammar (getlines 44) stableLibrary (ascii "bytes=-") 9 ∧
      ¬ AcceptsOnlyGrammar (fun text => text.splitOn 44) stableLibrary (ascii "bytes=-") 9 := by
  have accepted : parseRangesRequest stableLibrary (ascii "bytes=-") 9 = .ok [⟨0, 9⟩] := by
    decide
  have position : find (ascii "bytes=-") (ascii "bytes=") = some 0 := by decide
  refine ⟨accepted, ?_, ?_⟩
  · intro only
    obtain ⟨index, found, inGrammar⟩ := only _ accepted
    rw [position] at found
    cases found
    exact absurd (inGrammar [45] (by decide)).two_le_length (by decide)
  · intro only
    obtain ⟨index, found, inGrammar⟩ := only _ accepted
    rw [position] at found
    cases found
    exact absurd (inGrammar [45] (by decide)).two_le_length (by decide)

end Onyxup.Response
