import Onyxup.Http.Grammar

/-!
Contract: header blocks as a peer writes them.

Owns: one line for each field, closed by CR LF, the condition on names and values
under which the parser can read them, and what it reads: every name, and every
value without the blanks around it.

Does not own: the line in front of the block.
-/

set_option autoImplicit false

namespace Onyxup.Http.Parser

open Onyxup.Lib.CString

/-- A field as it is written. -/
def fieldLine (field : Bytes × Bytes) : Bytes :=
  field.1 ++ ascii ": " ++ field.2 ++ ascii "\r\n"

/-- The fields and the empty line behind them. -/
def fieldBlock (fields : List (Bytes × Bytes)) : Bytes :=
  fields.flatMap fieldLine ++ ascii "\r\n"

/-- A token for a name, and a value without control characters. -/
structure WritableField (field : Bytes × Bytes) : Prop where
  nonempty : field.1 ≠ []
  isToken : ∀ byte ∈ field.1, isTokenChar byte = true
  isText : LineText field.2

instance (text : Bytes) : Decidable (LineText text) :=
  @List.decidableBAll UInt8 (isLineControl · = false) _ text

instance (field : Bytes × Bytes) : Decidable (WritableField field) :=
  decidable_of_iff (field.1 ≠ [] ∧ field.1.all isTokenChar = true ∧ LineText field.2)
    ⟨fun writable => ⟨writable.1, List.all_eq_true.mp writable.2.1, writable.2.2⟩,
      fun writable =>
        ⟨writable.nonempty, List.all_eq_true.mpr writable.isToken, writable.isText⟩⟩

theorem writableField_of {name value : Bytes} (nonempty : name ≠ [])
    (isToken : ∀ byte ∈ name, isTokenChar byte = true) (isText : LineText value) :
    WritableField (name, value) :=
  ⟨nonempty, isToken, isText⟩

theorem LineText.append {front back : Bytes} (left : LineText front) (right : LineText back) :
    LineText (front ++ back) := by
  intro byte member
  rcases List.mem_append.mp member with inFront | inBack
  · exact left byte inFront
  · exact right byte inBack

theorem lineText_decimal (value : Nat) : LineText (decimal value) := by
  intro byte member
  have digit := isDigit_of_mem_decimal member
  simp only [isDigit, Bool.and_eq_true, decide_eq_true_eq, UInt8.le_iff_toNat_le] at digit
  simp only [isLineControl, Bool.or_eq_false_iff, Bool.and_eq_false_iff, decide_eq_false_iff_not,
    beq_eq_false_iff_ne, UInt8.lt_iff_toNat_lt, ne_eq, ← UInt8.toNat_inj]
  simp at digit ⊢
  omega

/-- The field as the parser reads it back. -/
def fieldRead (field : Bytes × Bytes) : PhrHeader :=
  ⟨field.1, trimTrailing (field.2.dropWhile isBlank)⟩

/-- A value with no blank at either end is read as it was written. -/
theorem trim_of_trimmed {value : Bytes} (starts : ∀ byte ∈ value.head?, isBlank byte = false)
    (ends : ∀ byte ∈ value.getLast?, isBlank byte = false) :
    trimTrailing (value.dropWhile isBlank) = value := by
  have kept : ∀ {text : Bytes}, (∀ byte ∈ text.head?, isBlank byte = false) →
      text.dropWhile isBlank = text := by
    intro text clean
    cases text with
    | nil => rfl
    | cons head tail => exact List.dropWhile_cons_of_neg (by simp [clean head rfl])
  rw [kept starts, trimTrailing, kept (by simpa using ends), List.reverse_reverse]

/-- A number is read as it was printed. -/
theorem fieldRead_decimal (name : Bytes) (value : Nat) :
    (fieldRead (name, decimal value)).value = decimal value := by
  have noBlank : ∀ byte ∈ decimal value, isBlank byte = false := by
    intro byte member
    rw [Bool.eq_false_iff]
    intro blank
    rw [isBlank, Bool.or_eq_true, beq_iff_eq, beq_iff_eq] at blank
    rcases blank with rfl | rfl <;> exact absurd (isDigit_of_mem_decimal member) (by decide)
  refine trim_of_trimmed ?_ ?_
  · intro byte member
    exact noBlank byte (List.mem_of_mem_head? member)
  · intro byte member
    exact noBlank byte (List.mem_of_mem_getLast? member)

/-- A control character is neither part of a name nor of a value. -/
theorem WritableField.nulFree {field : Bytes × Bytes} (writable : WritableField field) :
    0 ∉ field.1 ∧ 0 ∉ field.2 := by
  constructor
  · intro member
    exact absurd (writable.isToken 0 member) (by decide)
  · intro member
    exact absurd (writable.isText 0 member) (by decide)

/-- The blanks behind the colon belong to the line, not to the value. -/
theorem headerLine_of_field {field : Bytes × Bytes} (writable : WritableField field)
    (isFirst : Bool) : HeaderLine isFirst (fieldRead field) (fieldLine field) := by
  obtain ⟨name, value⟩ := field
  have line : HeaderLine isFirst ⟨name, trimTrailing (value.dropWhile isBlank)⟩
      (name ++ [58] ++ (32 :: value.takeWhile isBlank) ++ value.dropWhile isBlank ++ [13, 10]) := by
    refine .named writable.nonempty writable.isToken ?_ ?_ ?_ (.inl rfl)
    · intro byte member
      rcases List.mem_cons.mp member with rfl | inBlanks
      · decide
      · exact List.mem_takeWhile_imp inBlanks
    · intro byte member
      have stops := List.head?_dropWhile_not isBlank value
      rw [Option.mem_def.mp member] at stops
      simpa using stops
    · intro byte member
      exact writable.isText byte (List.dropWhile_subset _ member)
  have same : name ++ [58] ++ (32 :: value.takeWhile isBlank) ++ value.dropWhile isBlank ++
      [13, 10] = fieldLine (name, value) := by
    have colon : ascii ": " = [58, 32] := by decide
    have crlf : ascii "\r\n" = [13, 10] := by decide
    simp only [fieldLine, colon, crlf, List.append_assoc, List.cons_append, List.nil_append]
    rw [← List.append_assoc (value.takeWhile isBlank), List.takeWhile_append_dropWhile]
  rwa [same] at line

/-- A block that was written is read back, field by field. -/
theorem headerBlock_of_fields {fields : List (Bytes × Bytes)}
    (writable : ∀ field ∈ fields, WritableField field) (isFirst : Bool) :
    HeaderBlock isFirst (fields.map fieldRead) (fieldBlock fields) := by
  induction fields generalizing isFirst with
  | nil => exact .empty (.inl rfl)
  | cons field fields inductionHypothesis =>
      have line := headerLine_of_field (writable field List.mem_cons_self) isFirst
      have block := inductionHypothesis
        (fun other member => writable other (List.mem_cons_of_mem _ member)) false
      rw [List.map_cons, fieldBlock, List.flatMap_cons, List.append_assoc]
      exact .line line block

end Onyxup.Http.Parser
