import Onyxup.Lib.Search

/-!
Contract: the multipart format of MIME.

Owns: a decoder for a given boundary, with the parts as texts and each part as header fields
and content; what it makes of parts that are written one behind the other, with and without
the close delimiter at the end.

Does not own: how a sender writes the parts.

A delimiter begins with the line end in front of it, so the decoder reads the payload with a
line end put before it. Without a close delimiter there is no result.
-/

set_option autoImplicit false

namespace Onyxup.Lib.MimeMultipart

open Onyxup.Lib.CString

/-! ## Decoder -/

/-- The line end and the dashes in front of the boundary, with the boundary. -/
def delimiter (boundary : Bytes) : Bytes :=
  ascii "\r\n--" ++ boundary

/-- What ends the last part. -/
def closeDelimiter (boundary : Bytes) : Bytes :=
  delimiter boundary ++ ascii "--"

/-- Spaces and tabs behind a delimiter. -/
def isPadding (byte : UInt8) : Bool :=
  byte == 32 || byte == 9

/-- The parts behind a delimiter, up to the close delimiter. -/
def scanParts (boundary : Bytes) : (fuel : Nat) → (text : Bytes) → Option (List Bytes)
  | 0, _ => none
  | fuel + 1, text =>
      if (ascii "--").isPrefixOf text then some []
      else
        let line := text.dropWhile isPadding
        if (ascii "\r\n").isPrefixOf line then
          let content := line.drop 2
          match find content (delimiter boundary) with
          | none => none
          | some index =>
              (scanParts boundary fuel (content.drop (index + (delimiter boundary).length))).map
                (content.take index :: ·)
        else none

/-- The parts of a payload. What stands in front of the first delimiter is skipped. -/
def bodyParts (boundary payload : Bytes) : Option (List Bytes) :=
  let text := ascii "\r\n" ++ payload
  match find text (delimiter boundary) with
  | none => none
  | some index => scanParts boundary text.length (text.drop (index + (delimiter boundary).length))

/-- A part with its header fields. -/
structure Entity where
  fields : List (Bytes × Bytes)
  content : Bytes
deriving DecidableEq, Repr

/-- A line without the carriage return at its end. -/
def stripReturn (line : Bytes) : Bytes :=
  if line.getLast? = some 13 then line.dropLast else line

/-- Name and value of a header line, without the space behind the colon. -/
def parseField (line : Bytes) : Bytes × Bytes :=
  let name := line.takeWhile (· != 58)
  let value := line.drop (name.length + 1)
  (name, if value.head? = some 32 then value.tail else value)

def parseFields (head : Bytes) : List (Bytes × Bytes) :=
  (head.splitOn 10).map fun line => parseField (stripReturn line)

/-- The header fields end at the first empty line. -/
def parseEntity (part : Bytes) : Entity :=
  if (ascii "\r\n").isPrefixOf part then ⟨[], part.drop 2⟩
  else
    match find part (ascii "\r\n\r\n") with
    | none => ⟨parseFields part, []⟩
    | some index => ⟨parseFields (part.take index), part.drop (index + 4)⟩

/-- The value of the first field with this name, in any letter case. -/
def Entity.field (name : Bytes) (entity : Entity) : Option Bytes :=
  (entity.fields.find? fun field => field.1.map toLower == name.map toLower).map Prod.snd

def decode (boundary payload : Bytes) : Option (List Entity) :=
  (bodyParts boundary payload).map (·.map parseEntity)

/-! ## Parts one behind the other -/

/-- What follows the first delimiter: the parts, and `last` behind the last delimiter. -/
def partsText (boundary last : Bytes) : List Bytes → Bytes
  | [] => last
  | part :: rest => ascii "\r\n" ++ part ++ delimiter boundary ++ partsText boundary last rest

section Text

variable (boundary : Bytes)

theorem partsText_append (last back : Bytes) (parts : List Bytes) :
    partsText boundary last parts ++ back = partsText boundary (last ++ back) parts := by
  induction parts with
  | nil => rfl
  | cons part rest inductionHypothesis =>
      rw [partsText, partsText, List.append_assoc, inductionHypothesis]

/-- The close delimiter makes the open part at the end one of the parts. -/
theorem partsText_close (part : Bytes) (parts : List Bytes) :
    partsText boundary (ascii "\r\n" ++ part) parts ++ closeDelimiter boundary =
      partsText boundary (ascii "--") (parts ++ [part]) := by
  rw [partsText_append]
  induction parts with
  | nil => simp only [partsText, List.nil_append, closeDelimiter, List.append_assoc]
  | cons head rest inductionHypothesis =>
      rw [List.cons_append, partsText, partsText, inductionHypothesis]

/-- Parts behind their own boundary lines, joined by line ends. -/
theorem intercalate_parts (part : Bytes) (parts : List Bytes) :
    (ascii "\r\n").intercalate
        ((parts ++ [part]).map fun part => ascii "--" ++ boundary ++ (ascii "\r\n" ++ part)) =
      ascii "--" ++ boundary ++ partsText boundary (ascii "\r\n" ++ part) parts := by
  induction parts with
  | nil => simp [partsText, List.intercalate]
  | cons head rest inductionHypothesis =>
      have more : ((rest ++ [part]).map fun part =>
          ascii "--" ++ boundary ++ (ascii "\r\n" ++ part)) ≠ [] := by
        simp
      rw [List.cons_append, List.map_cons, List.intercalate_cons_of_ne_nil more,
        inductionHypothesis, partsText, delimiter]
      have dashes : ascii "\r\n--" = ascii "\r\n" ++ ascii "--" := by decide
      simp only [dashes, List.append_assoc]

end Text

section Scan

variable {boundary part last : Bytes} {parts : List Bytes} {fuel : Nat}

private theorem scanParts_lineEnd (boundary : Bytes) (fuel : Nat) (content : Bytes) :
    scanParts boundary (fuel + 1) (ascii "\r\n" ++ content) =
      match find content (delimiter boundary) with
      | none => none
      | some index =>
          (scanParts boundary fuel (content.drop (index + (delimiter boundary).length))).map
            (content.take index :: ·) := by
  have line : ascii "\r\n" ++ content = 13 :: 10 :: content := rfl
  have noDashes : (ascii "--").isPrefixOf (13 :: 10 :: content) = false := rfl
  have kept : (13 :: 10 :: content).dropWhile isPadding = 13 :: 10 :: content := rfl
  have starts : (ascii "\r\n").isPrefixOf (13 :: 10 :: content) = true := by
    rw [List.isPrefixOf_iff_prefix]
    exact List.prefix_append (ascii "\r\n") content
  simp only [scanParts, line, noDashes, kept, starts, Bool.false_eq_true, if_false, if_true]
  rfl

/-- One part that does not have the delimiter in it. -/
theorem scanParts_part (plain : 13 ∉ boundary) (free : find part (delimiter boundary) = none)
    (rest : Bytes) :
    scanParts boundary (fuel + 1) (ascii "\r\n" ++ part ++ delimiter boundary ++ rest) =
      (scanParts boundary fuel rest).map (part :: ·) := by
  have once : 13 ∉ ascii "\n--" ++ boundary := by
    rw [List.mem_append, not_or]
    exact ⟨by decide, plain⟩
  have found : find (part ++ (delimiter boundary ++ rest)) (delimiter boundary) =
      some part.length :=
    find_append_needle once free rest
  rw [List.append_assoc, List.append_assoc, scanParts_lineEnd, found]
  dsimp only
  rw [List.take_left, ← List.drop_drop, List.drop_left, List.drop_left]

/-- All parts, by induction on them. -/
theorem scanParts_partsText (plain : 13 ∉ boundary)
    (free : ∀ part ∈ parts, find part (delimiter boundary) = none) :
    scanParts boundary (fuel + parts.length) (partsText boundary last parts) =
      (scanParts boundary fuel last).map (parts ++ ·) := by
  induction parts with
  | nil => simp [partsText]
  | cons part rest inductionHypothesis =>
      obtain ⟨partFree, restFree⟩ := List.forall_mem_cons.mp free
      rw [List.length_cons, ← Nat.add_assoc, partsText, scanParts_part plain partFree,
        inductionHypothesis restFree, Option.map_map]
      rfl

theorem length_le_partsText (boundary last : Bytes) (parts : List Bytes) :
    parts.length ≤ (partsText boundary last parts).length := by
  induction parts with
  | nil => exact Nat.zero_le _
  | cons part rest inductionHypothesis =>
      have two : (ascii "\r\n").length = 2 := by decide
      simp only [partsText, List.length_append, List.length_cons, two]
      omega

end Scan

section Payload

variable {boundary part : Bytes} {parts : List Bytes}

private theorem bodyParts_partsText (last : Bytes) (plain : 13 ∉ boundary)
    (free : ∀ part ∈ parts, find part (delimiter boundary) = none) :
    ∃ fuel, bodyParts boundary (ascii "--" ++ boundary ++ partsText boundary last parts) =
      (scanParts boundary (fuel + 1) last).map (parts ++ ·) := by
  have text : ascii "\r\n" ++ (ascii "--" ++ boundary ++ partsText boundary last parts) =
      delimiter boundary ++ partsText boundary last parts := by
    rw [List.append_assoc]
    rfl
  have nonempty : delimiter boundary ≠ [] := List.append_ne_nil_of_left_ne_nil (by decide) _
  have found := find_self_append nonempty (partsText boundary last parts)
  have enough : parts.length < (delimiter boundary ++ partsText boundary last parts).length := by
    have shorter := length_le_partsText boundary last parts
    have positive := List.length_pos_of_ne_nil nonempty
    rw [List.length_append]
    omega
  obtain ⟨fuel, isFuel⟩ := Nat.exists_eq_add_of_lt enough
  refine ⟨fuel, ?_⟩
  rw [bodyParts, text, found, isFuel]
  dsimp only
  rw [Nat.zero_add, List.drop_left, Nat.add_comm parts.length, Nat.add_right_comm,
    scanParts_partsText plain free]

/-- Parts that are closed are decoded. -/
theorem bodyParts_closed (plain : 13 ∉ boundary)
    (free : ∀ part ∈ parts, find part (delimiter boundary) = none) :
    bodyParts boundary (ascii "--" ++ boundary ++ partsText boundary (ascii "--") parts) =
      some parts := by
  obtain ⟨fuel, reached⟩ := bodyParts_partsText (ascii "--") plain free
  rw [reached, scanParts, if_pos (by decide)]
  simp

/-- Parts that are not closed are not. -/
theorem bodyParts_unclosed (plain : 13 ∉ boundary)
    (free : ∀ part ∈ parts, find part (delimiter boundary) = none)
    (lastFree : find part (delimiter boundary) = none) :
    bodyParts boundary (ascii "--" ++ boundary ++ partsText boundary (ascii "\r\n" ++ part) parts) =
      none := by
  obtain ⟨fuel, reached⟩ := bodyParts_partsText (ascii "\r\n" ++ part) plain free
  rw [reached, scanParts_lineEnd, lastFree]
  rfl

end Payload

/-! ## One part -/

section Entities

variable {line first : Bytes} {lines : List Bytes}

/-- A header line: not empty, and without a line break. -/
def IsLine (line : Bytes) : Prop :=
  line ≠ [] ∧ 13 ∉ line ∧ 10 ∉ line

private theorem stripReturn_line (isLine : IsLine line) : stripReturn line = line := by
  apply if_neg
  intro ends
  exact isLine.2.1 (List.mem_of_getLast? ends)

private theorem stripReturn_return (line : Bytes) : stripReturn (line ++ [13]) = line := by
  rw [stripReturn, List.getLast?_concat, if_pos rfl, List.dropLast_concat]

/-- Every line is a field. By induction on the lines behind the first. -/
theorem parseFields_lines (isFirst : IsLine first) (areLines : ∀ line ∈ lines, IsLine line) :
    parseFields (first ++ lines.flatMap (ascii "\r\n" ++ ·)) =
      (first :: lines).map parseField := by
  induction lines generalizing first with
  | nil =>
      rw [List.flatMap_nil, List.append_nil, parseFields, List.splitOn_eq_singleton isFirst.2.2,
        List.map_singleton, stripReturn_line isFirst, List.map_singleton]
  | cons line rest inductionHypothesis =>
      obtain ⟨isLine, restLines⟩ := List.forall_mem_cons.mp areLines
      have later := inductionHypothesis isLine restLines
      have noBreak : 10 ∉ first ++ [13] := by
        rw [List.mem_append, not_or]
        exact ⟨isFirst.2.2, by decide⟩
      have split : first ++ (line :: rest).flatMap (ascii "\r\n" ++ ·) =
          (first ++ [13]) ++ 10 :: (line ++ rest.flatMap (ascii "\r\n" ++ ·)) := by
        rw [List.flatMap_cons, List.append_assoc first [13]]
        rfl
      rw [split, parseFields, List.splitOn_append_cons_self_of_not_mem noBreak, List.map_cons,
        stripReturn_return, List.map_cons, ← later]
      rfl

/-- A part is read back: its lines are the fields, and what stands behind the empty line is
the content. -/
theorem parseEntity_lines (isFirst : IsLine first) (areLines : ∀ line ∈ lines, IsLine line)
    (content : Bytes) :
    parseEntity (first ++ lines.flatMap (ascii "\r\n" ++ ·) ++ (ascii "\r\n\r\n" ++ content)) =
      ⟨(first :: lines).map parseField, content⟩ := by
  have found := find_emptyLine isFirst.2.1
    (fun line member => ⟨(areLines line member).1, (areLines line member).2.1⟩) content
  have notEmpty : ¬ (ascii "\r\n").isPrefixOf (first ++ lines.flatMap (ascii "\r\n" ++ ·) ++
      (ascii "\r\n\r\n" ++ content)) = true := by
    obtain ⟨head, tail, rfl⟩ := List.exists_cons_of_ne_nil isFirst.1
    rw [List.isPrefixOf_iff_prefix]
    intro starts
    have same : 13 = head := (List.cons_prefix_cons.mp starts).1
    exact isFirst.2.1 (same ▸ List.mem_cons_self)
  have width : (ascii "\r\n\r\n").length = 4 := by decide
  rw [parseEntity, if_neg notEmpty, found]
  dsimp only
  rw [List.take_left, parseFields_lines isFirst areLines, ← List.drop_drop, List.drop_left,
    ← width, List.drop_left]

/-- A line with a colon and a space is a field with a name and a value. -/
theorem parseField_colon {name : Bytes} (plain : 58 ∉ name) (value : Bytes) :
    parseField (name ++ ascii ": " ++ value) = (name, value) := by
  have whole : (name ++ ascii ": " ++ value).takeWhile (· != 58) = name := by
    rw [List.append_assoc, List.takeWhile_append_of_pos]
    · exact List.append_nil name
    · intro byte member
      rw [bne_iff_ne]
      rintro rfl
      exact plain member
  have behind : (name ++ ascii ": " ++ value).drop (name.length + 1) = 32 :: value := by
    rw [List.append_assoc, ← List.drop_drop, List.drop_left]
    rfl
  rw [parseField, whole, behind]
  rfl

end Entities

end Onyxup.Lib.MimeMultipart
