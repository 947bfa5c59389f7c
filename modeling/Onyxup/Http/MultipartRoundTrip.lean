import Onyxup.Http.MultipartEncoding

/-!
Contract: what `multipartFormData` makes of a body that a client has encoded.

Owns: where the searches for the boundary end in an encoded body, the objects the
loop reads from it, and the exact condition under which the parser gives the
fields back.

Does not own: the headers of one part.

The parser looks for the boundary of the header, but a delimiter line is that
boundary with two dashes in front. How the two line up decides what it copies.
-/

set_option autoImplicit false

namespace Onyxup.Http

open Onyxup.Lib
open Onyxup.Lib.CString

/-- Every occurrence of the boundary lies inside a delimiter line, which is four
bytes longer than the boundary. -/
def OnlyInDelimiters (boundary : Bytes) (fields : List MultipartFormDataObject) : Prop :=
  ∀ index, OccursAt boundary (encode boundary fields) index →
    ∃ count ≤ fields.length,
      (encodeParts boundary (fields.take count)).length ≤ index ∧
        index ≤ (encodeParts boundary (fields.take count)).length + 4

/-- A form that a client may submit. -/
structure Form where
  boundary : Bytes
  fields : List MultipartFormDataObject
  names : ∀ field ∈ fields, Token field.name
  filenames : ∀ field ∈ fields, Token field.filename
  contentTypes : ∀ field ∈ fields, Token field.contentType
  distinct : (fields.map MultipartFormDataObject.name).Nodup
  onlyInDelimiters : OnlyInDelimiters boundary fields

/-- The request that submits the form. -/
structure Submits (request : Request) (form : Form) : Prop where
  contentType : request.headers.lookup (ascii "content-type") =
    some (ascii "multipart/form-data; boundary=" ++ form.boundary)
  body : request.body = encode form.boundary form.fields

/-- The parser returns exactly the fields of the form. -/
def GivesBack (request : Request) (form : Form) : Prop :=
  ∃ result, multipartFormData request = .ok result ∧
    ∀ name object, result.lookup name = some object ↔
      object ∈ form.fields ∧ object.name = name

/-! ## Delimiters -/

section Delimiters

variable {boundary back : Bytes} {field : MultipartFormDataObject}
  {fields : List MultipartFormDataObject}

theorem encode_cons (boundary : Bytes) (field : MultipartFormDataObject)
    (fields : List MultipartFormDataObject) :
    encode boundary (field :: fields) = encodePart boundary field ++ encode boundary fields := by
  simp [encode, encodeParts]

private theorem encodeParts_take_succ (boundary : Bytes) (field : MultipartFormDataObject)
    (fields : List MultipartFormDataObject) (count : Nat) :
    (encodeParts boundary ((field :: fields).take (count + 1))).length =
      (encodePart boundary field).length +
        (encodeParts boundary (fields.take count)).length := by
  simp [encodeParts]

private theorem encodePart_length (boundary : Bytes) (field : MultipartFormDataObject) :
    (encodePart boundary field).length = 2 + boundary.length + (partContent field).length := by
  rw [encodePart, List.length_append, List.length_append]
  have width : dashes.length = 2 := by decide
  omega

private theorem partContent_long (field : MultipartFormDataObject) :
    12 < (partContent field).length := by
  have introduction : 12 < (ascii "\r\nContent-Disposition: form-data; name=").length := by decide
  rw [partContent, partHeaders, List.length_append, List.length_append]
  omega

theorem OnlyInDelimiters.tail (only : OnlyInDelimiters boundary (field :: fields)) :
    OnlyInDelimiters boundary fields := by
  intro index occurs
  have width := encodePart_length boundary field
  have long := partContent_long field
  obtain ⟨count, few, from_, upTo⟩ := only ((encodePart boundary field).length + index) (by
    rw [encode_cons, occursAt_append]
    exact occurs)
  cases count with
  | zero =>
      have nothing : (encodeParts boundary ((field :: fields).take 0)).length = 0 := rfl
      omega
  | succ count =>
      rw [encodeParts_take_succ] at from_ upTo
      exact ⟨count, Nat.le_of_succ_le_succ few, by omega, by omega⟩

/-- Between the first delimiter line and the next there is no boundary. -/
theorem OnlyInDelimiters.inside (only : OnlyInDelimiters boundary (field :: fields)) {index : Nat}
    (behind : 4 < index) (before : index < (encodePart boundary field).length) :
    ¬ OccursAt boundary (encodePart boundary field ++ encode boundary fields) index := by
  intro occurs
  rw [← encode_cons] at occurs
  obtain ⟨count, few, from_, upTo⟩ := only index occurs
  cases count with
  | zero =>
      have nothing : (encodeParts boundary ((field :: fields).take 0)).length = 0 := rfl
      omega
  | succ count =>
      rw [encodeParts_take_succ] at from_
      omega

/-- Where the boundary is found in a delimiter, and what is left of the delimiter
then. -/
structure LinesUp (boundary ahead left : Bytes) : Prop where
  nonempty : boundary ≠ []
  onlyDashes : ∀ byte ∈ left, byte = 45
  splits : dashes ++ boundary = ahead ++ (boundary ++ left)
  found : ∀ back, find (dashes ++ (boundary ++ back)) boundary = some ahead.length

private theorem dashes_eq : dashes = List.replicate 2 45 := by
  decide

private theorem eq_dash_of_mem : ∀ byte ∈ dashes, byte = 45 := by
  intro byte member
  rw [dashes_eq] at member
  exact List.eq_of_mem_replicate member

theorem linesUp_of_dashes (nonempty : boundary ≠ []) (all : ∀ byte ∈ boundary, byte = 45) :
    LinesUp boundary [] dashes := by
  have commutes : dashes ++ boundary = boundary ++ dashes := by
    have run : boundary = List.replicate boundary.length 45 := List.eq_replicate_of_mem all
    rw [run, dashes_eq, List.replicate_append_replicate, List.replicate_append_replicate,
      Nat.add_comm]
  refine ⟨nonempty, eq_dash_of_mem, commutes, ?_⟩
  intro back
  rw [← List.append_assoc, commutes, List.append_assoc, find_self_append nonempty]
  rfl

theorem linesUp_of_other (other : ¬ ∀ byte ∈ boundary, byte = 45) :
    LinesUp boundary dashes [] := by
  have nonempty : boundary ≠ [] := by
    rintro rfl
    exact other (by simp)
  refine ⟨nonempty, by simp, by simp, ?_⟩
  intro back
  have width : dashes.length = 2 := by decide
  rw [find_eq_some_iff nonempty]
  constructor
  · rw [OccursAt, List.drop_left]
    exact List.prefix_append _ _
  · intro earlier before occurs
    apply other
    have starts : dashes.drop earlier ≠ [] := by
      rw [ne_eq, List.drop_eq_nil_iff]
      omega
    rw [OccursAt, List.drop_append_of_le_length (by omega)] at occurs
    apply eq_of_overlap starts _ occurs
    intro byte member
    exact eq_dash_of_mem byte (List.mem_of_mem_drop member)

/-- The text that the loop sees behind a delimiter. -/
def behindDelimiter (boundary : Bytes) : List MultipartFormDataObject → Bytes
  | [] => dashes
  | field :: fields => partContent field ++ encode boundary fields

theorem encode_eq (boundary : Bytes) (fields : List MultipartFormDataObject) :
    encode boundary fields = dashes ++ (boundary ++ behindDelimiter boundary fields) := by
  cases fields with
  | nil => rfl
  | cons field fields =>
      rw [encode_cons, encodePart, behindDelimiter]
      simp only [List.append_assoc]

section LinedUp

variable {ahead left : Bytes} (linesUp : LinesUp boundary ahead left)

include linesUp

theorem LinesUp.widths : ahead.length + left.length = 2 := by
  have widths := congrArg List.length linesUp.splits
  have width : dashes.length = 2 := by decide
  simp only [List.length_append] at widths
  omega

theorem LinesUp.encode_find (fields : List MultipartFormDataObject) :
    find (encode boundary fields) boundary = some ahead.length := by
  rw [encode_eq]
  exact linesUp.found _

theorem LinesUp.encode_drop (fields : List MultipartFormDataObject) :
    (encode boundary fields).drop (ahead.length + boundary.length) =
      left ++ behindDelimiter boundary fields := by
  rw [encode_eq, ← List.append_assoc, linesUp.splits]
  simp only [List.append_assoc]
  rw [← List.append_assoc, ← List.length_append, List.drop_left]

/-- An occurrence behind the first delimiter is one of the whole body. -/
theorem LinesUp.occursAt (index : Nat) :
    OccursAt boundary (left ++ (partContent field ++ encode boundary fields)) index ↔
      OccursAt boundary (encodePart boundary field ++ encode boundary fields)
        (ahead.length + boundary.length + index) := by
  have whole : encodePart boundary field ++ encode boundary fields =
      (ahead ++ boundary) ++ (left ++ (partContent field ++ encode boundary fields)) := by
    rw [encodePart, ← List.append_assoc dashes, linesUp.splits]
    simp only [List.append_assoc]
  rw [whole, ← List.length_append, occursAt_append]

/-- The next boundary is that of the next delimiter, if no boundary starts in the
rest of this one. -/
theorem LinesUp.find_next (only : OnlyInDelimiters boundary (field :: fields))
    (clear : ∀ index, ahead.length + boundary.length + index ≤ 4 →
      ¬ OccursAt boundary (left ++ (partContent field ++ encode boundary fields)) index) :
    find (left ++ (partContent field ++ encode boundary fields)) boundary =
      some ((left ++ partContent field).length + ahead.length) := by
  rw [← List.append_assoc, find_append_of_untouched linesUp.nonempty, linesUp.encode_find,
    Option.map_some]
  intro index before
  rw [List.append_assoc]
  by_cases near : ahead.length + boundary.length + index ≤ 4
  · exact clear index near
  · rw [linesUp.occursAt]
    apply only.inside (by omega)
    have widths := linesUp.widths
    rw [List.length_append] at before
    rw [encodePart_length]
    omega

end LinedUp

/-- What the loop reads from an encoded field. -/
structure ReadAs (ahead : Bytes) (field object : MultipartFormDataObject) : Prop where
  name : object.name = field.name
  filename : object.filename = field.filename ↔ FilenameLegible field
  contentType : object.contentType = field.contentType ↔ ContentTypeLegible field
  data : object.data = field.data ++ lineBreak.take ahead.length

private theorem find_contentDisposition (left back : Bytes) :
    (find (left ++ (partContent field ++ back)) contentDisposition).isNone = false := by
  have introduction : ascii "\r\nContent-Disposition: form-data; name=" =
      lineBreak ++ (contentDisposition ++ ascii "; name=") := by decide
  rw [Option.isNone_eq_false_iff, Option.isSome_iff_ne_none, ne_eq,
    find_eq_none_iff (by decide)]
  intro nowhere
  apply nowhere ((left ++ lineBreak).length + 0)
  simp only [partContent, partHeaders, introduction, List.append_assoc]
  rw [← List.append_assoc left, occursAt_append]
  exact List.prefix_append _ _

private theorem find_emptyLine_part {left : Bytes} (onlyDashes : ∀ byte ∈ left, byte = 45)
    (nameToken : Token field.name) (filenameToken : Token field.filename)
    (token : Token field.contentType) (back : Bytes) :
    find (left ++ (partContent field ++ back)) emptyLine =
      some (left.length + (partHeaders field).length) := by
  have starts : emptyLine = 13 :: ascii "\n\r\n" := by decide
  have missing : 13 ∉ left := fun member => absurd (onlyDashes 13 member) (by decide)
  have skipped : find (left ++ (partContent field ++ back)) emptyLine =
      (find (partContent field ++ back) emptyLine).map (left.length + ·) := by
    rw [starts]
    exact find_append_of_not_mem missing _
  rw [skipped, partContent, List.append_assoc, List.append_assoc,
    find_emptyLine nameToken filenameToken token]
  rfl

private theorem copyData_part {left ahead back : Bytes} (few : ahead.length ≤ 2) :
    copyData (left ++ (partContent field ++ back))
        (some (left.length + (partHeaders field).length))
        ((left ++ partContent field).length + ahead.length) =
      .ok (field.data ++ lineBreak.take ahead.length) := by
  have widths : emptyLine.length = 4 ∧ lineBreak.length = 2 := by decide
  have content : (partContent field).length =
      (partHeaders field).length + 4 + field.data.length + 2 := by
    simp only [partContent, List.length_append, widths]
    omega
  have behind : (left ++ (partContent field ++ back)).drop
      (left.length + (partHeaders field).length + 4) = field.data ++ (lineBreak ++ back) := by
    rw [partContent, ← widths.1]
    simp only [← List.append_assoc, ← List.length_append]
    rw [List.append_assoc _ field.data, List.append_assoc _ (field.data ++ lineBreak),
      List.drop_left, List.append_assoc]
  have amount : (left ++ partContent field).length + ahead.length - 2 -
      (left.length + (partHeaders field).length + 4) = field.data.length + ahead.length := by
    rw [List.length_append]
    omega
  have fits : left.length + (partHeaders field).length + 4 + 2 ≤
      (left ++ partContent field).length + ahead.length := by
    rw [List.length_append]
    omega
  simp only [copyData]
  rw [if_pos fits, behind, amount, List.take_length_add_append,
    List.take_append_of_le_length (by omega)]

/-- One turn of the loop on an encoded field. -/
theorem LinesUp.readPart {ahead left : Bytes} (linesUp : LinesUp boundary ahead left)
    (nameToken : Token field.name) (filenameToken : Token field.filename)
    (token : Token field.contentType)
    (next : find (left ++ (partContent field ++ encode boundary fields)) boundary =
      some ((left ++ partContent field).length + ahead.length)) :
    ∃ object, readPart boundary (left ++ (partContent field ++ encode boundary fields)) =
        .ok (some (object, some (left ++ behindDelimiter boundary fields))) ∧
      ReadAs ahead field object := by
  have outside : ∀ byte : UInt8, byte ≠ 45 → byte ∉ left :=
    fun byte other member => other (linesUp.onlyDashes byte member)
  obtain ⟨back, content⟩ : ∃ back, partContent field ++ encode boundary fields =
      partHeaders field ++ (emptyLine ++ back) :=
    ⟨field.data ++ (lineBreak ++ encode boundary fields), by
      simp only [partContent, List.append_assoc]⟩
  have starts : emptyLine = 13 :: ascii "\n\r\n" := by decide
  have present : (find (left ++ (partContent field ++ encode boundary fields))
      contentDisposition).isNone = false := find_contentDisposition _ _
  have emptyLineAt : find (left ++ (partContent field ++ encode boundary fields)) emptyLine =
      some (left.length + (partHeaders field).length) :=
    find_emptyLine_part linesUp.onlyDashes nameToken filenameToken token _
  have name : readAttribute (ascii "name=") nameStops
      (left ++ (partContent field ++ encode boundary fields)) = field.name := by
    have skips : ascii "name=" = 110 :: ascii "ame=" := by decide
    rw [skips, readAttribute_skip (outside 110 (by decide)), ← skips, content]
    exact readAttribute_name nameToken _
  have filename : readAttribute (ascii "filename=") nameStops
      (left ++ (partContent field ++ encode boundary fields)) = field.filename ↔
        FilenameLegible field := by
    have skips : ascii "filename=" = 102 :: ascii "ilename=" := by decide
    rw [skips, readAttribute_skip (outside 102 (by decide)), ← skips, content]
    exact readAttribute_filename nameToken filenameToken _
  have contentType : readAttribute (ascii "Content-Type:") lineStops
      (left ++ (partContent field ++ encode boundary fields)) = field.contentType ↔
        ContentTypeLegible field := by
    have skips : ascii "Content-Type:" = 67 :: ascii "ontent-Type:" := by decide
    rw [skips, readAttribute_skip (outside 67 (by decide)), ← skips, content, starts]
    exact readAttribute_contentType nameToken filenameToken token _
  have few : ahead.length ≤ 2 := by
    have widths := linesUp.widths
    omega
  refine ⟨⟨_, _, _, _⟩, ?_, name, filename, contentType, rfl⟩
  rw [Http.readPart, present, if_neg (by simp)]
  have rest : (left ++ (partContent field ++ encode boundary fields)).drop
      ((left ++ partContent field).length + ahead.length + boundary.length) =
        left ++ behindDelimiter boundary fields := by
    rw [← List.append_assoc, Nat.add_assoc, ← List.drop_drop, List.drop_left,
      linesUp.encode_drop]
  simp only [next, emptyLineAt, copyData_part few, rest]
  rfl

/-- The loop behind the last delimiter ends. -/
theorem readPart_end {left : Bytes} (onlyDashes : ∀ byte ∈ left, byte = 45) :
    readPart boundary (left ++ dashes) = .ok none := by
  have starts : contentDisposition = 67 :: ascii "ontent-Disposition: form-data" := by decide
  have missing : (67 : UInt8) ∉ left ++ dashes := by
    intro member
    rcases List.mem_append.mp member with inside | dash
    · exact absurd (onlyDashes 67 inside) (by decide)
    · exact absurd dash (by decide)
  have nowhere : find (left ++ dashes) contentDisposition = none := by
    rw [starts, ← List.append_nil (left ++ dashes), find_append_of_not_mem missing]
    rfl
  rw [readPart, nowhere]
  rfl

theorem multipartParts_end {left : Bytes} (onlyDashes : ∀ byte ∈ left, byte = 45)
    (count : Nat) : multipartParts boundary count (left ++ dashes) = .ok [] := by
  cases count with
  | zero => rfl
  | succ count => rw [multipartParts, readPart_end onlyDashes]

/-- The whole loop on the encoded fields. By induction on the fields. -/
theorem LinesUp.multipartParts {ahead left : Bytes} (linesUp : LinesUp boundary ahead left)
    (names : ∀ field ∈ fields, Token field.name)
    (filenames : ∀ field ∈ fields, Token field.filename)
    (contentTypes : ∀ field ∈ fields, Token field.contentType)
    (only : OnlyInDelimiters boundary fields)
    (clear : ∀ field rest, OnlyInDelimiters boundary (field :: rest) →
      ∀ index, ahead.length + boundary.length + index ≤ 4 →
        ¬ OccursAt boundary (left ++ (partContent field ++ encode boundary rest)) index)
    {count : Nat} (enough : fields.length ≤ count) :
    ∃ objects, multipartParts boundary count (left ++ behindDelimiter boundary fields) =
        .ok objects ∧
      List.Forall₂ (ReadAs ahead) fields objects := by
  induction fields generalizing count with
  | nil => exact ⟨[], multipartParts_end linesUp.onlyDashes count, .nil⟩
  | cons field fields inductionHypothesis =>
      obtain ⟨count, rfl⟩ : ∃ less, count = less + 1 := Nat.exists_eq_add_one_of_ne_zero (by
        rintro rfl
        exact absurd enough (by simp))
      obtain ⟨object, reads, readAs⟩ := linesUp.readPart
        (names field List.mem_cons_self) (filenames field List.mem_cons_self)
        (contentTypes field List.mem_cons_self)
        (linesUp.find_next only (clear field fields only))
      obtain ⟨objects, runs, others⟩ := inductionHypothesis
        (fun other member => names other (List.mem_cons_of_mem _ member))
        (fun other member => filenames other (List.mem_cons_of_mem _ member))
        (fun other member => contentTypes other (List.mem_cons_of_mem _ member))
        only.tail (Nat.le_of_succ_le_succ enough)
      refine ⟨object :: objects, ?_, .cons readAs others⟩
      rw [behindDelimiter, multipartParts_succ reads, runs]
      rfl

/-- A boundary inside the line break behind a delimiter is also in the one behind
the data. -/
theorem clear_of_other (linesUp : LinesUp boundary dashes [])
    (only : OnlyInDelimiters boundary (field :: fields)) {index : Nat}
    (near : dashes.length + boundary.length + index ≤ 4) :
    ¬ OccursAt boundary ([] ++ (partContent field ++ encode boundary fields)) index := by
  intro occurs
  have widths : dashes.length = 2 ∧ lineBreak.length = 2 := by decide
  have positive := List.length_pos_of_ne_nil linesUp.nonempty
  have long := partContent_long field
  let content := partHeaders field ++ (emptyLine ++ field.data)
  have ends : partContent field = content ++ lineBreak := by
    simp only [partContent, content, List.append_assoc]
  have inBreak : OccursAt boundary lineBreak index := by
    rw [partContent, partHeaders_lines] at occurs
    simp only [List.nil_append, List.append_assoc] at occurs
    exact (occursAt_append_left (by omega)).mp occurs
  have again : OccursAt boundary ([] ++ (partContent field ++ encode boundary fields))
      (content.length + index) := by
    rw [List.nil_append, ends, List.append_assoc, occursAt_append]
    exact (occursAt_append_left (by omega)).mpr inBreak
  rw [linesUp.occursAt] at again
  have size : (partContent field).length = content.length + 2 := by
    rw [ends, List.length_append, widths.2]
  apply only.inside _ _ again
  · omega
  · rw [encodePart_length]
    omega

/-- A line break is not a dash. -/
theorem clear_of_dashes (all : ∀ byte ∈ boundary, byte = 45) (long : 3 ≤ boundary.length)
    (field : MultipartFormDataObject) (back : Bytes) {index : Nat}
    (near : ([] : Bytes).length + boundary.length + index ≤ 4) :
    ¬ OccursAt boundary (dashes ++ (partContent field ++ back)) index := by
  intro occurs
  rw [List.length_nil] at near
  have inside : 2 - index < boundary.length := by omega
  have position : index + (2 - index) = 2 := by omega
  have dash := all _ (List.getElem_mem inside)
  have lines : dashes ++ lineBreak = [45, 45, 13, 10] := by decide
  rw [OccursAt, partContent, partHeaders_lines] at occurs
  simp only [List.append_assoc] at occurs
  rw [← List.append_assoc dashes, lines] at occurs
  have same := List.IsPrefix.getElem occurs inside
  simp only [List.getElem_drop, position, List.cons_append, List.getElem_cons_succ,
    List.getElem_cons_zero] at same
  rw [dash] at same
  exact absurd same (by decide)

end Delimiters

/-! ## The map of fields -/

/-- `emplace` keeps what is there. By induction on the objects. -/
theorem lookup_foldl_emplace {objects : List MultipartFormDataObject} {start : Fields}
    (named : ∀ object ∈ objects, object.name ≠ [])
    (distinct : (objects.map MultipartFormDataObject.name).Nodup)
    (fresh : ∀ object ∈ objects, object.name ∉ start) (name : Bytes)
    (object : MultipartFormDataObject) :
    (objects.foldl emplace start).lookup name = some object ↔
      start.lookup name = some object ∨ object ∈ objects ∧ object.name = name := by
  induction objects generalizing start with
  | nil => simp
  | cons first rest inductionHypothesis =>
      have firstFresh := fresh first List.mem_cons_self
      have emplaced : emplace start first = start.insert first.name first := by
        rw [emplace, if_neg (named first List.mem_cons_self), if_neg firstFresh]
      rw [List.map_cons, List.nodup_cons] at distinct
      rw [List.foldl_cons, inductionHypothesis, emplaced]
      · by_cases isFirst : name = first.name
        · rw [isFirst, Finmap.lookup_insert, Option.some.injEq, List.mem_cons,
            Finmap.lookup_eq_none.mpr firstFresh]
          constructor
          · rintro (rfl | ⟨member, same⟩)
            · exact .inr ⟨.inl rfl, rfl⟩
            · exact .inr ⟨.inr member, same⟩
          · rintro (impossible | ⟨rfl | member, same⟩)
            · cases impossible
            · exact .inl rfl
            · exact .inr ⟨member, same⟩
        · rw [Finmap.lookup_insert_of_ne _ isFirst, List.mem_cons]
          apply or_congr_right
          constructor
          · rintro ⟨member, same⟩
            exact ⟨.inr member, same⟩
          · rintro ⟨rfl | member, same⟩
            · exact absurd same.symm isFirst
            · exact ⟨member, same⟩
      · intro other member
        exact named other (List.mem_cons_of_mem _ member)
      · exact distinct.2
      · intro other member
        rw [emplaced, Finmap.mem_insert]
        rintro (same | old)
        · exact distinct.1 (same ▸ List.mem_map_of_mem member)
        · exact fresh other (List.mem_cons_of_mem _ member) old

/-! ## The round trip -/

section RoundTrip

variable {form : Form} {request : Request}

private theorem multipartFormData_of_submits (submits : Submits request form) :
    multipartFormData request =
      if form.boundary = [] then .ok ∅
      else (do
        let objects ← leadingParts form.boundary (encode form.boundary form.fields)
          (encode form.boundary form.fields).length
        .ok (objects.foldl emplace ∅)) := by
  have kind : find (ascii "multipart/form-data; boundary=") (ascii "multipart/form-data") =
      some 0 := by decide
  have announced : find (ascii "multipart/form-data; boundary=") (ascii "boundary=") =
      some 21 := by decide +kernel
  have width : (ascii "multipart/form-data; boundary=").length = 21 + 9 := by decide
  rw [multipartFormData, submits.contentType]
  dsimp only
  rw [find_append_of_some (by decide) announced, find_append_of_some (by decide) kind]
  dsimp only
  rw [← width, List.drop_left, if_neg (by simp), submits.body]

private theorem leadingParts_of_linesUp {boundary ahead left : Bytes}
    (linesUp : LinesUp boundary ahead left) (fields : List MultipartFormDataObject)
    (count : Nat) :
    leadingParts boundary (encode boundary fields) count =
      multipartParts boundary count (left ++ behindDelimiter boundary fields) := by
  rw [leadingParts, linesUp.encode_find]
  dsimp only
  rw [linesUp.encode_drop]

private theorem length_le_encode (boundary : Bytes) (fields : List MultipartFormDataObject) :
    fields.length ≤ (encode boundary fields).length := by
  induction fields with
  | nil => exact Nat.zero_le _
  | cons field fields inductionHypothesis =>
      rw [encode_cons, List.length_append, encodePart_length, List.length_cons]
      omega

private theorem names_of_readAs {ahead : Bytes} {fields objects : List MultipartFormDataObject}
    (readAs : List.Forall₂ (ReadAs ahead) fields objects) :
    objects.map MultipartFormDataObject.name = fields.map MultipartFormDataObject.name := by
  induction readAs with
  | nil => rfl
  | cons read _ inductionHypothesis =>
      rw [List.map_cons, List.map_cons, read.name, inductionHypothesis]

private theorem eq_of_names {fields objects : List MultipartFormDataObject}
    (distinct : (fields.map MultipartFormDataObject.name).Nodup)
    (sameNames : objects.map MultipartFormDataObject.name =
      fields.map MultipartFormDataObject.name)
    (belong : ∀ object ∈ objects, object ∈ fields) : objects = fields := by
  have sameLength : objects.length = fields.length := by
    simpa using congrArg List.length sameNames
  apply List.ext_getElem sameLength
  intro index inObjects inFields
  apply List.inj_on_of_nodup_map distinct (belong _ (List.getElem_mem inObjects))
    (List.getElem_mem inFields)
  have atIndex := List.getElem_of_eq sameNames (by simpa using inObjects)
  simpa using atIndex

private theorem givesBack_iff_of_readAs {ahead : Bytes} {objects : List MultipartFormDataObject}
    (submits : Submits request form) (nonempty : form.boundary ≠ [])
    (runs : leadingParts form.boundary (encode form.boundary form.fields)
      (encode form.boundary form.fields).length = .ok objects)
    (readAs : List.Forall₂ (ReadAs ahead) form.fields objects) :
    GivesBack request form ↔ objects = form.fields := by
  have sameNames := names_of_readAs readAs
  have named : ∀ object ∈ objects, object.name ≠ [] := by
    intro object member
    have isName : object.name ∈ form.fields.map MultipartFormDataObject.name := by
      rw [← sameNames]
      exact List.mem_map_of_mem member
    obtain ⟨field, belongs, same⟩ := List.mem_map.mp isName
    rw [← same]
    exact (form.names field belongs).nonempty
  have held : ∀ name object, (objects.foldl emplace ∅).lookup name = some object ↔
      object ∈ objects ∧ object.name = name := by
    intro name object
    rw [lookup_foldl_emplace named (sameNames ▸ form.distinct)
      (fun _ _ => Finmap.notMem_empty), Finmap.lookup_empty]
    simp
  rw [GivesBack, multipartFormData_of_submits submits, if_neg nonempty, runs]
  constructor
  · rintro ⟨result, isResult, holds⟩
    cases isResult
    apply eq_of_names form.distinct sameNames
    intro object member
    exact ((holds _ _).mp ((held _ _).mpr ⟨member, rfl⟩)).1
  · intro same
    refine ⟨_, rfl, ?_⟩
    rwa [same] at held ⊢

private theorem ReadAs.unique {ahead : Bytes} {field object : MultipartFormDataObject}
    (itself : ReadAs ahead field field) (other : ReadAs ahead field object) :
    object = field :=
  MultipartFormDataObject.ext other.name (other.filename.mpr (itself.filename.mp rfl))
    (other.contentType.mpr (itself.contentType.mp rfl)) (other.data.trans itself.data.symm)

private theorem eq_iff_readAs {ahead : Bytes} {fields objects : List MultipartFormDataObject}
    (readAs : List.Forall₂ (ReadAs ahead) fields objects) :
    objects = fields ↔ ∀ field ∈ fields, ReadAs ahead field field := by
  constructor
  · rintro rfl
    exact List.forall₂_same.mp readAs
  · intro themselves
    induction readAs with
    | nil => rfl
    | cons read _ inductionHypothesis =>
        rw [List.forall_mem_cons] at themselves
        rw [themselves.1.unique read, inductionHypothesis themselves.2]

private theorem readAs_self_iff (field : MultipartFormDataObject) :
    ReadAs [] field field ↔ FilenameLegible field ∧ ContentTypeLegible field := by
  constructor
  · intro readAs
    exact ⟨readAs.filename.mp rfl, readAs.contentType.mp rfl⟩
  · rintro ⟨filename, contentType⟩
    exact ⟨rfl, iff_of_true rfl filename, iff_of_true rfl contentType, by simp⟩

private theorem not_readAs_self (field : MultipartFormDataObject) :
    ¬ ReadAs dashes field field := by
  intro readAs
  have longer := congrArg List.length readAs.data
  have width : (lineBreak.take dashes.length).length = 2 := by decide
  rw [List.length_append, width] at longer
  omega

/-- A run of at least three dashes: it is also found at the start of a delimiter. -/
def DashBoundary (boundary : Bytes) : Prop :=
  (∀ byte ∈ boundary, byte = 45) ∧ 3 ≤ boundary.length

private theorem givesBack_iff_of_linesUp {ahead left : Bytes} (submits : Submits request form)
    (linesUp : LinesUp form.boundary ahead left)
    (clear : ∀ field rest, OnlyInDelimiters form.boundary (field :: rest) →
      ∀ index, ahead.length + form.boundary.length + index ≤ 4 →
        ¬ OccursAt form.boundary
          (left ++ (partContent field ++ encode form.boundary rest)) index) :
    GivesBack request form ↔ ∀ field ∈ form.fields, ReadAs ahead field field := by
  obtain ⟨objects, runs, readAs⟩ := linesUp.multipartParts form.names form.filenames
    form.contentTypes form.onlyInDelimiters clear (length_le_encode form.boundary form.fields)
  rw [← leadingParts_of_linesUp linesUp] at runs
  rw [givesBack_iff_of_readAs submits linesUp.nonempty runs readAs, eq_iff_readAs readAs]

private theorem two_le_length {boundary : Bytes} {field : MultipartFormDataObject}
    {fields : List MultipartFormDataObject}
    (only : OnlyInDelimiters boundary (field :: fields)) (all : ∀ byte ∈ boundary, byte = 45) :
    2 ≤ boundary.length := by
  by_contra short
  have size := encodePart_length boundary field
  have long := partContent_long field
  cases boundary with
  | nil =>
      have nowhere : ¬ OccursAt [] (encodePart [] field ++ encode [] fields) 5 :=
        only.inside (by omega) (by omega)
      exact nowhere List.nil_prefix
  | cons dash rest =>
      obtain rfl : rest = [] := List.eq_nil_of_length_eq_zero (by
        rw [List.length_cons] at short
        omega)
      obtain rfl := all dash List.mem_cons_self
      -- `Content-Disposition` has a dash.
      have introduction : dashes ++ ([45] ++ ascii "\r\nContent-Disposition: form-data; name=") =
          ascii "---\r\nContent" ++ ([45] ++ ascii "Disposition: form-data; name=") := by decide
      have width : (ascii "---\r\nContent").length = 12 := by decide
      have nowhere : ¬ OccursAt [45] (encodePart [45] field ++ encode [45] fields)
          ((ascii "---\r\nContent").length + 0) := by
        apply only.inside (by omega)
        rw [List.length_singleton] at size
        omega
      apply nowhere
      rw [encodePart, partContent, partHeaders]
      simp only [List.append_assoc]
      rw [← List.append_assoc [45], ← List.append_assoc dashes, introduction,
        List.append_assoc, List.append_assoc, occursAt_append]
      exact List.prefix_append _ _

private theorem not_givesBack_of_two {field : MultipartFormDataObject}
    {rest : List MultipartFormDataObject} (submits : Submits request form)
    (first : form.fields = field :: rest) (two : form.boundary = dashes) :
    ¬ GivesBack request form := by
  have member : field ∈ form.fields := by
    rw [first]
    exact List.mem_cons_self
  have linesUp : LinesUp dashes [] dashes := linesUp_of_dashes (by decide) eq_dash_of_mem
  have faults : readPart dashes (dashes ++ (partContent field ++ encode dashes rest)) =
      .error .invalidRange := by
    rw [readPart, find_contentDisposition, if_neg (by simp), find_self_append (by decide),
      find_emptyLine_part eq_dash_of_mem (form.names field member) (form.filenames field member)
        (form.contentTypes field member)]
    simp only [copyData]
    rw [if_neg (by omega)]
    rfl
  obtain ⟨turns, enough⟩ : ∃ turns, (encode dashes (field :: rest)).length = turns + 1 := by
    apply Nat.exists_eq_add_one_of_ne_zero
    have long := length_le_encode dashes (field :: rest)
    rw [List.length_cons] at long
    omega
  have stops : multipartFormData request = .error .invalidRange := by
    rw [multipartFormData_of_submits submits, first, two, if_neg (by decide),
      leadingParts_of_linesUp linesUp, enough, multipartParts, behindDelimiter, faults]
    rfl
  rw [GivesBack, stops]
  rintro ⟨_, impossible, _⟩
  cases impossible

private theorem givesBack_of_nil (submits : Submits request form) (none : form.fields = []) :
    GivesBack request form := by
  by_cases empty : form.boundary = []
  · rw [GivesBack, multipartFormData_of_submits submits, if_pos empty]
    exact ⟨∅, rfl, by simp [none]⟩
  · obtain ⟨ahead, left, linesUp⟩ : ∃ ahead left, LinesUp form.boundary ahead left := by
      by_cases all : ∀ byte ∈ form.boundary, byte = 45
      · exact ⟨_, _, linesUp_of_dashes empty all⟩
      · exact ⟨_, _, linesUp_of_other all⟩
    have runs : leadingParts form.boundary (encode form.boundary form.fields)
        (encode form.boundary form.fields).length = .ok [] := by
      rw [leadingParts_of_linesUp linesUp, none]
      exact multipartParts_end linesUp.onlyDashes _
    have nothing : List.Forall₂ (ReadAs ahead) form.fields [] := by
      rw [none]
      exact .nil
    rw [givesBack_iff_of_readAs submits empty runs nothing, none]

/-- The parser gives the fields back exactly if there are none, or the boundary is
made of three dashes or more and no name hides an attribute of its part. -/
theorem gives_back_iff (submits : Submits request form) :
    GivesBack request form ↔
      form.fields = [] ∨
        DashBoundary form.boundary ∧
          ∀ field ∈ form.fields, FilenameLegible field ∧ ContentTypeLegible field := by
  by_cases none : form.fields = []
  · exact iff_of_true (givesBack_of_nil submits none) (.inl none)
  rw [or_iff_right none]
  obtain ⟨field, rest, first⟩ := List.exists_cons_of_ne_nil none
  have only := form.onlyInDelimiters
  rw [first] at only
  by_cases all : ∀ byte ∈ form.boundary, byte = 45
  · have two := two_le_length only all
    by_cases long : 3 ≤ form.boundary.length
    · have nonempty : form.boundary ≠ [] := List.ne_nil_of_length_pos (by omega)
      rw [givesBack_iff_of_linesUp submits (linesUp_of_dashes nonempty all)
        fun field rest _ index near => clear_of_dashes all long field _ near,
        and_iff_right ⟨all, long⟩]
      simp only [readAs_self_iff]
    · have isDashes : form.boundary = dashes := by
        rw [List.eq_replicate_of_mem all, show form.boundary.length = 2 by omega]
        decide
      exact iff_of_false (not_givesBack_of_two submits first isDashes)
        fun both => long both.1.2
  · rw [givesBack_iff_of_linesUp submits (linesUp_of_other all)
      fun field rest only index near => clear_of_other (linesUp_of_other all) only near]
    refine iff_of_false ?_ fun both => all both.1.1
    intro themselves
    exact not_readAs_self field (themselves field (by rw [first]; exact List.mem_cons_self))

end RoundTrip

/-! ### Forms -/

instance (needle text : Bytes) (index : Nat) : Decidable (OccursAt needle text index) :=
  inferInstanceAs (Decidable (_ <+: _))

/-- Only the positions inside the body have to be looked at. -/
theorem onlyInDelimiters_of_inside {boundary : Bytes} {fields : List MultipartFormDataObject}
    (nonempty : boundary ≠ [])
    (inside : ∀ index < (encode boundary fields).length,
      OccursAt boundary (encode boundary fields) index →
        ∃ count ≤ fields.length,
          (encodeParts boundary (fields.take count)).length ≤ index ∧
            index ≤ (encodeParts boundary (fields.take count)).length + 4) :
    OnlyInDelimiters boundary fields := by
  intro index occurs
  have ends := occurs.inside nonempty
  have positive := List.length_pos_of_ne_nil nonempty
  exact inside index (by omega) occurs

/-- One file of one byte. -/
def sampleField : MultipartFormDataObject :=
  ⟨ascii "a", ascii "f", ascii "t", ascii "1"⟩

private theorem token_of_letter {letter : UInt8}
    (plain : isSpace letter = false ∧ letter ≠ 34 ∧ letter ≠ 59) : Token [letter] :=
  ⟨by simp, by simpa using plain⟩

/-- The form with that file and a boundary. -/
def sampleForm (boundary : Bytes) (only : OnlyInDelimiters boundary [sampleField]) : Form where
  boundary := boundary
  fields := [sampleField]
  names := by
    rw [List.forall_mem_singleton]
    exact token_of_letter (by decide)
  filenames := by
    rw [List.forall_mem_singleton]
    exact token_of_letter (by decide)
  contentTypes := by
    rw [List.forall_mem_singleton]
    exact token_of_letter (by decide)
  distinct := List.nodup_singleton _
  onlyInDelimiters := only

/-- The request of a form. -/
def submission (form : Form) : Request :=
  { requestFactory 5 0 with
    headers := Finmap.singleton (ascii "content-type")
      (ascii "multipart/form-data; boundary=" ++ form.boundary)
    body := encode form.boundary form.fields }

theorem submission_submits (form : Form) : Submits (submission form) form :=
  ⟨Finmap.lookup_singleton_eq, rfl⟩

def dashForm : Form :=
  sampleForm (ascii "---") (onlyInDelimiters_of_inside (by decide) (by decide +kernel))

theorem dash_form_given_back : GivesBack (submission dashForm) dashForm := by
  apply (gives_back_iff (submission_submits dashForm)).mpr
  have run : dashForm.boundary = List.replicate 3 45 := by decide
  have onlyDashes : ∀ byte ∈ dashForm.boundary, byte = 45 := by
    intro byte member
    rw [run] at member
    exact List.eq_of_mem_replicate member
  refine .inr ⟨⟨onlyDashes, by decide⟩, List.forall_mem_singleton.mpr ⟨?_, by decide, ?_⟩⟩
  · intro position found
    exact absurd found (by simp [show find sampleField.name (ascii "filename=") = none by decide])
  · intro position found
    exact absurd found
      (by simp [show find sampleField.filename (ascii "Content-Type:") = none by decide])

def ordinaryForm : Form :=
  sampleForm (ascii "Asrf456BGe4h") (onlyInDelimiters_of_inside (by decide) (by decide +kernel))

/-- The byte comes back with the line break behind it. -/
theorem ordinary_form_not_given_back :
    Submits (submission ordinaryForm) ordinaryForm ∧
      ¬ GivesBack (submission ordinaryForm) ordinaryForm := by
  refine ⟨submission_submits _, ?_⟩
  rintro ⟨result, runs, holds⟩
  have returned : (multipartFormData (submission ordinaryForm)).map (Finmap.lookup (ascii "a")) =
      .ok (some { sampleField with data := ascii "1\r\n" }) := by decide +kernel
  rw [runs] at returned
  have member := ((holds _ _).mp (Except.ok.inj returned)).1
  exact absurd member (by decide)

end Onyxup.Http
