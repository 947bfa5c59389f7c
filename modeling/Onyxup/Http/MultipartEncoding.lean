import Onyxup.Http.Multipart

/-!
Contract: `multipart/form-data` bodies as clients write them.

Owns: the encoding of a list of files, and what the searches for the attributes
and for the empty line find in the headers of an encoded part.

Does not own: delimiters, and parts without a file name, which the encoding here
does not have.
-/

set_option autoImplicit false

namespace Onyxup.Http

open Onyxup.Lib
open Onyxup.Lib.CString

/-! ## The encoding -/

/-- A text that needs no escape in a header of a part. -/
structure Token (text : Bytes) : Prop where
  nonempty : text ≠ []
  plain : ∀ byte ∈ text, isSpace byte = false ∧ byte ≠ 34 ∧ byte ≠ 59

def lineBreak : Bytes := ascii "\r\n"

def dashes : Bytes := ascii "--"

/-- The headers of a part, from the line break in front of the first up to the
value of the last. -/
def partHeaders (field : MultipartFormDataObject) : Bytes :=
  ascii "\r\nContent-Disposition: form-data; name=" ++ 34 :: (field.name ++
    34 :: (ascii "; filename=" ++ 34 :: (field.filename ++
      34 :: (ascii "\r\nContent-Type:" ++ 32 :: field.contentType))))

/-- What stands between two delimiters. -/
def partContent (field : MultipartFormDataObject) : Bytes :=
  partHeaders field ++ (emptyLine ++ (field.data ++ lineBreak))

def encodePart (boundary : Bytes) (field : MultipartFormDataObject) : Bytes :=
  dashes ++ (boundary ++ partContent field)

def encodeParts (boundary : Bytes) (fields : List MultipartFormDataObject) : Bytes :=
  (fields.map (encodePart boundary)).flatten

def encode (boundary : Bytes) (fields : List MultipartFormDataObject) : Bytes :=
  encodeParts boundary fields ++ (dashes ++ (boundary ++ dashes))

/-! ## Reading attributes -/

section Attributes

variable {text front back needle : Bytes} {stops : UInt8 → Bool} {field : MultipartFormDataObject}

theorem Token.not_nameStops (token : Token text) {byte : UInt8} (member : byte ∈ text) :
    nameStops byte = false := by
  obtain ⟨notSpace, _, notSemicolon⟩ := token.plain byte member
  simp [nameStops, notSpace, notSemicolon]

theorem Token.not_lineStops (token : Token text) {byte : UInt8} (member : byte ∈ text) :
    lineStops byte = false := by
  obtain ⟨notSpace, _⟩ := token.plain byte member
  rw [lineStops, Bool.or_eq_false_iff, beq_eq_false_iff_ne, beq_eq_false_iff_ne]
  constructor
  · rintro rfl
    exact absurd notSpace (by decide)
  · rintro rfl
    exact absurd notSpace (by decide)

theorem Token.not_trimmed (token : Token text) {byte : UInt8} (member : byte ∈ text) :
    byte ∉ [(34 : UInt8), 32] := by
  obtain ⟨notSpace, notQuote, _⟩ := token.plain byte member
  simp only [List.mem_cons, List.not_mem_nil, or_false, not_or]
  refine ⟨notQuote, ?_⟩
  rintro rfl
  exact absurd notSpace (by decide)

/-- The value is what stands in front of the first stop. -/
theorem readValue_stop {value : Bytes} {stop : UInt8}
    (goesOn : ∀ byte ∈ value, stops byte = false) (isStop : stops stop = true) :
    readValue stops (value ++ stop :: back) =
      if value = [] then [] else trimCharacters value [34, 32] := by
  have characters : (value ++ stop :: back).takeWhile (fun byte => !stops byte) = value := by
    rw [List.takeWhile_append_of_pos, List.takeWhile_cons_of_neg, List.append_nil]
    · simp [isStop]
    · intro byte member
      simp [goesOn byte member]
  simp only [readValue, characters]

/-- A closing quote is trimmed, but not when it is all there is. -/
theorem readValue_quote {value : Bytes} {stop : UInt8}
    (goesOn : ∀ byte ∈ value, stops byte = false) (quoteGoesOn : stops 34 = false)
    (isStop : stops stop = true) (clean : ∀ byte ∈ value, byte ∉ [(34 : UInt8), 32]) :
    readValue stops (value ++ 34 :: stop :: back) = if value = [] then [34] else value := by
  rw [show value ++ 34 :: stop :: back = (value ++ [34]) ++ stop :: back by simp]
  rw [readValue_stop ?_ isStop, if_neg (by simp)]
  · split
    next empty =>
      rw [empty]
      rfl
    next nonempty => exact trimCharacters_concat (by decide) nonempty clean
  · intro byte member
    rcases List.mem_append.mp member with inside | quote
    · exact goesOn byte inside
    · rw [List.mem_singleton.mp quote]
      exact quoteGoesOn

/-- Both quotes are trimmed. -/
theorem readValue_quoted {value : Bytes} {stop : UInt8} (token : Token value)
    (goesOn : ∀ byte ∈ value, stops byte = false) (quoteGoesOn : stops 34 = false)
    (isStop : stops stop = true) :
    readValue stops (34 :: (value ++ 34 :: stop :: back)) = value := by
  rw [show 34 :: (value ++ 34 :: stop :: back) = (34 :: (value ++ [34])) ++ stop :: back by simp]
  rw [readValue_stop ?_ isStop, if_neg (by simp), trimCharacters_cons (by decide) (by simp),
    trimCharacters_concat (by decide) token.nonempty fun byte => token.not_trimmed]
  intro byte member
  rcases List.mem_cons.mp member with rfl | later
  · exact quoteGoesOn
  · rcases List.mem_append.mp later with inside | quote
    · exact goesOn byte inside
    · rw [List.mem_singleton.mp quote]
      exact quoteGoesOn

/-- A piece without the attribute is passed over. -/
theorem readAttribute_separator {separator : UInt8} (nonempty : needle ≠ [])
    (foreign : separator ∉ needle) (missing : find front needle = none) :
    readAttribute needle stops (front ++ separator :: back) =
      readAttribute needle stops back := by
  rw [readAttribute, readAttribute, find_append_separator nonempty foreign missing]
  cases find back needle with
  | none => rfl
  | some position =>
      rw [Option.map_some]
      dsimp only
      congr 1
      rw [show front ++ separator :: back = (front ++ [separator]) ++ back by simp]
      rw [show front.length + 1 + position + needle.length =
        (front ++ [separator]).length + (position + needle.length) by
          simp only [List.length_append, List.length_singleton]
          omega]
      rw [← List.drop_drop, List.drop_left]

theorem readAttribute_skip {first : UInt8} {rest : Bytes} (missing : first ∉ front) :
    readAttribute (first :: rest) stops (front ++ back) =
      readAttribute (first :: rest) stops back := by
  rw [readAttribute, readAttribute, find_append_of_not_mem missing]
  cases find back (first :: rest) with
  | none => rfl
  | some position =>
      rw [Option.map_some]
      dsimp only
      rw [Nat.add_assoc, ← List.drop_drop, List.drop_left]

theorem readAttribute_found {position : Nat} (nonempty : needle ≠ [])
    (found : find front needle = some position) :
    readAttribute needle stops (front ++ back) =
      readValue stops (front.drop (position + needle.length) ++ back) := by
  rw [readAttribute, find_append_of_some nonempty found]
  dsimp only
  rw [List.drop_append_of_le_length (find_some found)]

/-- A name that holds the text `filename=` ends in the file name. -/
def FilenameLegible (field : MultipartFormDataObject) : Prop :=
  ∀ position, find field.name (ascii "filename=") = some position →
    field.name.drop (position + 9) = field.filename

/-- The name does not hold the text `Content-Type:`, and a file name that does ends
in the content type. -/
def ContentTypeLegible (field : MultipartFormDataObject) : Prop :=
  find field.name (ascii "Content-Type:") = none ∧
    ∀ position, find field.filename (ascii "Content-Type:") = some position →
      field.filename.drop (position + 13) = field.contentType

theorem readAttribute_name (token : Token field.name) (back : Bytes) :
    readAttribute (ascii "name=") nameStops (partHeaders field ++ back) = field.name := by
  have found : find (ascii "\r\nContent-Disposition: form-data; name=") (ascii "name=") =
      some 34 := by decide +kernel
  have passed : (ascii "\r\nContent-Disposition: form-data; name=").drop
      (34 + (ascii "name=").length) = [] := by decide +kernel
  rw [partHeaders, List.append_assoc, readAttribute_found (by decide) found, passed]
  simp only [List.nil_append, List.cons_append, List.append_assoc]
  exact readValue_quoted token (fun byte => token.not_nameStops) (by decide) (by decide)

private theorem readValue_suffix {value wanted : Bytes} {stop : UInt8} {position : Nat}
    (token : Token value) (wantedToken : Token wanted)
    (goesOn : ∀ byte ∈ value, stops byte = false) (quoteGoesOn : stops 34 = false)
    (isStop : stops stop = true) :
    readValue stops (value.drop position ++ 34 :: stop :: back) = wanted ↔
      value.drop position = wanted := by
  rw [readValue_quote (fun byte member => goesOn byte (List.mem_of_mem_drop member)) quoteGoesOn
    isStop fun byte member => token.not_trimmed (List.mem_of_mem_drop member)]
  split
  next empty =>
    rw [empty]
    refine iff_of_false ?_ wantedToken.nonempty.symm
    rintro rfl
    exact (wantedToken.plain 34 (by simp)).2.1 rfl
  next => rfl

private theorem semicolon_mem_readValue {value : Bytes}
    (goesOn : ∀ byte ∈ value, lineStops byte = false) :
    59 ∈ readValue lineStops (value ++ 34 :: (ascii "; filename=" ++ back)) := by
  have starts : ascii "; filename=" = 59 :: ascii " filename=" := by decide
  rw [← List.count_pos_iff, readValue_count (by decide), List.count_pos_iff,
    List.takeWhile_append_of_pos fun byte member => by rw [goesOn byte member]; rfl, starts]
  exact List.mem_append_right _ (by simp [lineStops])

theorem readAttribute_filename (nameToken : Token field.name) (token : Token field.filename)
    (back : Bytes) :
    readAttribute (ascii "filename=") nameStops (partHeaders field ++ back) = field.filename ↔
      FilenameLegible field := by
  simp only [partHeaders, List.append_assoc, List.cons_append]
  rw [readAttribute_separator (by decide) (by decide) (by decide +kernel)]
  cases found : find field.name (ascii "filename=") with
  | none =>
      have introduced : find (ascii "; filename=") (ascii "filename=") = some 2 := by
        decide +kernel
      refine iff_of_true ?_ (fun position impossible => by simp [found] at impossible)
      rw [readAttribute_separator (by decide) (by decide) found,
        readAttribute_found (by decide) introduced]
      exact readValue_quoted token (fun byte => token.not_nameStops) (by decide) (by decide)
  | some position =>
      have legible : FilenameLegible field ↔
          field.name.drop (position + 9) = field.filename := by
        simp [FilenameLegible, found]
      rw [readAttribute_found (by decide) found, legible]
      exact readValue_suffix nameToken token (fun byte => nameToken.not_nameStops)
        (by decide) (by decide)

theorem readAttribute_contentType (nameToken : Token field.name)
    (filenameToken : Token field.filename) (token : Token field.contentType) (back : Bytes) :
    readAttribute (ascii "Content-Type:") lineStops (partHeaders field ++ 13 :: back) =
      field.contentType ↔ ContentTypeLegible field := by
  simp only [partHeaders, List.append_assoc, List.cons_append]
  rw [readAttribute_separator (by decide) (by decide) (by decide +kernel)]
  cases inName : find field.name (ascii "Content-Type:") with
  | some position =>
      -- The value goes over the semicolon behind the name.
      refine iff_of_false ?_ (fun legible => absurd (inName.symm.trans legible.1) (by simp))
      rw [readAttribute_found (by decide) inName]
      intro same
      have semicolon : 59 ∈ field.contentType := by
        rw [← same]
        exact semicolon_mem_readValue fun byte member =>
          nameToken.not_lineStops (List.mem_of_mem_drop member)
      exact (token.plain 59 semicolon).2.2 rfl
  | none =>
      rw [readAttribute_separator (by decide) (by decide) inName,
        readAttribute_separator (by decide) (by decide) (by decide +kernel)]
      cases inFilename : find field.filename (ascii "Content-Type:") with
      | some position =>
          have legible : ContentTypeLegible field ↔
              field.filename.drop (position + 13) = field.contentType := by
            simp [ContentTypeLegible, inName, inFilename]
          rw [readAttribute_found (by decide) inFilename, legible]
          exact readValue_suffix filenameToken token (fun byte => filenameToken.not_lineStops)
            (by decide) (by decide)
      | none =>
          have introduced : find (ascii "\r\nContent-Type:") (ascii "Content-Type:") =
              some 2 := by decide +kernel
          have passed : (ascii "\r\nContent-Type:").drop
              (2 + (ascii "Content-Type:").length) = [] := by decide +kernel
          refine iff_of_true ?_ ⟨inName, fun position impossible => by
            simp [inFilename] at impossible⟩
          rw [readAttribute_separator (by decide) (by decide) inFilename,
            readAttribute_found (by decide) introduced, passed, List.nil_append,
            ← List.cons_append, readValue_stop ?_ (by decide), if_neg (by simp),
            trimCharacters_cons (by decide) token.nonempty,
            trimCharacters_of_clean fun byte => token.not_trimmed]
          intro byte member
          rcases List.mem_cons.mp member with rfl | inside
          · decide
          · exact token.not_lineStops inside

theorem Token.not_mem_cr (token : Token text) : 13 ∉ text := by
  intro member
  exact absurd (token.plain 13 member).1 (by decide)

private theorem find_emptyLine_lineBreak {first : UInt8} (other : first ≠ 13) (back : Bytes) :
    find (lineBreak ++ first :: back) emptyLine =
      (find (first :: back) emptyLine).map (2 + ·) := by
  have needle : emptyLine = [13, 10, 13, 10] := by decide
  have text : lineBreak = [13, 10] := by decide
  rw [needle, text, List.cons_append, List.singleton_append, find_cons, if_neg, find_cons,
    if_neg, Option.map_map]
  · congr 1
    funext position
    simp only [Function.comp_apply]
    omega
  · simp
  · simp [other.symm]

private theorem find_emptyLine_line {line : Bytes} (noBreak : 13 ∉ line) (nonempty : line ≠ [])
    (back : Bytes) :
    find (lineBreak ++ (line ++ back)) emptyLine =
      (find back emptyLine).map ((lineBreak ++ line).length + ·) := by
  have starts : emptyLine = 13 :: ascii "\n\r\n" := by decide
  obtain ⟨first, rest, rfl⟩ := List.exists_cons_of_ne_nil nonempty
  have other : first ≠ 13 := by
    rintro rfl
    exact noBreak List.mem_cons_self
  rw [List.cons_append, find_emptyLine_lineBreak other, ← List.cons_append, starts,
    find_append_of_not_mem noBreak, Option.map_map]
  congr 1
  funext position
  have width : lineBreak.length = 2 := by decide
  rw [Function.comp_apply, List.length_append, width]
  omega

def dispositionLine (field : MultipartFormDataObject) : Bytes :=
  ascii "Content-Disposition: form-data; name=" ++ 34 :: (field.name ++
    34 :: (ascii "; filename=" ++ 34 :: (field.filename ++ [34])))

def contentTypeLine (field : MultipartFormDataObject) : Bytes :=
  ascii "Content-Type:" ++ 32 :: field.contentType

/-- The headers by lines. -/
theorem partHeaders_lines (field : MultipartFormDataObject) :
    partHeaders field =
      lineBreak ++ (dispositionLine field ++ (lineBreak ++ contentTypeLine field)) := by
  have first : ascii "\r\nContent-Disposition: form-data; name=" =
      lineBreak ++ ascii "Content-Disposition: form-data; name=" := by decide
  have second : ascii "\r\nContent-Type:" = lineBreak ++ ascii "Content-Type:" := by decide
  simp only [partHeaders, dispositionLine, contentTypeLine, first, second, List.append_assoc,
    List.cons_append, List.nil_append]

private theorem dispositionLine_noBreak (nameToken : Token field.name)
    (filenameToken : Token field.filename) : 13 ∉ dispositionLine field := by
  have introduction : (13 : UInt8) ∉ ascii "Content-Disposition: form-data; name=" := by decide
  have attribution : (13 : UInt8) ∉ ascii "; filename=" := by decide
  simp [dispositionLine, nameToken.not_mem_cr, filenameToken.not_mem_cr, introduction,
    attribution]

private theorem contentTypeLine_noBreak (token : Token field.contentType) :
    13 ∉ contentTypeLine field := by
  have introduction : (13 : UInt8) ∉ ascii "Content-Type:" := by decide
  simp [contentTypeLine, token.not_mem_cr, introduction]

/-- The headers end with the first empty line. -/
theorem find_emptyLine (nameToken : Token field.name) (filenameToken : Token field.filename)
    (token : Token field.contentType) (back : Bytes) :
    find (partHeaders field ++ (emptyLine ++ back)) emptyLine =
      some (partHeaders field).length := by
  simp only [partHeaders_lines, List.append_assoc]
  rw [find_emptyLine_line (dispositionLine_noBreak nameToken filenameToken)
      (by simp [dispositionLine]),
    find_emptyLine_line (contentTypeLine_noBreak token) (by simp [contentTypeLine]),
    find_self_append (by decide), Option.map_some, Option.map_some]
  simp only [List.length_append]
  congr 1
  omega

end Attributes

end Onyxup.Http
