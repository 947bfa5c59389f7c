import Onyxup.Lib.Search
import Onyxup.Lib.Fallible
import Onyxup.Http.Request

/-!
Contract: `multipartFormData`, the parser of multipart bodies.

Owns: `trimCharacters`, the loop over the parts with its searches, the map of
fields, and the exact condition under which the first parts do not depend on what
follows them.

Does not own: the encoding that clients use.

All searches of one turn start behind the boundary and run to the end of the
body, so the model keeps that rest of the body and counts positions from there.
Data is copied between two iterators; when the second stands in front of the
first the copy is not defined, and that is a fault. `isspace` is that of the "C"
locale.
-/

set_option autoImplicit false

namespace Onyxup.Http

open Onyxup.Lib
open Onyxup.Lib.CString

/-- `class MultipartFormDataObject`. -/
@[ext]
structure MultipartFormDataObject where
  name : Bytes
  filename : Bytes
  contentType : Bytes
  data : Bytes
deriving DecidableEq

/-- `std::unordered_map<std::string, MultipartFormDataObject>`. -/
abbrev Fields := Finmap fun _ : Bytes => MultipartFormDataObject

inductive MultipartFault where
  | invalidRange
deriving DecidableEq, Repr

/-! ## Trimming -/

/-- The first loop of `trimCharacters`: `start` stops at the last character. -/
def trimFront (chars : List UInt8) : Bytes → Bytes
  | first :: second :: rest =>
      if first ∈ chars then trimFront chars (second :: rest) else first :: second :: rest
  | short => short

/-- `trimCharacters`, on a vector that is not empty. -/
def trimCharacters (src : Bytes) (chars : List UInt8) : Bytes :=
  (trimFront chars (trimFront chars src).reverse).reverse

section Trimming

variable {chars : List UInt8}

private theorem trimFront_count {byte : UInt8} (kept : byte ∉ chars) :
    ∀ src : Bytes, (trimFront chars src).count byte = src.count byte
  | [] => rfl
  | [_] => rfl
  | first :: second :: rest => by
      rw [trimFront]
      split
      next drops =>
        have different : first ≠ byte := by
          rintro rfl
          exact kept drops
        rw [trimFront_count kept (second :: rest), List.count_cons_of_ne different]
      next => rfl

/-- A character that is not trimmed stays as often as it was there. -/
theorem trimCharacters_count {byte : UInt8} (kept : byte ∉ chars) (src : Bytes) :
    (trimCharacters src chars).count byte = src.count byte := by
  rw [trimCharacters, List.count_reverse, trimFront_count kept, List.count_reverse,
    trimFront_count kept]

private theorem trimFront_of_not_mem {first : UInt8} (kept : first ∉ chars) (rest : Bytes) :
    trimFront chars (first :: rest) = first :: rest := by
  cases rest with
  | nil => rfl
  | cons second rest => rw [trimFront, if_neg kept]

private theorem trimFront_cons {first : UInt8} (drops : first ∈ chars) {rest : Bytes}
    (nonempty : rest ≠ []) : trimFront chars (first :: rest) = trimFront chars rest := by
  cases rest with
  | nil => exact absurd rfl nonempty
  | cons second rest => rw [trimFront, if_pos drops]

private theorem trimFront_of_clean {src : Bytes} (clean : ∀ byte ∈ src, byte ∉ chars) :
    trimFront chars src = src := by
  cases src with
  | nil => rfl
  | cons first rest => exact trimFront_of_not_mem (clean first List.mem_cons_self) rest

/-- Nothing to trim. -/
theorem trimCharacters_of_clean {src : Bytes} (clean : ∀ byte ∈ src, byte ∉ chars) :
    trimCharacters src chars = src := by
  rw [trimCharacters, trimFront_of_clean clean, trimFront_of_clean, List.reverse_reverse]
  intro byte member
  exact clean byte (List.mem_reverse.mp member)

/-- One character to trim in front. -/
theorem trimCharacters_cons {first : UInt8} {src : Bytes} (drops : first ∈ chars)
    (nonempty : src ≠ []) : trimCharacters (first :: src) chars = trimCharacters src chars := by
  rw [trimCharacters, trimFront_cons drops nonempty, trimCharacters]

/-- One character to trim behind. -/
theorem trimCharacters_concat {last : UInt8} {src : Bytes} (drops : last ∈ chars)
    (nonempty : src ≠ []) (clean : ∀ byte ∈ src, byte ∉ chars) :
    trimCharacters (src ++ [last]) chars = src := by
  obtain ⟨first, rest, rfl⟩ := List.exists_cons_of_ne_nil nonempty
  have front : trimFront chars (first :: rest ++ [last]) = first :: rest ++ [last] :=
    trimFront_of_not_mem (clean first List.mem_cons_self) _
  rw [trimCharacters, front, List.reverse_append, List.reverse_singleton,
    List.singleton_append, trimFront_cons drops (by simp), trimFront_of_clean,
    List.reverse_reverse]
  intro byte member
  exact clean byte (List.mem_reverse.mp member)

/-- The text without its longest prefix and its longest suffix of characters in `chars`. -/
def stripped (text : Bytes) (chars : List UInt8) : Bytes :=
  ((text.dropWhile (· ∈ chars)).reverse.dropWhile (· ∈ chars)).reverse

private theorem trimFront_eq_dropWhile {src : Bytes} (stops : ∃ byte ∈ src, byte ∉ chars) :
    trimFront chars src = src.dropWhile (· ∈ chars) := by
  induction src with
  | nil =>
      obtain ⟨byte, member, _⟩ := stops
      cases member
  | cons first rest inductionHypothesis =>
      by_cases drops : first ∈ chars
      · have later : ∃ byte ∈ rest, byte ∉ chars := by
          obtain ⟨byte, member, kept⟩ := stops
          refine ⟨byte, (List.mem_cons.mp member).resolve_left ?_, kept⟩
          rintro rfl
          exact kept drops
        have nonempty : rest ≠ [] := by
          rintro rfl
          obtain ⟨byte, member, _⟩ := later
          cases member
        rw [trimFront_cons drops nonempty, inductionHypothesis later, List.dropWhile_cons,
          if_pos (decide_eq_true drops)]
      · rw [trimFront_of_not_mem drops, List.dropWhile_cons,
          if_neg fun isIn => drops (of_decide_eq_true isIn)]

private theorem trimFront_ne_nil {src : Bytes} (nonempty : src ≠ []) :
    trimFront chars src ≠ [] := by
  induction src with
  | nil => exact absurd rfl nonempty
  | cons first rest inductionHypothesis =>
      by_cases drops : first ∈ chars ∧ rest ≠ []
      · rw [trimFront_cons drops.1 drops.2]
        exact inductionHypothesis drops.2
      · cases rest with
        | nil => exact nonempty
        | cons second rest =>
            rw [trimFront_of_not_mem fun isIn => drops ⟨isIn, List.cons_ne_nil _ _⟩]
            exact nonempty

theorem trimCharacters_eq_stripped {src : Bytes} (stops : ∃ byte ∈ src, byte ∉ chars) :
    trimCharacters src chars = stripped src chars := by
  obtain ⟨byte, member, kept⟩ := stops
  have stillThere : byte ∈ trimFront chars src := by
    rw [← List.count_pos_iff, trimFront_count kept]
    exact List.count_pos_iff.mpr member
  rw [trimCharacters, trimFront_eq_dropWhile ⟨byte, List.mem_reverse.mpr stillThere, kept⟩,
    trimFront_eq_dropWhile ⟨byte, member, kept⟩, stripped]

/-- One character is left of a text of nothing else. -/
theorem trimCharacters_ne_nil {src : Bytes} (nonempty : src ≠ []) :
    trimCharacters src chars ≠ [] := by
  rw [trimCharacters, Ne, List.reverse_eq_nil_iff]
  apply trimFront_ne_nil
  rw [Ne, List.reverse_eq_nil_iff]
  exact trimFront_ne_nil nonempty

theorem stripped_eq_nil {src : Bytes} (drops : ∀ byte ∈ src, byte ∈ chars) :
    stripped src chars = [] := by
  have gone : src.dropWhile (· ∈ chars) = [] := by
    rw [List.dropWhile_eq_nil_iff]
    intro byte member
    exact decide_eq_true (drops byte member)
  rw [stripped, gone]
  rfl

end Trimming

/-- **Trimming.** A text is trimmed exactly if there is a character in it that stays, and a quoted
value without quotes and spaces exactly if it is not empty. -/
theorem trimCharacters_exact_iff (src value : Bytes) (chars : List UInt8) :
    (src ≠ [] →
      (trimCharacters src chars = stripped src chars ↔ ∃ byte ∈ src, byte ∉ chars)) ∧
    (34 ∉ value → 32 ∉ value →
      (trimCharacters (34 :: value ++ [34]) [34, 32] = value ↔ value ≠ [])) := by
  constructor
  · intro nonempty
    constructor
    · intro exactly
      by_contra allDrop
      have nothingLeft : stripped src chars = [] := by
        apply stripped_eq_nil
        intro byte member
        by_contra kept
        exact allDrop ⟨byte, member, kept⟩
      exact trimCharacters_ne_nil nonempty (exactly.trans nothingLeft)
    · exact trimCharacters_eq_stripped
  · intro noQuote noSpace
    constructor
    · rintro trimmed rfl
      cases trimmed
    · intro nonempty
      have clean : ∀ byte ∈ value, byte ∉ [(34 : UInt8), 32] := by
        intro byte member isIn
        rcases List.mem_cons.mp isIn with rfl | isSpace
        · exact noQuote member
        · rw [List.mem_singleton.mp isSpace] at member
          exact noSpace member
      rw [List.cons_append, trimCharacters_cons (by decide) (by simp),
        trimCharacters_concat (by decide) nonempty clean]

/-- A name in quotes. -/
theorem quoted_name_trimmed :
    trimCharacters (ascii "\"name\"") [34, 32] = ascii "name" :=
  ((trimCharacters_exact_iff [] (ascii "name") []).2 (by decide) (by decide)).mpr (by decide)

/-- Of `filename=""` a quote is left. -/
theorem empty_quotes_not_trimmed :
    trimCharacters (ascii "\"\"") [34, 32] = ascii "\"" ∧
      trimCharacters (ascii "\"\"") [34, 32] ≠ stripped (ascii "\"\"") [34, 32] := by
  decide

/-! ## One part -/

/-- The end of a name or file name: `isspace`, or a semicolon. -/
def nameStops (byte : UInt8) : Bool :=
  isSpace byte || byte == 59

/-- The end of a content type: the end of the line. -/
def lineStops (byte : UInt8) : Bool :=
  byte == 10 || byte == 13

/-- The characters from `text` on, up to a stop, without the quotes and spaces
around them. -/
def readValue (stops : UInt8 → Bool) (text : Bytes) : Bytes :=
  let characters := text.takeWhile fun byte => !stops byte
  if characters = [] then [] else trimCharacters characters [34, 32]

/-- A character that is not trimmed is in the value as often as in the text. -/
theorem readValue_count {byte : UInt8} (kept : byte ∉ [(34 : UInt8), 32])
    (stops : UInt8 → Bool) (text : Bytes) :
    (readValue stops text).count byte =
      (text.takeWhile fun other => !stops other).count byte := by
  unfold readValue
  dsimp only
  split
  next empty => rw [empty]
  next => exact trimCharacters_count kept _

/-- The value of the attribute that `needle` introduces, or nothing. -/
def readAttribute (needle : Bytes) (stops : UInt8 → Bool) (text : Bytes) : Bytes :=
  match find text needle with
  | some position => readValue stops (text.drop (position + needle.length))
  | none => []

def contentDisposition : Bytes := ascii "Content-Disposition: form-data"

def emptyLine : Bytes := ascii "\r\n\r\n"

/-- The copy between `position_data + 4` and `pos - 2`. -/
def copyData (text : Bytes) (positionData : Option Nat) (pos : Nat) :
    Except MultipartFault Bytes :=
  match positionData with
  | some position =>
      if position + 4 + 2 ≤ pos then
        .ok ((text.drop (position + 4)).take (pos - 2 - (position + 4)))
      else .error .invalidRange
  | none => .ok []

/-- One turn of the loop on the text behind a boundary: `none` for the `break`, or
the object and the text behind the next boundary, if there is one. -/
def readPart (boundary text : Bytes) :
    Except MultipartFault (Option (MultipartFormDataObject × Option Bytes)) :=
  if (find text contentDisposition).isNone then .ok none
  else
    let name := readAttribute (ascii "name=") nameStops text
    let filename := readAttribute (ascii "filename=") nameStops text
    let contentType := readAttribute (ascii "Content-Type:") lineStops text
    match find text boundary with
    | some pos => do
        let data ← copyData text (find text emptyLine) pos
        .ok (some (⟨name, filename, contentType, data⟩, some (text.drop (pos + boundary.length))))
    | none => .ok (some (⟨name, filename, contentType, []⟩, none))

/-- The objects of the first `count` turns of the loop. -/
def multipartParts (boundary : Bytes) : (count : Nat) → (text : Bytes) →
    Except MultipartFault (List MultipartFormDataObject)
  | 0, _ => .ok []
  | count + 1, text =>
      match readPart boundary text with
      | .error fault => .error fault
      | .ok none => .ok []
      | .ok (some (object, none)) => .ok [object]
      | .ok (some (object, some rest)) => do
          let objects ← multipartParts boundary count rest
          .ok (object :: objects)

/-- `fields.emplace`, for an object with a name. -/
def emplace (fields : Fields) (object : MultipartFormDataObject) : Fields :=
  if object.name = [] then fields
  else if object.name ∈ fields then fields
  else fields.insert object.name object

/-- The loop from the first boundary on. A turn needs at least one byte of the
body. -/
def leadingParts (boundary body : Bytes) (count : Nat) :
    Except MultipartFault (List MultipartFormDataObject) :=
  match find body boundary with
  | some pos => multipartParts boundary count (body.drop (pos + boundary.length))
  | none => .ok []

/-- `multipartFormData`. -/
def multipartFormData (request : Request) : Except MultipartFault Fields :=
  match request.headers.lookup (ascii "content-type") with
  | none => .ok ∅
  | some contentType =>
      match find contentType (ascii "boundary=") with
      | none => .ok ∅
      | some pos =>
          if (find contentType (ascii "multipart/form-data")).isNone then .ok ∅
          else
            let boundary := contentType.drop (pos + 9)
            if boundary = [] then .ok ∅
            else do
              let objects ← leadingParts boundary request.body request.body.length
              .ok (objects.foldl emplace ∅)

/-! ## Isolation of the parts -/

/-- `text` ends with its only boundary. -/
def Delimited (boundary text : Bytes) : Prop :=
  ∃ front, text = front ++ boundary ∧ find text boundary = some front.length

/-- A part without a file name or a content type does not get one. -/
def Unborrowed (part : Bytes) (object : MultipartFormDataObject) : Prop :=
  (find part (ascii "filename=") = none → object.filename = []) ∧
    (find part (ascii "Content-Type:") = none → object.contentType = [])

/-- Two bodies with the same first parts, each up to its delimiter, give the same
objects for these parts, whatever follows. -/
def Isolated (boundary opening : Bytes) (parts : List Bytes) : Prop :=
  ∀ count ≤ parts.length, ∀ first second : Bytes, ∃ objects,
    List.Forall₂ Unborrowed (parts.take count) objects ∧
      leadingParts boundary (opening ++ ((parts.take count).flatten ++ first)) count =
        .ok objects ∧
      leadingParts boundary (opening ++ ((parts.take count).flatten ++ second)) count =
        .ok objects

/-- The part has the attribute, and a byte that ends its value. -/
def StatesAttribute (needle : Bytes) (stops : UInt8 → Bool) (part : Bytes) : Prop :=
  ∃ position, find part needle = some position ∧
    ∃ byte ∈ part.drop (position + needle.length), stops byte = true

/-- Every search of the turn ends inside the part. -/
structure SelfContained (boundary part : Bytes) : Prop where
  disposition : (find part contentDisposition).isSome
  name : StatesAttribute (ascii "name=") nameStops part
  filename : StatesAttribute (ascii "filename=") nameStops part
  contentType : StatesAttribute (ascii "Content-Type:") lineStops part
  data : ∃ position, find part emptyLine = some position ∧
    position + 4 + 2 + boundary.length ≤ part.length

section Isolation

variable {boundary opening part : Bytes}

theorem Delimited.find_append (nonempty : boundary ≠ []) (ends : Delimited boundary part)
    (back : Bytes) :
    ∃ pos, find (part ++ back) boundary = some pos ∧ pos + boundary.length = part.length ∧
      (part ++ back).drop (pos + boundary.length) = back := by
  obtain ⟨front, rfl, found⟩ := ends
  refine ⟨front.length, find_append_of_some nonempty found back, by simp, ?_⟩
  rw [← List.length_append, List.drop_left]

private theorem readValue_append {stops : UInt8 → Bool} {text : Bytes}
    (stopped : ∃ byte ∈ text, stops byte = true) (back : Bytes) :
    readValue stops (text ++ back) = readValue stops text := by
  have same : (text ++ back).takeWhile (fun byte => !stops byte) =
      text.takeWhile fun byte => !stops byte := by
    rw [List.takeWhile_append, if_neg]
    intro whole
    obtain ⟨byte, member, isStop⟩ := stopped
    have kept := List.takeWhile_eq_self_iff.mp
      (List.IsPrefix.eq_of_length (List.takeWhile_prefix _) whole) byte member
    simp [isStop] at kept
  simp only [readValue, same]

/-- An attribute of the part itself does not depend on what follows. -/
theorem StatesAttribute.readAttribute_append {needle : Bytes} {stops : UInt8 → Bool}
    (nonempty : needle ≠ []) (states : StatesAttribute needle stops part) (back : Bytes) :
    readAttribute needle stops (part ++ back) = readAttribute needle stops part := by
  obtain ⟨position, found, stopped⟩ := states
  have inside := find_some found
  rw [readAttribute, readAttribute, find_append_of_some nonempty found, found]
  dsimp only
  rw [List.drop_append_of_le_length inside, readValue_append stopped]

/-- A part that is self-contained gives the same object whatever follows. -/
theorem SelfContained.readPart_append (nonempty : boundary ≠ [])
    (ends : Delimited boundary part) (contained : SelfContained boundary part) :
    ∃ object, ∀ back, readPart boundary (part ++ back) = .ok (some (object, some back)) := by
  obtain ⟨position, emptyLineAt, room⟩ := contained.data
  obtain ⟨disposition, dispositionAt⟩ := Option.isSome_iff_exists.mp contained.disposition
  refine ⟨⟨readAttribute (ascii "name=") nameStops part,
    readAttribute (ascii "filename=") nameStops part,
    readAttribute (ascii "Content-Type:") lineStops part,
    (part.drop (position + 4)).take (part.length - boundary.length - 2 - (position + 4))⟩, ?_⟩
  intro back
  obtain ⟨pos, boundaryAt, isEnd, rest⟩ := ends.find_append nonempty back
  have fits : position + 4 + 2 ≤ pos := by omega
  have window : pos - 2 - (position + 4) ≤ (part.drop (position + 4)).length := by
    rw [List.length_drop]
    omega
  rw [readPart, find_append_of_some (by decide) dispositionAt, if_neg (by simp)]
  simp only [contained.name.readAttribute_append (by decide),
    contained.filename.readAttribute_append (by decide),
    contained.contentType.readAttribute_append (by decide),
    find_append_of_some (by decide : emptyLine ≠ []) emptyLineAt, boundaryAt, copyData,
    if_pos fits, rest]
  rw [List.drop_append_of_le_length (by omega), List.take_append_of_le_length window,
    show part.length - boundary.length = pos by omega]
  rfl

/-! ### What a part that is not self-contained takes from behind it -/

private theorem statesAttribute_of_same {needle : Bytes} {stops : UInt8 → Bool}
    (nonempty : needle ≠ []) (foreign : 10 ∉ needle) (goesOn : stops 120 = false)
    (same : ∀ first second, readAttribute needle stops (part ++ first) =
      readAttribute needle stops (part ++ second)) :
    StatesAttribute needle stops part := by
  cases found : find part needle with
  | none =>
      -- An attribute of a later part is taken for one of this part.
      have later : find (part ++ 10 :: (needle ++ [120])) needle =
          some (part.length + 1) := by
        rw [find_append_separator nonempty foreign found, find_self_append nonempty]
        rfl
      have borrowed := same [] (10 :: (needle ++ [120]))
      have value : (part ++ 10 :: (needle ++ [120])).drop
          (part.length + 1 + needle.length) = [120] := by
        rw [show part ++ 10 :: (needle ++ [120]) = (part ++ [10] ++ needle) ++ [120] by simp]
        rw [show part.length + 1 + needle.length = (part ++ [10] ++ needle).length by
          simp only [List.length_append, List.length_singleton]]
        exact List.drop_left
      rw [readAttribute, readAttribute, List.append_nil, found, later] at borrowed
      dsimp only at borrowed
      rw [value] at borrowed
      simp [readValue, goesOn, trimCharacters, trimFront] at borrowed
  | some position =>
      by_contra unstopped
      have whole : ∀ byte ∈ part.drop (position + needle.length), (!stops byte) = true := by
        intro byte member
        rw [Bool.not_eq_true', ← Bool.not_eq_true]
        intro isStop
        exact unstopped ⟨position, found, byte, member, isStop⟩
      have inside := find_some found
      -- The value goes on behind the part: one more character there is one more in it.
      have longer := same [] [120]
      rw [readAttribute, readAttribute, find_append_of_some nonempty found,
        find_append_of_some nonempty found] at longer
      dsimp only at longer
      have counts := congrArg (List.count 120) longer
      rw [List.append_nil, List.drop_append_of_le_length inside,
        readValue_count (by decide), readValue_count (by decide),
        List.takeWhile_eq_self_iff.mpr whole, List.takeWhile_append_of_pos whole] at counts
      simp [goesOn] at counts

/-- What the turn has read when it comes to a next boundary. -/
theorem readPart_ok {text rest : Bytes} {object : MultipartFormDataObject}
    (reads : readPart boundary text = .ok (some (object, some rest))) :
    (find text contentDisposition).isSome ∧
      object.name = readAttribute (ascii "name=") nameStops text ∧
      object.filename = readAttribute (ascii "filename=") nameStops text ∧
      object.contentType = readAttribute (ascii "Content-Type:") lineStops text ∧
      ∃ pos, find text boundary = some pos ∧
        copyData text (find text emptyLine) pos = .ok object.data ∧
        rest = text.drop (pos + boundary.length) := by
  unfold readPart at reads
  split at reads
  next => cases reads
  next present =>
    split at reads
    next pos boundaryAt =>
      obtain ⟨data, copies, reads⟩ := Fallible.bind_ok reads
      cases reads
      exact ⟨by simpa [Option.isNone_iff_eq_none, ← Option.isSome_iff_ne_none] using present,
        rfl, rfl, rfl, pos, boundaryAt, copies, rfl⟩
    next => cases reads

/-- The turn depends on what follows the part unless the part is self-contained. -/
theorem selfContained_of_same (nonempty : boundary ≠ []) (ends : Delimited boundary part)
    (same : ∀ first second, ∃ object,
      readPart boundary (part ++ first) = .ok (some (object, some first)) ∧
        readPart boundary (part ++ second) = .ok (some (object, some second))) :
    SelfContained boundary part where
  disposition := by
    obtain ⟨object, reads, _⟩ := same [] []
    have present := (readPart_ok reads).1
    rwa [List.append_nil] at present
  name := by
    apply statesAttribute_of_same (by decide) (by decide) rfl
    intro first second
    obtain ⟨object, firstReads, secondReads⟩ := same first second
    rw [← (readPart_ok firstReads).2.1, ← (readPart_ok secondReads).2.1]
  filename := by
    apply statesAttribute_of_same (by decide) (by decide) rfl
    intro first second
    obtain ⟨object, firstReads, secondReads⟩ := same first second
    rw [← (readPart_ok firstReads).2.2.1, ← (readPart_ok secondReads).2.2.1]
  contentType := by
    apply statesAttribute_of_same (by decide) (by decide) rfl
    intro first second
    obtain ⟨object, firstReads, secondReads⟩ := same first second
    rw [← (readPart_ok firstReads).2.2.2.1, ← (readPart_ok secondReads).2.2.2.1]
  data := by
    obtain ⟨object, reads, readsMore⟩ := same [] (120 :: (emptyLine ++ []))
    obtain ⟨pos, boundaryAt, copies, _⟩ := (readPart_ok reads).2.2.2.2
    obtain ⟨posMore, boundaryMore, copiesMore, _⟩ := (readPart_ok readsMore).2.2.2.2
    obtain ⟨_, isFound, isEnd, _⟩ := ends.find_append nonempty []
    obtain ⟨_, isFoundMore, isEndMore, _⟩ :=
      ends.find_append nonempty (120 :: (emptyLine ++ []))
    obtain rfl := Option.some.inj (boundaryAt.symm.trans isFound)
    obtain rfl := Option.some.inj (boundaryMore.symm.trans isFoundMore)
    cases found : find part emptyLine with
    | none =>
        -- The empty line behind the part lies behind the boundary.
        rw [find_append_separator (by decide) (by decide) found,
          find_self_append (by decide)] at copiesMore
        simp only [Option.map_some, copyData] at copiesMore
        rw [if_neg (by omega)] at copiesMore
        cases copiesMore
    | some position =>
        rw [List.append_nil, found] at copies
        simp only [copyData] at copies
        split at copies
        next fits => exact ⟨position, rfl, by omega⟩
        next => cases copies

/-! ### All parts -/

theorem leadingParts_of_delimited (nonempty : boundary ≠ []) (starts : Delimited boundary opening)
    (text : Bytes) (count : Nat) :
    leadingParts boundary (opening ++ text) count = multipartParts boundary count text := by
  obtain ⟨pos, found, _, rest⟩ := starts.find_append nonempty text
  rw [leadingParts, found]
  dsimp only
  rw [rest]

/-- The first turn that comes to a next boundary, and the turns behind it. -/
theorem multipartParts_succ {text rest : Bytes} {object : MultipartFormDataObject}
    (reads : readPart boundary text = .ok (some (object, some rest))) (count : Nat) :
    multipartParts boundary (count + 1) text =
      (multipartParts boundary count rest).map (object :: ·) := by
  rw [multipartParts, reads]
  dsimp only
  cases multipartParts boundary count rest <;> rfl

/-- A loop that gives an object for a delimited part goes on behind it. -/
theorem multipartParts_delimited (nonempty : boundary ≠ []) (ends : Delimited boundary part)
    {back : Bytes} {count : Nat} {object : MultipartFormDataObject}
    {objects : List MultipartFormDataObject}
    (runs : multipartParts boundary (count + 1) (part ++ back) = .ok (object :: objects)) :
    readPart boundary (part ++ back) = .ok (some (object, some back)) ∧
      multipartParts boundary count back = .ok objects := by
  obtain ⟨pos, found, _, rest⟩ := ends.find_append nonempty back
  unfold multipartParts at runs
  split at runs
  next => cases runs
  next => cases runs
  next read reads =>
    unfold readPart at reads
    rw [found] at reads
    split at reads
    next => cases reads
    next =>
      obtain ⟨_, _, impossible⟩ := Fallible.bind_ok reads
      cases impossible
  next read behind reads =>
    obtain ⟨_, _, _, _, _, isFound, _, rfl⟩ := readPart_ok reads
    obtain rfl := Option.some.inj (found.symm.trans isFound)
    rw [rest] at reads runs
    obtain ⟨others, goesOn, runs⟩ := Fallible.bind_ok runs
    cases runs
    exact ⟨reads, goesOn⟩

/-- The two-body property of the loop that starts behind a boundary. -/
private def LoopIsolated (boundary : Bytes) (parts : List Bytes) : Prop :=
  ∀ count ≤ parts.length, ∀ first second : Bytes, ∃ objects,
    List.Forall₂ Unborrowed (parts.take count) objects ∧
      multipartParts boundary count ((parts.take count).flatten ++ first) = .ok objects ∧
      multipartParts boundary count ((parts.take count).flatten ++ second) = .ok objects

private theorem isolated_iff_loop (nonempty : boundary ≠ [])
    (starts : Delimited boundary opening) (parts : List Bytes) :
    Isolated boundary opening parts ↔ LoopIsolated boundary parts := by
  simp only [Isolated, LoopIsolated, leadingParts_of_delimited nonempty starts]

private theorem LoopIsolated.head (nonempty : boundary ≠ []) (ends : Delimited boundary part)
    {parts : List Bytes} (isolated : LoopIsolated boundary (part :: parts)) :
    SelfContained boundary part := by
  apply selfContained_of_same nonempty ends
  intro first second
  obtain ⟨objects, unborrowed, firstRuns, secondRuns⟩ :=
    isolated 1 (by simp) first second
  simp only [List.take_succ_cons, List.take_zero, List.flatten_cons, List.flatten_nil,
    List.append_nil] at unborrowed firstRuns secondRuns
  cases unborrowed with
  | cons _ nothing =>
      exact ⟨_, (multipartParts_delimited nonempty ends firstRuns).1,
        (multipartParts_delimited nonempty ends secondRuns).1⟩

private theorem LoopIsolated.tail (nonempty : boundary ≠ []) (ends : Delimited boundary part)
    {parts : List Bytes} (isolated : LoopIsolated boundary (part :: parts)) :
    LoopIsolated boundary parts := by
  intro count few first second
  obtain ⟨objects, unborrowed, firstRuns, secondRuns⟩ :=
    isolated (count + 1) (Nat.succ_le_succ few) first second
  simp only [List.take_succ_cons, List.flatten_cons, List.append_assoc]
    at unborrowed firstRuns secondRuns
  cases unborrowed with
  | cons _ rest =>
      exact ⟨_, rest, (multipartParts_delimited nonempty ends firstRuns).2,
        (multipartParts_delimited nonempty ends secondRuns).2⟩

private theorem LoopIsolated.cons (nonempty : boundary ≠ []) (ends : Delimited boundary part)
    (contained : SelfContained boundary part) {parts : List Bytes}
    (isolated : LoopIsolated boundary parts) : LoopIsolated boundary (part :: parts) := by
  intro count few first second
  cases count with
  | zero => exact ⟨[], .nil, rfl, rfl⟩
  | succ count =>
      obtain ⟨object, reads⟩ := contained.readPart_append nonempty ends
      obtain ⟨objects, unborrowed, firstRuns, secondRuns⟩ :=
        isolated count (Nat.le_of_succ_le_succ few) first second
      have own : Unborrowed part object := by
        obtain ⟨_, filenameAt, _⟩ := contained.filename
        obtain ⟨_, contentTypeAt, _⟩ := contained.contentType
        exact ⟨fun missing => by simp [filenameAt] at missing,
          fun missing => by simp [contentTypeAt] at missing⟩
      refine ⟨object :: objects, ?_, ?_, ?_⟩
      · rw [List.take_succ_cons]
        exact .cons own unborrowed
      · rw [List.take_succ_cons, List.flatten_cons, List.append_assoc,
          multipartParts_succ (reads _), firstRuns]
        rfl
      · rw [List.take_succ_cons, List.flatten_cons, List.append_assoc,
          multipartParts_succ (reads _), secondRuns]
        rfl

/-- The parts are isolated from what follows them exactly if each of them has all
that the turn searches for. By induction on the parts. -/
theorem isolated_iff {parts : List Bytes} (nonempty : boundary ≠ [])
    (starts : Delimited boundary opening) (ends : ∀ part ∈ parts, Delimited boundary part) :
    Isolated boundary opening parts ↔ ∀ part ∈ parts, SelfContained boundary part := by
  rw [isolated_iff_loop nonempty starts]
  clear starts
  induction parts with
  | nil =>
      refine iff_of_true ?_ (by simp)
      intro count none first second
      obtain rfl : count = 0 := by simpa using none
      exact ⟨[], .nil, rfl, rfl⟩
  | cons part parts inductionHypothesis =>
      have partEnds := ends part List.mem_cons_self
      have rest := inductionHypothesis fun other member =>
        ends other (List.mem_cons_of_mem _ member)
      rw [List.forall_mem_cons, ← rest]
      constructor
      · intro isolated
        exact ⟨isolated.head nonempty partEnds, isolated.tail nonempty partEnds⟩
      · rintro ⟨contained, isolated⟩
        exact isolated.cons nonempty partEnds contained

/-- A part with a file name and a content type, up to its delimiter. -/
def uploadPart : Bytes :=
  ascii "\r\nContent-Disposition: form-data; name=\"a\"; filename=\"f\"\r\n" ++
    ascii "Content-Type: t\r\n\r\n1\r\n--x"

theorem upload_isolated : Isolated (ascii "--x") (ascii "--x") [uploadPart] := by
  apply (isolated_iff (by decide) ⟨[], by decide, by decide⟩ ?_).mpr
  · intro part member
    rw [List.mem_singleton.mp member]
    exact ⟨by decide +kernel, ⟨34, by decide +kernel, 59, by decide +kernel, by decide⟩,
      ⟨44, by decide +kernel, 13, by decide +kernel, by decide⟩,
      ⟨58, by decide +kernel, 13, by decide +kernel, by decide⟩,
      73, by decide +kernel, by decide +kernel⟩
  · intro part member
    rw [List.mem_singleton.mp member]
    exact ⟨uploadPart.take 80, by decide +kernel, by decide +kernel⟩

/-- A part with a name only, up to its delimiter. -/
def plainPart : Bytes :=
  ascii "\r\nContent-Disposition: form-data; name=\"a\"\r\n\r\n1\r\n--x"

/-- The plain part takes the file name of the part behind it. -/
theorem plain_part_borrows_filename :
    Delimited (ascii "--x") (ascii "--x") ∧ Delimited (ascii "--x") plainPart ∧
      ¬ Isolated (ascii "--x") (ascii "--x") [plainPart] := by
  refine ⟨⟨[], by decide, by decide⟩,
    ⟨plainPart.take 49, by decide +kernel, by decide +kernel⟩, ?_⟩
  intro isolated
  obtain ⟨objects, _, alone, followed⟩ := isolated 1 (by decide) (ascii "--") uploadPart
  have differs : leadingParts (ascii "--x")
      (ascii "--x" ++ (([plainPart].take 1).flatten ++ ascii "--")) 1 ≠
      leadingParts (ascii "--x")
        (ascii "--x" ++ (([plainPart].take 1).flatten ++ uploadPart)) 1 := by
    decide +kernel
  exact differs (alone.trans followed.symm)

end Isolation

end Onyxup.Http
