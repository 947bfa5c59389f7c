import Onyxup.Lib.Search
import Onyxup.Response.Base

/-!
Contract: reading back what `prepareResponse` has written.

Owns: how a client takes a response apart at its first empty line, and the exact
condition under which it gets the body and every header of the map.

Does not own: who wrote the headers.

The header block is formatted into 4096 bytes. What does not fit is cut off, the
empty line at its end first, and the body follows where the block was cut.
-/

set_option autoImplicit false

namespace Onyxup.Response

open Onyxup.Lib.CString
open Onyxup.Http

def blankLine : Bytes := ascii "\r\n\r\n"

/-- `block` has the header on one of the lines behind its first. -/
def HasHeaderLine (block key value : Bytes) : Prop :=
  ∃ front back, block = front ++ ResponseBase.headerLine (key, value) ++ back ∧
    (back = [] ∨ ascii "\r\n" <+: back)

/-- Taken apart at its first empty line, the text gives back the body and the
headers. -/
def Undone (response : ResponseBase) (text : Bytes) : Prop :=
  ∃ index, find text blankLine = some index ∧
    text.drop (index + blankLine.length) = response.body ∧
    ∀ key value, response.headers.lookup key = some value →
      HasHeaderLine (text.take index) key value

/-- No CR, LF or NUL. -/
def Plain (text : Bytes) : Prop :=
  13 ∉ text ∧ 10 ∉ text ∧ 0 ∉ text

/-- Names and values without CR, LF or NUL. -/
def PlainHeaders (response : ResponseBase) : Prop :=
  ∀ key value, response.headers.lookup key = some value → Plain key ∧ Plain value

section Entries

variable {response : ResponseBase} {entries : List (Bytes × Bytes)} {key value : Bytes}

/-- The entries are those of the map. -/
theorem mem_of_lists (listed : response.lists entries = true) :
    (key, value) ∈ entries ↔ response.headers.lookup key = some value := by
  simp only [ResponseBase.lists, Bool.and_eq_true, decide_eq_true_eq] at listed
  obtain ⟨distinct, same⟩ := listed
  have nodup : (entries.map fun entry =>
      (⟨entry.1, entry.2⟩ : Sigma fun _ : Bytes => Bytes)).NodupKeys := by
    rw [List.NodupKeys, List.keys, List.map_map]
    exact distinct
  rw [← same, Finmap.dlookup_list_toFinmap, ← Option.mem_def, List.mem_dlookup_iff nodup]
  simp only [List.mem_map, Sigma.mk.injEq, heq_eq_eq, Prod.exists]
  constructor
  · intro member
    exact ⟨key, value, member, rfl, rfl⟩
  · rintro ⟨_, _, member, rfl, rfl⟩
    exact member

/-- Nothing in the header lines ends the C string. -/
theorem nulFree_of_plain (listed : response.lists entries = true)
    (plain : PlainHeaders response) : 0 ∉ entries.flatMap ResponseBase.headerLine := by
  intro member
  obtain ⟨⟨key, value⟩, isEntry, inside⟩ := List.mem_flatMap.mp member
  obtain ⟨plainKey, plainValue⟩ := plain key value ((mem_of_lists listed).mp isEntry)
  simp only [ResponseBase.headerLine, List.mem_append] at inside
  rcases inside with ((lineEnd | inKey) | colon) | inValue
  · exact absurd lineEnd (by decide)
  · exact plainKey.2.2 inKey
  · exact absurd colon (by decide)
  · exact plainValue.2.2 inValue

/-- Behind the lines in front of it, every entry has its own line. -/
theorem hasHeaderLine_of_mem (front : Bytes) (member : (key, value) ∈ entries) :
    HasHeaderLine (front ++ entries.flatMap ResponseBase.headerLine) key value := by
  obtain ⟨before, after, rfl⟩ := List.append_of_mem member
  refine ⟨front ++ before.flatMap ResponseBase.headerLine,
    after.flatMap ResponseBase.headerLine, ?_, ?_⟩
  · simp only [List.flatMap_append, List.flatMap_cons, List.append_assoc]
  · cases after with
    | nil => exact .inl rfl
    | cons next rest =>
        right
        simp only [List.flatMap_cons, ResponseBase.headerLine, List.append_assoc]
        exact List.prefix_append _ _

end Entries

/-! ## The first empty line -/

section Block

variable {identity : Identity} {datetime : Bytes} {entries : List (Bytes × Bytes)}
variable {response : ResponseBase}

/-- The lines of `ResponseBase::HEADER` in front of the header map. -/
def fixedLines (identity : Identity) (datetime : Bytes) (response : ResponseBase) : Bytes :=
  ascii "HTTP/1.1 " ++ decimalInt response.code ++ ascii " " ++ cString response.codeMsg ++
  ascii "\r\nHost: " ++ cString identity.serverIp ++ ascii ":" ++
  decimalInt identity.serverPort ++ ascii "\r\nServer: onyxup/1.1.0" ++
  ascii "\r\nConnection: Keep-Alive\r\nDate: " ++ cString datetime ++
  ascii "\r\nAccept-Ranges: bytes\r\nContent-Type: " ++ cString response.mimeType

theorem headerText_eq (listed : response.lists entries = true) (plain : PlainHeaders response) :
    response.headerText identity datetime entries =
      fixedLines identity datetime response ++ entries.flatMap ResponseBase.headerLine ++
        blankLine := by
  rw [ResponseBase.headerText, cString_of_nulFree (nulFree_of_plain listed plain)]
  rfl

/-- The first 4095 bytes of the formatted block end with its first empty line. A
block that is longer must have the lines of all headers in front of the cut. -/
def KeepsItsEnd (response : ResponseBase) (text : Bytes) : Prop :=
  find text blankLine = some (min text.length 4095 - blankLine.length) ∧
    (4095 < text.length → ∀ key value, response.headers.lookup key = some value →
      HasHeaderLine (text.take (4095 - blankLine.length)) key value)

private theorem blankLine_length : blankLine.length = 4 := by
  decide

private theorem blankLine_ne_nil : blankLine ≠ [] := by
  decide

/-- What a client takes apart rightly has kept its end. -/
theorem keepsItsEnd_of_undone
    (undone : Undone response (response.prepareResponse identity datetime entries)) :
    KeepsItsEnd response (response.headerText identity datetime entries) := by
  unfold ResponseBase.prepareResponse at undone
  generalize response.headerText identity datetime entries = text at undone ⊢
  obtain ⟨index, found, rest, lines⟩ := undone
  have size : (text.take 4095).length = min text.length 4095 := by
    rw [List.length_take, Nat.min_comm]
  -- The body is what follows, so the empty line ends where the block was cut.
  have ends : index + blankLine.length = (text.take 4095).length := by
    have inside := find_some found
    have lengths := congrArg List.length rest
    rw [List.length_drop] at lengths
    rw [List.length_append] at lengths inside
    omega
  have inBlock := (find_append_iff blankLine_ne_nil (Nat.le_of_eq ends) _).mp found
  have inText := find_append_of_some blankLine_ne_nil inBlock (text.drop 4095)
  rw [List.take_append_drop] at inText
  refine ⟨?_, ?_⟩
  · rw [inText]
    congr 1
    omega
  · intro long key value has
    have line := lines key value has
    have cut : index = 4095 - blankLine.length := by omega
    rw [List.take_append_of_le_length (by omega), List.take_take, cut] at line
    rwa [Nat.min_eq_left (by omega)] at line

theorem undone_of_keepsItsEnd (listed : response.lists entries = true)
    (plain : PlainHeaders response)
    (keeps : KeepsItsEnd response (response.headerText identity datetime entries)) :
    Undone response (response.prepareResponse identity datetime entries) := by
  have block := @headerText_eq identity datetime entries response listed plain
  unfold ResponseBase.prepareResponse
  generalize response.headerText identity datetime entries = text at block keeps
  obtain ⟨found, lines⟩ := keeps
  have inside := find_some found
  have ends : min text.length 4095 - blankLine.length + blankLine.length =
      (text.take 4095).length := by
    rw [List.length_take, Nat.min_comm]
    rw [blankLine_length] at inside ⊢
    omega
  have inBlock : find (text.take 4095) blankLine =
      some (min text.length 4095 - blankLine.length) := by
    rw [← find_append_iff blankLine_ne_nil (Nat.le_of_eq ends) (text.drop 4095),
      List.take_append_drop]
    exact found
  refine ⟨_, find_append_of_some blankLine_ne_nil inBlock _, ?_, ?_⟩
  · rw [ends, List.drop_left]
  · intro key value has
    rw [List.take_append_of_le_length (by omega), List.take_take]
    by_cases long : 4095 < text.length
    · rw [show min text.length 4095 = 4095 by omega, Nat.min_eq_left (by omega)]
      exact lines long key value has
    · have short : min (min text.length 4095 - blankLine.length) 4095 =
          (fixedLines identity datetime response ++
            entries.flatMap ResponseBase.headerLine).length := by
        have length := congrArg List.length block
        rw [List.length_append] at length
        omega
      rw [short, block, List.take_left]
      exact hasHeaderLine_of_mem _ ((mem_of_lists listed).mpr has)

end Block

/-! ## Plain responses -/

section Lines

private theorem noCr_decimalInt (value : Int) : 13 ∉ decimalInt value := by
  have digits : ∀ number, 13 ∉ decimal number :=
    fun number member => absurd (isDigit_of_mem_decimal member) (by decide)
  unfold decimalInt
  split
  · rw [List.mem_cons, not_or]
    exact ⟨by decide, digits _⟩
  · exact digits _

variable {identity : Identity} {datetime : Bytes} {entries : List (Bytes × Bytes)}
variable {response : ResponseBase}

private def statusLine (response : ResponseBase) : Bytes :=
  ascii "HTTP/1.1 " ++ decimalInt response.code ++ ascii " " ++ cString response.codeMsg

/-- The lines behind the status line. -/
private def linesOf (identity : Identity) (datetime : Bytes) (entries : List (Bytes × Bytes))
    (response : ResponseBase) : List Bytes :=
  [ascii "Host: " ++ cString identity.serverIp ++ ascii ":" ++ decimalInt identity.serverPort,
    ascii "Server: onyxup/1.1.0", ascii "Connection: Keep-Alive",
    ascii "Date: " ++ cString datetime, ascii "Accept-Ranges: bytes",
    ascii "Content-Type: " ++ cString response.mimeType] ++
    entries.map fun entry => entry.1 ++ ascii ": " ++ entry.2

private theorem lines_of_block :
    fixedLines identity datetime response ++ entries.flatMap ResponseBase.headerLine =
      statusLine response ++
        (linesOf identity datetime entries response).flatMap (ascii "\r\n" ++ ·) := by
  have host : ascii "\r\nHost: " = ascii "\r\n" ++ ascii "Host: " := by decide
  have server : ascii "\r\nServer: onyxup/1.1.0" =
      ascii "\r\n" ++ ascii "Server: onyxup/1.1.0" := by decide
  have connection : ascii "\r\nConnection: Keep-Alive\r\nDate: " =
      ascii "\r\n" ++ (ascii "Connection: Keep-Alive" ++ (ascii "\r\n" ++ ascii "Date: ")) := by
    decide
  have ranges : ascii "\r\nAccept-Ranges: bytes\r\nContent-Type: " =
      ascii "\r\n" ++ (ascii "Accept-Ranges: bytes" ++
        (ascii "\r\n" ++ ascii "Content-Type: ")) := by
    decide
  have headerLine : ResponseBase.headerLine =
      fun entry => ascii "\r\n" ++ (entry.1 ++ (ascii ": " ++ entry.2)) := by
    funext entry
    simp only [ResponseBase.headerLine, List.append_assoc]
  simp only [fixedLines, statusLine, linesOf, host, server, connection, ranges, headerLine,
    List.flatMap_append, List.flatMap_cons, List.flatMap_nil, List.flatMap_map,
    List.append_assoc, List.nil_append]

private theorem noCr_statusLine (reason : 13 ∉ cString response.codeMsg) :
    13 ∉ statusLine response := by
  simp only [statusLine, List.mem_append, not_or]
  exact ⟨⟨⟨by decide, noCr_decimalInt _⟩, by decide⟩, reason⟩

private theorem noCr_linesOf (listed : response.lists entries = true)
    (plain : PlainHeaders response) (mimeType : 13 ∉ cString response.mimeType)
    (address : 13 ∉ cString identity.serverIp) (date : 13 ∉ cString datetime) :
    ∀ line ∈ linesOf identity datetime entries response, line ≠ [] ∧ 13 ∉ line := by
  intro line member
  rcases List.mem_append.mp member with fixed | entry
  · simp only [List.mem_cons, List.not_mem_nil, or_false] at fixed
    rcases fixed with rfl | rfl | rfl | rfl | rfl | rfl
    · refine ⟨by simp [show ascii "Host: " ≠ [] by decide], ?_⟩
      simp only [List.mem_append, not_or]
      exact ⟨⟨⟨by decide, address⟩, by decide⟩, noCr_decimalInt _⟩
    · decide
    · decide
    · refine ⟨by simp [show ascii "Date: " ≠ [] by decide], ?_⟩
      rw [List.mem_append, not_or]
      exact ⟨by decide, date⟩
    · decide
    · refine ⟨by simp [show ascii "Content-Type: " ≠ [] by decide], ?_⟩
      rw [List.mem_append, not_or]
      exact ⟨by decide, mimeType⟩
  · obtain ⟨⟨key, value⟩, isEntry, rfl⟩ := List.mem_map.mp entry
    obtain ⟨plainKey, plainValue⟩ := plain key value ((mem_of_lists listed).mp isEntry)
    refine ⟨by simp [show ascii ": " ≠ [] by decide], ?_⟩
    simp only [List.mem_append, not_or]
    exact ⟨⟨plainKey.1, by decide⟩, plainValue.1⟩

/-- When neither the reason nor the MIME type, the address or the date brings a
CR along, all that matters is the length of the block. -/
theorem keepsItsEnd_iff_short (listed : response.lists entries = true)
    (plain : PlainHeaders response) (reason : 13 ∉ cString response.codeMsg)
    (mimeType : 13 ∉ cString response.mimeType) (address : 13 ∉ cString identity.serverIp)
    (date : 13 ∉ cString datetime) :
    KeepsItsEnd response (response.headerText identity datetime entries) ↔
      (response.headerText identity datetime entries).length ≤ 4095 := by
  have block := @headerText_eq identity datetime entries response listed plain
  rw [lines_of_block] at block
  have found := find_emptyLine (noCr_statusLine reason)
    (noCr_linesOf listed plain mimeType address date) []
  change find (_ ++ (blankLine ++ [])) blankLine = _ at found
  rw [List.append_nil, ← block, List.length_append] at found
  have length := congrArg List.length block
  simp only [List.length_append, blankLine_length] at length
  unfold KeepsItsEnd
  rw [found, Option.some.injEq, blankLine_length]
  constructor
  · rintro ⟨ends, _⟩
    omega
  · intro short
    exact ⟨by omega, fun long => absurd short (Nat.not_le.mpr long)⟩

end Lines

/-! ## Serialisation and back -/

/-- **Response serialisation can be undone.** For every response with plain
headers, however long, and every order of the header map: the client gets back
the body and every header exactly when the block that is formatted keeps its
end. -/
theorem serialised_iff (identity : Identity) (datetime : Bytes)
    (entries : List (Bytes × Bytes)) (response : ResponseBase)
    (listed : response.lists entries = true) (plain : PlainHeaders response) :
    Undone response (response.prepareResponse identity datetime entries) ↔
      KeepsItsEnd response (response.headerText identity datetime entries) :=
  ⟨keepsItsEnd_of_undone, undone_of_keepsItsEnd listed plain⟩

/-- A short page with one header of the handler's. -/
def pageWith (value : Bytes) : ResponseBase :=
  (ResponseBase.make 200 (ascii "OK") mimeTextHtml (ascii "hello")).addHeader
    (ascii "X-Trace") value

private theorem pageWith_lists (value : Bytes) :
    (pageWith value).lists [(ascii "X-Trace", value)] = true := by
  simp only [ResponseBase.lists, Bool.and_eq_true, decide_eq_true_eq]
  exact ⟨List.nodup_singleton _, rfl⟩

private theorem pageWith_plain {value : Bytes} (plain : Plain value) :
    PlainHeaders (pageWith value) := by
  intro key other has
  by_cases same : key = ascii "X-Trace"
  · rw [same, pageWith, ResponseBase.addHeader, Finmap.lookup_insert] at has
    cases has
    rw [same]
    exact ⟨by unfold Plain; decide, plain⟩
  · rw [pageWith, ResponseBase.addHeader, Finmap.lookup_insert_of_ne _ same] at has
    cases has

/-- The page and its header are read back. -/
theorem short_page_undone :
    Undone (pageWith (ascii "17")) ((pageWith (ascii "17")).prepareResponse
      ⟨ascii "0.0.0.0", 80⟩ (ascii "2020-01-01 00:00:00") [(ascii "X-Trace", ascii "17")]) :=
  (serialised_iff ⟨ascii "0.0.0.0", 80⟩ (ascii "2020-01-01 00:00:00")
    [(ascii "X-Trace", ascii "17")] (pageWith (ascii "17")) (pageWith_lists _)
    (pageWith_plain (by unfold Plain; decide))).mpr
    ⟨by decide +kernel, fun long => absurd long (by decide +kernel)⟩

/-- A header of four thousand bytes pushes the empty line out of the block. -/
theorem long_header_not_undone :
    (pageWith (List.replicate 4096 97)).lists [(ascii "X-Trace", List.replicate 4096 97)] = true ∧
      PlainHeaders (pageWith (List.replicate 4096 97)) ∧
      ¬ Undone (pageWith (List.replicate 4096 97))
        ((pageWith (List.replicate 4096 97)).prepareResponse ⟨ascii "0.0.0.0", 80⟩
          (ascii "2020-01-01 00:00:00") [(ascii "X-Trace", List.replicate 4096 97)]) := by
  have plain : Plain (List.replicate 4096 97) := by
    simp only [Plain, List.mem_replicate]
    decide
  refine ⟨pageWith_lists _, pageWith_plain plain, ?_⟩
  intro undone
  have short := (keepsItsEnd_iff_short (pageWith_lists _) (pageWith_plain plain) (by decide)
    (by decide) (by decide) (by decide)).mp (keepsItsEnd_of_undone undone)
  rw [headerText_eq (pageWith_lists _) (pageWith_plain plain)] at short
  simp only [List.length_append, List.flatMap_singleton, ResponseBase.headerLine,
    List.length_replicate] at short
  omega

end Onyxup.Response
