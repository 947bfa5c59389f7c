import Onyxup.Http.Rendering
import Onyxup.Http.ResponseParser
import Onyxup.Response.Framing
import Onyxup.Response.Serialise

/-!
Contract: the stream of responses on a connection, read by a client.

Owns: a client that is built on `phr_parse_response` and on Content-Length, the
condition under which it can read a response of `prepareResponse`, and the
theorem that it takes a whole stream of such responses apart again.

Does not own: how the bytes come to the client, and responses to HEAD.

Six headers are written before those of the map. The client skips the blanks
around a value, as the parser does.
-/

set_option autoImplicit false

namespace Onyxup.Response

open Onyxup.Lib.CString
open Onyxup.Lib.Memory
open Onyxup.Http.Parser

/-! ## The client -/

/-- The first Content-Length, whatever the case of its name. -/
def statedLength (head : ResponseHead) : Option Nat :=
  (head.headers.find? fun header => header.name.map toLower == ascii "content-length").map
    fun header => digitsValue header.value

/-- The first response of the stream, and what follows it. -/
def takeResponse (maxHeaders : Nat) (stream : Bytes) : Option ((ResponseHead × Bytes) × Bytes) :=
  match phrParseResponse maxHeaders stream with
  | (size, some head) =>
      match statedLength head with
      | some length =>
          let rest := stream.drop size.toNat
          if length ≤ rest.length then some ((head, rest.take length), rest.drop length) else none
      | none => none
  | (_, none) => none

/-- The client's loop: response after response, to the end of the stream. -/
def readResponses (maxHeaders : Nat) : (fuel : Nat) → Bytes → Option (List (ResponseHead × Bytes))
  | _, [] => some []
  | 0, _ :: _ => none
  | fuel + 1, byte :: stream => do
      let (first, rest) ← takeResponse maxHeaders (byte :: stream)
      let others ← readResponses maxHeaders fuel rest
      pure (first :: others)

/-! ## What is written -/

/-- A response with the time and the order of the header map in which it is
written. -/
structure Written where
  datetime : Bytes
  entries : List (Bytes × Bytes)
  response : ResponseBase

namespace Written

def headerText (identity : Identity) (written : Written) : Bytes :=
  written.response.headerText identity written.datetime written.entries

def text (identity : Identity) (written : Written) : Bytes :=
  written.response.prepareResponse identity written.datetime written.entries

/-- The headers of `ResponseBase::HEADER`. -/
def fixedFields (identity : Identity) (written : Written) : List (Bytes × Bytes) :=
  [(ascii "Host", cString identity.serverIp ++ ascii ":" ++ decimalInt identity.serverPort),
    (ascii "Server", ascii "onyxup/1.1.0"), (ascii "Connection", ascii "Keep-Alive"),
    (ascii "Date", cString written.datetime), (ascii "Accept-Ranges", ascii "bytes"),
    (ascii "Content-Type", cString written.response.mimeType)]

/-- Their names. -/
def fixedNames : List Bytes :=
  [ascii "Host", ascii "Server", ascii "Connection", ascii "Date", ascii "Accept-Ranges",
    ascii "Content-Type"]

/-- What the client is to read of the response, its body apart. -/
def head (identity : Identity) (written : Written) : ResponseHead where
  minorVersion := 1
  status := written.response.code.toNat
  msg := cString written.response.codeMsg
  headers := (fixedFields identity written ++ written.entries).map fieldRead

/-- A code of three digits, texts that keep to their line, a header block that
the formatting buffer and the client's array hold, and one true Content-Length. -/
structure Readable (identity : Identity) (maxHeaders : Nat) (written : Written) : Prop where
  listed : written.response.lists written.entries = true
  code : 100 ≤ written.response.code ∧ written.response.code ≤ 999
  reason : LineText (cString written.response.codeMsg)
  address : LineText (cString identity.serverIp)
  date : LineText (cString written.datetime)
  mimeType : LineText (cString written.response.mimeType)
  writable : ∀ field ∈ written.entries, WritableField field
  fits : (headerText identity written).length ≤ 4095
  slots : written.entries.length + 6 ≤ maxHeaders
  framed : Framed written.response
  spelled : ∀ field ∈ written.entries,
    field.1.map toLower = ascii "content-length" → field.1 = ascii "Content-Length"

end Written

/-! ## The header block -/

section Block

variable {identity : Identity} {maxHeaders : Nat} {written : Written}

private theorem lineText_decimalInt (value : Int) : LineText (decimalInt value) := by
  unfold decimalInt
  split
  · have sign : LineText [45] := by decide +kernel
    exact sign.append (lineText_decimal _)
  · exact lineText_decimal _

theorem Written.Readable.writable_all (readable : written.Readable identity maxHeaders) :
    ∀ field ∈ written.fixedFields identity ++ written.entries, WritableField field := by
  intro field member
  rcases List.mem_append.mp member with fixed | entry
  · simp only [Written.fixedFields, List.mem_cons, List.not_mem_nil, or_false] at fixed
    rcases fixed with rfl | rfl | rfl | rfl | rfl | rfl
    · exact writableField_of (by decide +kernel) (by decide +kernel)
        ((readable.address.append (by decide +kernel)).append (lineText_decimalInt _))
    · decide +kernel
    · decide +kernel
    · exact writableField_of (by decide +kernel) (by decide +kernel) readable.date
    · decide +kernel
    · exact writableField_of (by decide +kernel) (by decide +kernel) readable.mimeType
  · exact readable.writable field entry

private theorem lineEnds_behind (fields : List (Bytes × Bytes)) :
    fields.flatMap ResponseBase.headerLine ++ ascii "\r\n" =
      ascii "\r\n" ++ fields.flatMap fieldLine := by
  induction fields with
  | nil => simp
  | cons field fields inductionHypothesis =>
      rw [List.flatMap_cons, List.append_assoc, inductionHypothesis, List.flatMap_cons,
        ResponseBase.headerLine, fieldLine]
      simp only [List.append_assoc]

private theorem fixedLines_eq (identity : Identity) (written : Written) :
    fixedLines identity written.datetime written.response =
      ascii "HTTP/1.1 " ++ decimalInt written.response.code ++ ascii " " ++
        cString written.response.codeMsg ++
        (written.fixedFields identity).flatMap ResponseBase.headerLine := by
  have host : ascii "\r\nHost: " = ascii "\r\n" ++ (ascii "Host" ++ ascii ": ") := by decide
  have server : ascii "\r\nServer: onyxup/1.1.0" =
      ascii "\r\n" ++ (ascii "Server" ++ (ascii ": " ++ ascii "onyxup/1.1.0")) := by decide
  have connection : ascii "\r\nConnection: Keep-Alive\r\nDate: " =
      ascii "\r\n" ++ (ascii "Connection" ++ (ascii ": " ++ (ascii "Keep-Alive" ++
        (ascii "\r\n" ++ (ascii "Date" ++ ascii ": "))))) := by decide
  have ranges : ascii "\r\nAccept-Ranges: bytes\r\nContent-Type: " =
      ascii "\r\n" ++ (ascii "Accept-Ranges" ++ (ascii ": " ++ (ascii "bytes" ++
        (ascii "\r\n" ++ (ascii "Content-Type" ++ ascii ": "))))) := by decide
  simp only [fixedLines, Written.fixedFields, ResponseBase.headerLine, host, server, connection,
    ranges, List.flatMap_cons, List.flatMap_nil, List.append_assoc, List.append_nil]

theorem Written.Readable.nulFree (readable : written.Readable identity maxHeaders) :
    0 ∉ written.entries.flatMap ResponseBase.headerLine := by
  intro member
  obtain ⟨field, isEntry, inside⟩ := List.mem_flatMap.mp member
  obtain ⟨cleanName, cleanValue⟩ := (readable.writable field isEntry).nulFree
  simp only [ResponseBase.headerLine, List.mem_append] at inside
  rcases inside with ((lineEnd | inName) | colon) | inValue
  · exact absurd lineEnd (by decide)
  · exact cleanName inName
  · exact absurd colon (by decide)
  · exact cleanValue inValue

/-- The status line, its end, and the fields as any peer writes them. -/
theorem Written.Readable.headerText_eq (readable : written.Readable identity maxHeaders) :
    written.headerText identity =
      ascii "HTTP/1." ++ [49] ++ [32] ++ decimalInt written.response.code ++ ascii " " ++
        cString written.response.codeMsg ++ ascii "\r\n" ++
        fieldBlock (written.fixedFields identity ++ written.entries) := by
  have text : written.headerText identity =
      fixedLines identity written.datetime written.response ++
        written.entries.flatMap ResponseBase.headerLine ++ ascii "\r\n\r\n" := by
    rw [headerText, ResponseBase.headerText, cString_of_nulFree readable.nulFree]
    rfl
  have twoLines : ascii "\r\n\r\n" = ascii "\r\n" ++ ascii "\r\n" := by decide
  have version : ascii "HTTP/1.1 " = ascii "HTTP/1." ++ [49] ++ [32] := by decide
  have behind := lineEnds_behind (written.fixedFields identity ++ written.entries)
  rw [List.flatMap_append] at behind
  rw [text, fixedLines_eq, twoLines, version]
  generalize ascii "HTTP/1." ++ [49] ++ [32] ++ decimalInt written.response.code ++ ascii " " ++
    cString written.response.codeMsg = line
  calc line ++ (written.fixedFields identity).flatMap ResponseBase.headerLine ++
        written.entries.flatMap ResponseBase.headerLine ++ (ascii "\r\n" ++ ascii "\r\n")
      = line ++ ((written.fixedFields identity).flatMap ResponseBase.headerLine ++
          written.entries.flatMap ResponseBase.headerLine ++ ascii "\r\n") ++ ascii "\r\n" := by
        simp only [List.append_assoc]
    _ = line ++ ascii "\r\n" ++ fieldBlock (written.fixedFields identity ++ written.entries) := by
        rw [behind, fieldBlock]
        simp only [List.append_assoc]

/-- The status line and the header lines form a block of the parser's grammar. -/
theorem Written.Readable.block (readable : written.Readable identity maxHeaders) :
    ResponseBlock (written.head identity) (written.headerText identity) := by
  obtain ⟨small, large⟩ := readable.code
  have printed : decimalInt written.response.code = decimal written.response.code.toNat := by
    rw [decimalInt, if_neg (by omega)]
    congr 1
    omega
  have three : (decimal written.response.code.toNat).length = 3 := by
    rw [decimal, List.length_map]
    apply Nat.le_antisymm
    · exact (Nat.length_toDigits_le_iff (by decide) (by decide)).mpr (by omega)
    · by_contra short
      have few : (Nat.toDigits 10 written.response.code.toNat).length ≤ 2 := by omega
      have bound := (Nat.length_toDigits_le_iff (by decide) (by decide)).mp few
      omega
  have isMinor : isDigit 49 = true := by decide
  have line := StatusLine.intro isMinor (plain_decimal written.response.code.toNat) three
    readable.reason (.inl rfl)
  rw [digitsValue_decimal] at line
  rw [readable.headerText_eq, printed]
  exact .intro line (headerBlock_of_fields readable.writable_all true)

/-! ## One response -/

/-- Whatever the client finds under the name is the length of the body. -/
theorem Written.Readable.statedLength_eq (readable : written.Readable identity maxHeaders) :
    statedLength (written.head identity) = some written.response.body.length := by
  have isWritten : (ascii "Content-Length", decimal written.response.body.length) ∈
      written.entries := (mem_of_lists readable.listed).mpr readable.framed
  have only : ∀ field ∈ written.fixedFields identity ++ written.entries,
      field.1.map toLower = ascii "content-length" →
      field = (ascii "Content-Length", decimal written.response.body.length) := by
    intro field member sameName
    rcases List.mem_append.mp member with fixed | entry
    · have other : ∀ name ∈ Written.fixedNames, name.map toLower ≠ ascii "content-length" := by
        decide
      have fixedName : field.1 ∈ (written.fixedFields identity).map Prod.fst :=
        List.mem_map_of_mem fixed
      exact absurd sameName (other field.1 fixedName)
    · obtain ⟨name, value⟩ := field
      obtain rfl : name = ascii "Content-Length" := readable.spelled _ entry sameName
      have stated := (mem_of_lists readable.listed).mp entry
      rw [readable.framed] at stated
      cases stated
      rfl
  unfold statedLength
  cases found : (written.head identity).headers.find? fun header =>
      header.name.map toLower == ascii "content-length" with
  | none =>
      have missing := List.find?_eq_none.mp found _ (List.mem_map_of_mem
        (List.mem_append_right (written.fixedFields identity) isWritten))
      have same : (ascii "Content-Length").map toLower = ascii "content-length" := by decide
      exact absurd (beq_iff_eq.mpr same) missing
  | some header =>
      obtain ⟨field, member, rfl⟩ := List.mem_map.mp (List.mem_of_find?_eq_some found)
      have sameName := List.find?_some found
      rw [beq_iff_eq] at sameName
      rw [only field member sameName, Option.map_some, fieldRead_decimal, digitsValue_decimal]

/-- The client takes the response off the front of its stream. -/
theorem Written.Readable.takeResponse_eq (readable : written.Readable identity maxHeaders)
    (stream : Bytes) :
    takeResponse maxHeaders (written.text identity ++ stream) =
      some ((written.head identity, written.response.body), stream) := by
  have whole : written.text identity = written.headerText identity ++ written.response.body := by
    rw [text, ResponseBase.prepareResponse]
    exact congrArg (· ++ _) (List.take_of_length_le readable.fits)
  have few : (written.head identity).headers.length ≤ maxHeaders := by
    have slots := readable.slots
    simp only [head, fixedFields, List.length_map, List.length_append, List.length_cons,
      List.length_nil]
    omega
  have small := readable.fits
  have parsed := phrParseResponse_of_block readable.block few (written.response.body ++ stream)
  rw [toInt32_of_small (by omega) (by omega)] at parsed
  rw [takeResponse, whole, List.append_assoc, parsed]
  simp only [readable.statedLength_eq, Int.toNat_natCast, List.drop_left, List.take_left]
  rw [if_pos (by rw [List.length_append]; omega)]

end Block

/-! ## The stream -/

/-- A page as the event loop writes it. -/
def writtenPage (datetime : Bytes) (code : Int) (codeMsg body : Bytes) : Written where
  datetime := datetime
  entries := [(ascii "Content-Length", decimal body.length)]
  response := (ResponseBase.make code codeMsg mimeTextHtml body).addHeader
    (ascii "Content-Length") (decimal body.length)

theorem text_writtenPage (identity : Identity) (datetime : Bytes) (code : Int)
    (codeMsg body : Bytes) :
    (writtenPage datetime code codeMsg body).text identity =
      page identity datetime code codeMsg body :=
  rfl

/-- Every page of the event loop whose header block fits is readable. -/
theorem readable_writtenPage {identity : Identity} {maxHeaders : Nat} {datetime : Bytes}
    {code : Int} {codeMsg body : Bytes} (threeDigits : 100 ≤ code ∧ code ≤ 999)
    (reason : LineText (cString codeMsg)) (address : LineText (cString identity.serverIp))
    (date : LineText (cString datetime)) (slots : 7 ≤ maxHeaders)
    (fits : ((writtenPage datetime code codeMsg body).headerText identity).length ≤ 4095) :
    (writtenPage datetime code codeMsg body).Readable identity maxHeaders where
  listed := by
    simp only [ResponseBase.lists, Bool.and_eq_true, decide_eq_true_eq]
    exact ⟨List.nodup_singleton _, rfl⟩
  code := threeDigits
  reason := reason
  address := address
  date := date
  mimeType := by
    change LineText (cString mimeTextHtml)
    decide +kernel
  writable := by
    intro field member
    obtain rfl := List.mem_singleton.mp member
    exact writableField_of (by decide +kernel) (by decide +kernel) (lineText_decimal _)
  fits := fits
  slots := slots
  framed := Finmap.lookup_insert _
  spelled := by
    intro field member _
    obtain rfl := List.mem_singleton.mp member
    rfl

/-- **A client takes the stream of responses apart.** For every list of readable
responses, written one behind the other as the server sends them on a connection
that is kept alive: the client gets back each status, each header and each body. -/
theorem responses_read_back (identity : Identity) (maxHeaders : Nat) (written : List Written)
    (readable : ∀ one ∈ written, one.Readable identity maxHeaders) (fuel : Nat)
    (enough : written.length ≤ fuel) :
    readResponses maxHeaders fuel (written.flatMap (Written.text identity)) =
      some (written.map fun one => (one.head identity, one.response.body)) := by
  induction written generalizing fuel with
  | nil => cases fuel <;> rfl
  | cons first others inductionHypothesis =>
      obtain ⟨fuel, rfl⟩ := Nat.exists_eq_succ_of_ne_zero (Nat.ne_of_gt
        (Nat.lt_of_lt_of_le (Nat.succ_pos _) enough))
      have taken := (readable first List.mem_cons_self).takeResponse_eq
        (others.flatMap (Written.text identity))
      have later := inductionHypothesis
        (fun one member => readable one (List.mem_cons_of_mem _ member)) fuel
        (Nat.le_of_succ_le_succ enough)
      rw [List.flatMap_cons]
      cases stream : first.text identity ++ others.flatMap (Written.text identity) with
      | nil =>
          exact absurd (List.append_eq_nil_iff.mp stream).1
            (ResponseBase.prepareResponse_ne_nil _ _ _ _)
      | cons byte rest =>
          rw [stream] at taken
          rw [readResponses, taken]
          change (readResponses maxHeaders fuel _ >>= fun others => pure (_ :: others)) = _
          rw [later]
          rfl

/-- Two pages of the event loop on one connection. -/
theorem two_pages_read_back :
    (readResponses 10 2
        (page404 ⟨ascii "0.0.0.0", 80⟩ (ascii "gone") (ascii "2020-01-01 00:00:00") ++
          page404 ⟨ascii "0.0.0.0", 80⟩ [] (ascii "2020-01-01 00:00:01"))).map
      (List.map fun one => (one.1.status, one.1.msg, one.2)) =
    some [(404, ascii "Not Found", ascii "gone"), (404, ascii "Not Found", [])] := by
  have readable : ∀ one ∈ [
      writtenPage (ascii "2020-01-01 00:00:00") 404 (ascii "Not Found") (ascii "gone"),
      writtenPage (ascii "2020-01-01 00:00:01") 404 (ascii "Not Found") []],
      one.Readable ⟨ascii "0.0.0.0", 80⟩ 10 := by
    intro one member
    rcases List.mem_pair.mp member with rfl | rfl <;>
      exact readable_writtenPage (by decide +kernel) (by decide +kernel) (by decide +kernel)
        (by decide +kernel) (by decide +kernel) (by decide +kernel)
  have back := responses_read_back ⟨ascii "0.0.0.0", 80⟩ 10 _ readable 2 (Nat.le_refl 2)
  rw [List.flatMap_cons, List.flatMap_singleton, text_writtenPage, text_writtenPage] at back
  rw [page404, page404, back]
  rfl

end Onyxup.Response
