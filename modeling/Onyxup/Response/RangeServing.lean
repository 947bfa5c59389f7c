import Onyxup.Lib.Search
import Onyxup.Response.Framing
import Onyxup.Response.RangeForms

/-!
Contract: what a client gets for one range.

Owns: how a header with a single token goes through the parser and the chain, and for
each of the three forms whether the answer has the bytes that were asked for.

Does not own: headers with several tokens.

The caller passes the index of the last byte where the parser takes a length. The closed and
the open form agree with that as long as the index is not zero; the suffix form does not.
-/

set_option autoImplicit false

namespace Onyxup.Response

open Onyxup.Lib.CString
open Onyxup.Lib.Memory
open Onyxup.Http

/-! ## A single token -/

/-- The text behind `bytes=` is one token of this form. -/
structure SingleToken (text : Bytes) (form : RangeForm) : Prop where
  nonempty : text ≠ []
  missing : 44 ∉ text
  isForm : formOf (trimSpaces text) = some form

section Single

variable {text : Bytes}

theorem rangesText_bytes (text : Bytes) : rangesText (ascii "bytes=" ++ text) = .ok text := by
  have found : find (ascii "bytes=" ++ text) (ascii "bytes=") = some 0 :=
    find_self_append (by decide) text
  have width : (ascii "bytes=").length = 6 := by decide
  have start : toSizeT (toInt32 (0 : Nat) + 6) = 6 := by decide
  have notNpos : toInt32 (0 : Nat) ≠ -1 := by decide
  simp only [rangesText, found, if_neg notNpos, start]
  rw [if_neg (by rw [List.length_append, width]; omega), ← width, List.drop_left]

theorem getlines_of_not_mem (nonempty : text ≠ []) (missing : 44 ∉ text) :
    getlines 44 text = [text] := by
  rw [getlines, List.splitOn_eq_singleton missing]
  exact if_neg (by simpa using nonempty)

theorem sort_singleton (library : RangeLibrary) (range : ByteRange) :
    library.sort [range] = [range] :=
  List.perm_singleton.mp (library.sort_perm [range])

/-- A header with one token is accepted if the token is. -/
theorem parseRangesRequest_single (library : RangeLibrary) {length : Nat} {form : RangeForm}
    (positive : length ≠ 0) (token : SingleToken text form) :
    parseRangesRequest library (ascii "bytes=" ++ text) length =
      if form.Fits residue length then .ok [form.interval residue length]
      else .error .onyxupException := by
  have tokens := getlines_of_not_mem token.nonempty token.missing
  by_cases fits : form.Fits residue length
  · rw [if_pos fits, parseRangesRequest_ok_iff]
    refine ⟨[form], ⟨text, rangesText_bytes text, ?_⟩, ⟨positive, by simp, by simpa using fits, ?_⟩,
      (sort_singleton library _).symm⟩
    · rw [rangeTokens, tokens, List.map_singleton, List.map_singleton, token.isForm,
        List.map_singleton]
    · rw [List.map_singleton, sort_singleton]
      rfl
  · rw [if_neg fits, parseRangesRequest, if_neg positive, rangesText_bytes]
    change ((getlines 44 text).mapM fun token =>
      parseToken library.stray length (trimSpaces token)) >>= _ = _
    rw [tokens, List.mapM_cons, parseToken_eq, token.isForm]
    dsimp only
    rw [if_neg fits]
    rfl

end Single

/-! ## Spaces and digits -/

/-- A run of spaces. -/
def spaces (count : Nat) : Bytes :=
  List.replicate count 32

section Tokens

variable {left right : Bytes}

theorem trimSpaces_append (left right : Bytes) :
    trimSpaces (left ++ right) = trimSpaces left ++ trimSpaces right :=
  List.filter_append ..

theorem trimSpaces_spaces (count : Nat) : trimSpaces (spaces count) = [] := by
  rw [trimSpaces, List.filter_eq_nil_iff]
  intro byte member
  rw [List.eq_of_mem_replicate member]
  decide

theorem trimSpaces_of_decimal (plain : Decimal left) : trimSpaces left = left := by
  rw [trimSpaces, List.filter_eq_self]
  intro byte member
  rw [bne_iff_ne]
  rintro rfl
  exact absurd (plain.2 32 member) (by decide)

/-- Digits, spaces and dashes are no commas. -/
theorem comma_not_mem_spaces (count : Nat) : 44 ∉ spaces count := by
  intro member
  exact absurd (List.eq_of_mem_replicate member) (by decide)

theorem not_mem_of_decimal {byte : UInt8} (plain : Decimal left) (other : isDigit byte = false) :
    byte ∉ left := by
  intro member
  rw [plain.2 byte member] at other
  cases other

theorem all_isDigit_of_decimal (plain : Decimal left) : left.all isDigit = true :=
  List.all_eq_true.mpr plain.2

theorem formOf_openEnded (plain : Decimal left) :
    formOf (left ++ ascii "-") = some (.openEnded left) := by
  have dash : ascii "-" = [45] := by decide
  rw [formOf, dash, List.getLast?_concat, if_pos rfl, List.dropLast_concat,
    if_pos (all_isDigit_of_decimal plain)]

private theorem getLast?_ne_dash (plain : Decimal right) (front : Bytes) :
    (front ++ right).getLast? ≠ some 45 := by
  rw [List.getLast?_append_of_ne_nil _ plain.1]
  intro dash
  exact not_mem_of_decimal plain (by decide) (List.mem_of_getLast? dash)

theorem formOf_suffix (plain : Decimal right) :
    formOf (ascii "-" ++ right) = some (.suffix right) := by
  have dash : ascii "-" = [45] := by decide
  rw [formOf, if_neg (getLast?_ne_dash plain _), dash, List.singleton_append, List.head?_cons,
    if_pos rfl, List.tail_cons, if_pos (all_isDigit_of_decimal plain)]

theorem formOf_closed (plainLeft : Decimal left) (plainRight : Decimal right) :
    formOf (left ++ ascii "-" ++ right) = some (.closed left right) := by
  have dash : ascii "-" = [45] := by decide
  have notFirst : (left ++ ascii "-" ++ right).head? ≠ some 45 := by
    rw [List.append_assoc, List.head?_append_of_ne_nil _ plainLeft.1]
    intro isDash
    exact not_mem_of_decimal plainLeft (by decide) (List.mem_of_head? isDash)
  have found : find (left ++ ascii "-" ++ right) (ascii "-") = some left.length := by
    rw [List.append_assoc, dash,
      find_append_of_not_mem (not_mem_of_decimal plainLeft (by decide)),
      find_self_append (by simp)]
    rfl
  rw [formOf, if_neg (getLast?_ne_dash plainRight _), if_neg notFirst, found]
  dsimp only
  rw [List.append_assoc, List.take_left, dash, List.singleton_append,
    ← List.drop_drop, List.drop_left, List.drop_one, List.tail_cons,
    all_isDigit_of_decimal plainLeft, all_isDigit_of_decimal plainRight]
  rfl

end Tokens

/-! ## What is served -/

section Serving

variable {library : RangeLibrary} {deflate : Bytes → Bytes} {compressStaticResources : Bool}
variable {request : Request} {type : EnumTaskType} {response : ResponseBase}
variable {text : Bytes} {form : RangeForm}

private theorem mentions_bytes (text : Bytes) :
    (find (ascii "bytes=" ++ text) (ascii "bytes")).isSome = true := by
  have parts : ascii "bytes=" = ascii "bytes" ++ ascii "=" := by decide
  rw [parts, List.append_assoc, find_self_append (by decide)]
  rfl

variable (library deflate compressStaticResources type) in
/-- An accepted token is answered with the slice that the parser makes of it. -/
theorem executeChain_of_fits (notHead : request.method ≠ ascii "HEAD")
    (asked : request.headers.lookup (ascii "range") = some (ascii "bytes=" ++ text))
    (token : SingleToken text form)
    (hasBytes : response.body ≠ []) (positive : lastIndex response.body ≠ 0)
    (fits : form.Fits residue (lastIndex response.body)) :
    (form.interval residue (lastIndex response.body)).Inside response.body ∧
      ∃ after, executeChain library deflate compressStaticResources request type response =
          .ok after ∧ after.code = 206 ∧
        after.body = slice response.body (form.interval residue (lastIndex response.body)) := by
  have parsed := parseRangesRequest_single library positive token
  rw [if_pos fits] at parsed
  have inside := inside_of_parsed parsed hasBytes _ (List.mem_singleton_self _)
  refine ⟨inside, ?_⟩
  rw [executeChain_of_range notHead asked, if_pos (mentions_bytes text), parsed]
  dsimp only
  rw [prepareRangeResponse, copyRange_of_inside inside]
  exact ⟨_, rfl, rfl, rfl⟩

/-- A refused token is answered with 416. -/
theorem executeChain_of_unfit (notHead : request.method ≠ ascii "HEAD")
    (asked : request.headers.lookup (ascii "range") = some (ascii "bytes=" ++ text))
    (token : SingleToken text form)
    (unfit : lastIndex response.body ≠ 0 → ¬ form.Fits residue (lastIndex response.body)) :
    executeChain library deflate compressStaticResources request type response =
      .ok (prepareRangeNotSatisfiableResponse response) := by
  have parsed : parseRangesRequest library (ascii "bytes=" ++ text) (lastIndex response.body) =
      .error .onyxupException := by
    by_cases zero : lastIndex response.body = 0
    · rw [parseRangesRequest, if_pos zero]
    · rw [parseRangesRequest_single library zero token, if_neg (unfit zero)]
  rw [executeChain_of_range notHead asked, if_pos (mentions_bytes text), parsed]

end Serving

/-- Every request with this Range header, unless it is HEAD, is answered with these bytes. -/
def Serves (library : RangeLibrary) (deflate : Bytes → Bytes) (compressStaticResources : Bool)
    (type : EnumTaskType) (response : ResponseBase) (src : Bytes) (range : ByteRange) : Prop :=
  ∀ request : Request, request.method ≠ ascii "HEAD" →
    request.headers.lookup (ascii "range") = some src →
      ∃ after, executeChain library deflate compressStaticResources request type response =
        .ok after ∧ after.code = 206 ∧ after.body = slice response.body range

/-- A number with spaces on both sides. -/
def spaced (before behind : Nat) (number : Bytes) : Bytes :=
  spaces before ++ number ++ spaces behind

/-- `bytes=a-b`, with spaces around the numbers and the dash. -/
def closedHeader (before beforeDash behindDash behind : Nat) (left right : Bytes) : Bytes :=
  ascii "bytes=" ++ (spaced before beforeDash left ++ ascii "-" ++ spaced behindDash behind right)

/-- `bytes=a-`, with spaces around the number and the dash. -/
def openHeader (before beforeDash behind : Nat) (left : Bytes) : Bytes :=
  ascii "bytes=" ++ (spaced before beforeDash left ++ ascii "-" ++ spaces behind)

section Forms

variable {left right : Bytes}

theorem trimSpaces_spaced (before behind : Nat) (plain : Decimal left) :
    trimSpaces (spaced before behind left) = left := by
  rw [spaced, trimSpaces_append, trimSpaces_append, trimSpaces_spaces, trimSpaces_spaces,
    trimSpaces_of_decimal plain, List.nil_append, List.append_nil]

theorem comma_not_mem_spaced (before behind : Nat) (plain : Decimal left) :
    44 ∉ spaced before behind left := by
  simp only [spaced, List.mem_append, comma_not_mem_spaces, not_mem_of_decimal plain, or_self,
    not_false_eq_true, show isDigit 44 = false by decide]

private theorem trimSpaces_dash : trimSpaces (ascii "-") = ascii "-" := by
  decide

private theorem comma_not_mem_dash : 44 ∉ ascii "-" := by
  decide

private theorem ne_nil_of_dash (front back : Bytes) : front ++ ascii "-" ++ back ≠ [] := by
  simp [show ascii "-" ≠ [] by decide]

theorem singleToken_closed (before beforeDash behindDash behind : Nat) (plainLeft : Decimal left)
    (plainRight : Decimal right) :
    SingleToken (spaced before beforeDash left ++ ascii "-" ++ spaced behindDash behind right)
      (.closed left right) where
  nonempty := ne_nil_of_dash _ _
  missing := by
    simp only [List.mem_append, not_or]
    exact ⟨⟨comma_not_mem_spaced _ _ plainLeft, comma_not_mem_dash⟩,
      comma_not_mem_spaced _ _ plainRight⟩
  isForm := by
    rw [trimSpaces_append, trimSpaces_append, trimSpaces_spaced _ _ plainLeft, trimSpaces_dash,
      trimSpaces_spaced _ _ plainRight, formOf_closed plainLeft plainRight]

theorem singleToken_openEnded (before beforeDash behind : Nat) (plain : Decimal left) :
    SingleToken (spaced before beforeDash left ++ ascii "-" ++ spaces behind)
      (.openEnded left) where
  nonempty := ne_nil_of_dash _ _
  missing := by
    simp only [List.mem_append, not_or]
    exact ⟨⟨comma_not_mem_spaced _ _ plain, comma_not_mem_dash⟩, comma_not_mem_spaces _⟩
  isForm := by
    rw [trimSpaces_append, trimSpaces_append, trimSpaces_spaced _ _ plain, trimSpaces_dash,
      trimSpaces_spaces, List.append_nil, formOf_openEnded plain]

theorem singleToken_suffix (plain : Decimal right) :
    SingleToken (ascii "-" ++ right) (.suffix right) where
  nonempty := ne_nil_of_dash [] right
  missing := by
    rw [List.mem_append, not_or]
    exact ⟨comma_not_mem_dash, not_mem_of_decimal plain (by decide)⟩
  isForm := by
    rw [trimSpaces_append, trimSpaces_dash, trimSpaces_of_decimal plain, formOf_suffix plain]

variable {library : RangeLibrary} {deflate : Bytes → Bytes} {compressStaticResources : Bool}
variable {request : Request} {type : EnumTaskType} {response : ResponseBase}

/-- The last index of a body whose size is a `size_t`. -/
theorem lastIndex_of_fits (nonempty : response.body ≠ [])
    (fits : response.body.length < 18446744073709551616) :
    lastIndex response.body = response.body.length - 1 := by
  have positive := List.length_pos_iff.mpr nonempty
  simp only [lastIndex, toSizeT]
  omega

private theorem serves_of_form {text : Bytes} {form : RangeForm}
    (token : SingleToken text form)
    (two : 2 ≤ response.body.length) (fits : response.body.length < 18446744073709551616)
    (satisfiable : form.Fits residue (response.body.length - 1)) :
    Serves library deflate compressStaticResources type response (ascii "bytes=" ++ text)
      (form.interval residue (response.body.length - 1)) := by
  intro request notHead asked
  have hasBytes : response.body ≠ [] := List.ne_nil_of_length_pos (by omega)
  have last := lastIndex_of_fits hasBytes fits
  rw [← last] at satisfiable ⊢
  exact (executeChain_of_fits _ _ _ _ notHead asked token hasBytes (by omega) satisfiable).2

private theorem not_serves_of_one {text : Bytes} {form : RangeForm} {range : ByteRange}
    (token : SingleToken text form)
    (one : response.body.length = 1) :
    ¬ Serves library deflate compressStaticResources type response (ascii "bytes=" ++ text)
      range := by
  intro serves
  have zero : lastIndex response.body = 0 := by
    rw [lastIndex, one]
    decide
  obtain ⟨after, executed, code, _⟩ := serves (rangeRequest (ascii "bytes=" ++ text))
    (by decide : ascii "GET" ≠ ascii "HEAD") (Finmap.lookup_insert _)
  rw [executeChain_of_unfit (by decide : ascii "GET" ≠ ascii "HEAD") (Finmap.lookup_insert _)
    token (fun positive => absurd zero positive)] at executed
  cases executed
  exact absurd code (show (416 : Int) ≠ 206 by decide)

end Forms

/-- **Satisfiable ranges are served** exactly on bodies of at least two bytes. A single byte
cannot be asked for: its last index is zero, which the parser takes for an empty body. -/
theorem satisfiable_ranges_served_iff (library : RangeLibrary) (deflate : Bytes → Bytes)
    (compressStaticResources : Bool) (type : EnumTaskType) (response : ResponseBase)
    (nonempty : response.body ≠ []) (fits : response.body.length < 18446744073709551616)
    (left right : Bytes) (plainLeft : Decimal left) (plainRight : Decimal right)
    (ordered : digitsValue left ≤ digitsValue right)
    (inside : digitsValue right < response.body.length)
    (before beforeDash behindDash behind : Nat) :
    (Serves library deflate compressStaticResources type response
        (closedHeader before beforeDash behindDash behind left right)
        ⟨digitsValue left, digitsValue right⟩ ∧
      Serves library deflate compressStaticResources type response
        (openHeader before beforeDash behind left)
        ⟨digitsValue left, response.body.length - 1⟩) ↔
      2 ≤ response.body.length := by
  have exactLeft := residue_of_small (show digitsValue left < 18446744073709551616 by omega)
  have exactRight := residue_of_small (show digitsValue right < 18446744073709551616 by omega)
  constructor
  · rintro ⟨served, _⟩
    by_contra small
    have positive := List.length_pos_iff.mpr nonempty
    exact not_serves_of_one (singleToken_closed _ _ _ _ plainLeft plainRight) (by omega) served
  · intro two
    have closedFits : (RangeForm.closed left right).Fits residue (response.body.length - 1) := by
      simp only [RangeForm.Fits, exactLeft, exactRight]
      omega
    have openFits : (RangeForm.openEnded left).Fits residue (response.body.length - 1) := by
      simp only [RangeForm.Fits, exactLeft]
      omega
    rw [← exactLeft, ← exactRight]
    exact ⟨serves_of_form (singleToken_closed _ _ _ _ plainLeft plainRight) two fits closedFits,
      serves_of_form (singleToken_openEnded _ _ _ plainLeft) two fits openFits⟩

/-- Bytes 2 to 4 of ten, with spaces, and all bytes from 2 on. -/
theorem bytes_of_ten_served :
    Serves stableLibrary id false .localTask tenBytes
        (closedHeader 1 0 2 0 (ascii "2") (ascii "4")) ⟨2, 4⟩ ∧
      Serves stableLibrary id false .localTask tenBytes (openHeader 1 0 0 (ascii "2")) ⟨2, 9⟩ :=
  (satisfiable_ranges_served_iff stableLibrary id false .localTask tenBytes (by decide) (by decide)
    (ascii "2") (ascii "4") (plain_decimal 2) (plain_decimal 4) (by decide) (by decide)
    1 0 2 0).mpr (by decide)

/-- A page of one byte. -/
def oneByte : ResponseBase :=
  .make 200 (ascii "OK") mimeTextHtml (ascii "x")

/-- The only byte of a page is refused. -/
theorem only_byte_refused :
    (executeChain stableLibrary id false (rangeRequest (closedHeader 0 0 0 0 (ascii "0")
        (ascii "0"))) .localTask oneByte).map (·.code) = .ok 416 ∧
      ¬ (Serves stableLibrary id false .localTask oneByte
          (closedHeader 0 0 0 0 (ascii "0") (ascii "0")) ⟨0, 0⟩ ∧
        Serves stableLibrary id false .localTask oneByte (openHeader 0 0 0 (ascii "0"))
          ⟨0, 0⟩) := by
  have refused : (executeChain stableLibrary id false (rangeRequest (closedHeader 0 0 0 0
      (ascii "0") (ascii "0"))) .localTask oneByte).map (·.code) = .ok 416 := by
    decide +kernel
  refine ⟨refused, ?_⟩
  rintro ⟨served, _⟩
  obtain ⟨after, executed, code, _⟩ := served (rangeRequest (closedHeader 0 0 0 0 (ascii "0")
    (ascii "0"))) (by decide) (Finmap.lookup_insert _)
  rw [executed, Except.map, code] at refused
  cases refused

/-! ## The suffix form -/

/-- A 206 answer with the last `count` bytes, and a Content-Range that says so. -/
structure LastBytes (response : ResponseBase) (count : Nat) (after : ResponseBase) : Prop where
  code : after.code = 206
  body : after.body = response.body.drop (response.body.length - count)
  stated : after.headers.lookup (ascii "Content-Range") =
    some (contentRange ⟨response.body.length - count, response.body.length - 1⟩
      response.body.length)

/-- The slice of a suffix form has one byte more than its number says. -/
theorem length_suffix_slice {body count : Bytes}
    (inside : ((RangeForm.suffix count).interval residue (lastIndex body)).Inside body)
    (fits : (RangeForm.suffix count).Fits residue (lastIndex body)) :
    (slice body ((RangeForm.suffix count).interval residue (lastIndex body))).length =
      residue count + 1 := by
  rw [length_slice inside]
  simp only [RangeForm.interval, RangeForm.Fits] at fits ⊢
  omega

/-- **No suffix range selects the last bytes it asks for.** The parser counts from the index of
the last byte, so there is one byte too many, and all bytes at once are refused. -/
theorem suffix_never_last_bytes (library : RangeLibrary) (deflate : Bytes → Bytes)
    (compressStaticResources : Bool) (request : Request) (type : EnumTaskType)
    (response : ResponseBase) (count : Nat) (two : 2 ≤ response.body.length)
    (within : count ≤ response.body.length)
    (notHead : request.method ≠ ascii "HEAD")
    (asked : request.headers.lookup (ascii "range") =
      some (ascii "bytes=-" ++ decimal count)) :
    ¬ ∃ after, executeChain library deflate compressStaticResources request type response =
        .ok after ∧ LastBytes response count after := by
  rintro ⟨after, executed, last⟩
  have header : ascii "bytes=-" ++ decimal count =
      ascii "bytes=" ++ (ascii "-" ++ decimal count) := by
    rw [← List.append_assoc]
    rfl
  rw [header] at asked
  have token := singleToken_suffix (plain_decimal count)
  have hasBytes : response.body ≠ [] := List.ne_nil_of_length_pos (by omega)
  by_cases accepted : lastIndex response.body ≠ 0 ∧
      (RangeForm.suffix (decimal count)).Fits residue (lastIndex response.body)
  · obtain ⟨inside, served, alsoExecuted, _, body⟩ := executeChain_of_fits library deflate
      compressStaticResources type notHead asked token hasBytes accepted.1 accepted.2
    rw [executed] at alsoExecuted
    cases alsoExecuted
    have length := congrArg List.length (last.body.symm.trans body)
    rw [length_suffix_slice inside accepted.2, List.length_drop, residue,
      digitsValue_decimal] at length
    omega
  · rw [executeChain_of_unfit notHead asked token fun nonzero fits => accepted ⟨nonzero, fits⟩]
      at executed
    cases executed
    exact absurd last.code (show (416 : Int) ≠ 206 by decide)

/-- The last three of ten bytes are asked for. -/
theorem last_three_of_ten_refused :
    ¬ ∃ after, executeChain stableLibrary id false (rangeRequest (ascii "bytes=-3")) .localTask
        tenBytes = .ok after ∧ LastBytes tenBytes 3 after :=
  suffix_never_last_bytes stableLibrary id false (rangeRequest (ascii "bytes=-3")) .localTask
    tenBytes 3 (by decide) (by decide) (by decide) (Finmap.lookup_insert _)

/-- Four bytes are sent where the last three are asked for. -/
theorem one_byte_too_many :
    (executeChain stableLibrary id false (rangeRequest (ascii "bytes=-3")) .localTask
        tenBytes).map (·.body) = .ok (ascii "6789") ∧
      ¬ ∃ after, executeChain stableLibrary id false (rangeRequest (ascii "bytes=-3")) .localTask
        tenBytes = .ok after ∧ LastBytes tenBytes 3 after := by
  have sent : (executeChain stableLibrary id false (rangeRequest (ascii "bytes=-3")) .localTask
      tenBytes).map (·.body) = .ok (ascii "6789") := by
    decide +kernel
  refine ⟨sent, ?_⟩
  rintro ⟨after, executed, last⟩
  rw [executed, Except.map, last.body] at sent
  exact absurd (congrArg List.length (Except.ok.inj sent)) (by decide)

end Onyxup.Response
