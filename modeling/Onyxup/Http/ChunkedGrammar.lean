import Onyxup.Http.Chunked

/-!
Contract: the language of the chunked decoder.

Owns: the chunked bodies that `phr_decode_chunked` accepts, as a grammar with the data
each body stands for, and the theorem that the decoder accepts these and no others.

Does not own: the decoding in place.

The decoder is liberal: a line may end in any number of CR and one LF, everything between
the size of a chunk and the end of its line is skipped, and nothing in the trailer is
looked at but its line ends.
-/

set_option autoImplicit false

namespace Onyxup.Http

open Onyxup.Lib.CString
open Onyxup.Lib.Transducer

/-! ## The grammar -/

/-- The number that hexadecimal digits stand for, behind the number read before them. -/
def hexValue (value : Nat) (digits : Bytes) : Nat :=
  digits.foldl (fun value digit => value * 16 + (decodeHex digit).getD 0) value

/-- The line in front of a chunk of `size` bytes: at most sixteen digits, and anything that
does not go on with a digit. -/
inductive SizeLine : (size : Nat) → Bytes → Prop where
  | intro {digits extension : Bytes} (nonempty : digits ≠ []) (fits : digits.length ≤ 16)
      (isDigits : ∀ digit ∈ digits, (decodeHex digit).isSome = true)
      (starts : ∀ byte ∈ extension.head?, decodeHex byte = none)
      (oneLine : ∀ byte ∈ extension, byte ≠ 10) :
      SizeLine (hexValue 0 digits) (digits ++ extension ++ [10])

/-- Any number of CR, and an LF. -/
inductive LooseLineEnd : Bytes → Prop where
  | intro {returns : Bytes} (isReturns : ∀ byte ∈ returns, byte = 13) :
      LooseLineEnd (returns ++ [10])

/-- Lines up to an empty one. -/
inductive Trailer : Bytes → Prop where
  | last {ending : Bytes} (ends : LooseLineEnd ending) : Trailer ending
  | line {returns middle rest : Bytes} {first : UInt8}
      (isReturns : ∀ byte ∈ returns, byte = 13) (notReturn : first ≠ 13) (notEnd : first ≠ 10)
      (oneLine : ∀ byte ∈ middle, byte ≠ 10) (others : Trailer rest) :
      Trailer (returns ++ first :: middle ++ 10 :: rest)

/-- A chunked body and its data. The trailer belongs to it if the decoder is to consume
it. -/
inductive ChunkedBody (consumeTrailer : Bool) : (data text : Bytes) → Prop where
  | last {line trailer : Bytes} (size : SizeLine 0 line)
      (ends : if consumeTrailer then Trailer trailer else trailer = []) :
      ChunkedBody consumeTrailer [] (line ++ trailer)
  | chunk {line data ending others text : Bytes} (nonempty : data ≠ [])
      (size : SizeLine data.length line) (ends : LooseLineEnd ending)
      (rest : ChunkedBody consumeTrailer others text) :
      ChunkedBody consumeTrailer (data ++ others) (line ++ data ++ ending ++ text)

/-! ## Line ends and trailers -/

section Runs

variable {trailer : Bool} {text rest output : Bytes}

theorem run_crlf_iff :
    chunked.run ⟨0, trailer, 0, .inChunkCrlf⟩ text = .done output rest ↔
      ∃ ending behind, LooseLineEnd ending ∧ text = ending ++ behind ∧
        chunked.run ⟨0, trailer, 0, .inChunkSize⟩ behind = .done output rest := by
  have idle : ∀ byte : UInt8, (byte != 13) = false →
      chunked ⟨0, trailer, 0, .inChunkCrlf⟩ byte = .goOn ⟨0, trailer, 0, .inChunkCrlf⟩ [] := by
    intro byte isReturn
    simp [chunked, bne_eq_false_iff_eq.mp isReturn]
  have ends : chunked ⟨0, trailer, 0, .inChunkCrlf⟩ 10 =
      .goOn ⟨0, trailer, 0, .inChunkSize⟩ [] := rfl
  rw [Machine.run_done_iff_skips idle]
  constructor
  · rintro ⟨returns, byte, behind, rfl, before, notReturn, runs⟩
    by_cases lineFeed : byte = 10
    · obtain ⟨later, same, runs⟩ := (Machine.run_cons_done_iff ends).mp (lineFeed ▸ runs)
      rw [List.nil_append] at same
      refine ⟨returns ++ [10], behind, ⟨?_⟩, by simp [lineFeed], same ▸ runs⟩
      exact fun other member => bne_eq_false_iff_eq.mp (before other member)
    · have moves : chunked ⟨0, trailer, 0, .inChunkCrlf⟩ byte = .fail := by
        simp [chunked, lineFeed, bne_iff_ne.mp notReturn]
      rw [Machine.run_fail moves] at runs
      cases runs
  · rintro ⟨_, behind, @⟨returns, isReturns⟩, rfl, runs⟩
    refine ⟨returns, 10, behind, by simp, ?_, rfl,
      (Machine.run_cons_done_iff ends).mpr ⟨_, rfl, runs⟩⟩
    exact fun other member => bne_eq_false_iff_eq.mpr (isReturns other member)

private theorem middle_idle (byte : UInt8) (other : (byte == 10) = false) :
    chunked ⟨0, trailer, 0, .inTrailersLineMiddle⟩ byte =
      .goOn ⟨0, trailer, 0, .inTrailersLineMiddle⟩ [] := by
  simp [chunked, beq_eq_false_iff_ne.mp other]

private theorem head_idle (byte : UInt8) (isReturn : (byte != 13) = false) :
    chunked ⟨0, trailer, 0, .inTrailersLineHead⟩ byte =
      .goOn ⟨0, trailer, 0, .inTrailersLineHead⟩ [] := by
  simp [chunked, bne_eq_false_iff_eq.mp isReturn]

private theorem head_moves {byte : UInt8} (notReturn : byte ≠ 13) (notEnd : byte ≠ 10) :
    chunked ⟨0, trailer, 0, .inTrailersLineHead⟩ byte =
      .goOn ⟨0, trailer, 0, .inTrailersLineMiddle⟩ [] := by
  simp [chunked, notReturn, notEnd]

private theorem middle_moves :
    chunked ⟨0, trailer, 0, .inTrailersLineMiddle⟩ 10 =
      .goOn ⟨0, trailer, 0, .inTrailersLineHead⟩ [] := rfl

theorem run_of_trailer {lines : Bytes} (isTrailer : Trailer lines) (rest : Bytes) :
    chunked.run ⟨0, trailer, 0, .inTrailersLineHead⟩ (lines ++ rest) = .done [] rest := by
  induction isTrailer with
  | last ends =>
      obtain @⟨returns, isReturns⟩ := ends
      refine (Machine.run_done_iff_skips head_idle).mpr
        ⟨returns, 10, rest, by simp, ?_, rfl, Machine.run_done rfl rest⟩
      exact fun other member => bne_eq_false_iff_eq.mpr (isReturns other member)
  | @line returns middle behind first isReturns notReturn notEnd oneLine _ inductionHypothesis =>
      refine (Machine.run_done_iff_skips head_idle).mpr
        ⟨returns, first, middle ++ 10 :: (behind ++ rest), by simp, ?_, by simpa using notReturn,
          ?_⟩
      · exact fun other member => bne_eq_false_iff_eq.mpr (isReturns other member)
      · refine (Machine.run_cons_done_iff (head_moves notReturn notEnd)).mpr ⟨[], rfl, ?_⟩
        refine (Machine.run_done_iff_skips middle_idle).mpr
          ⟨middle, 10, behind ++ rest, rfl, ?_, rfl, ?_⟩
        · exact fun other member => beq_eq_false_iff_ne.mpr (oneLine other member)
        · exact (Machine.run_cons_done_iff middle_moves).mpr ⟨[], rfl, inductionHypothesis⟩

/-- By induction on a bound for the text: every line takes some of it. -/
theorem trailer_of_run (bound : Nat) (short : text.length ≤ bound)
    (runs : chunked.run ⟨0, trailer, 0, .inTrailersLineHead⟩ text = .done output rest) :
    output = [] ∧ ∃ lines, Trailer lines ∧ text = lines ++ rest := by
  induction bound generalizing text output with
  | zero =>
      rw [List.eq_nil_of_length_eq_zero (Nat.le_zero.mp short)] at runs
      cases runs
  | succ bound inductionHypothesis =>
      obtain ⟨returns, byte, behind, rfl, before, notReturn, runs⟩ :=
        (Machine.run_done_iff_skips head_idle).mp runs
      have isReturns : ∀ other ∈ returns, other = 13 :=
        fun other member => bne_eq_false_iff_eq.mp (before other member)
      by_cases lineFeed : byte = 10
      · rw [lineFeed, Machine.run_done rfl] at runs
        cases runs
        exact ⟨rfl, returns ++ [10], .last ⟨isReturns⟩, by simp [lineFeed]⟩
      · obtain ⟨_, rfl, runs⟩ :=
          (Machine.run_cons_done_iff (head_moves (bne_iff_ne.mp notReturn) lineFeed)).mp runs
        obtain ⟨middle, ending, later, rfl, oneLine, found, runs⟩ :=
          (Machine.run_done_iff_skips middle_idle).mp runs
        obtain rfl : ending = 10 := beq_iff_eq.mp found
        obtain ⟨_, rfl, runs⟩ := (Machine.run_cons_done_iff middle_moves).mp runs
        simp only [List.length_append, List.length_cons] at short
        obtain ⟨nothing, lines, isTrailer, rfl⟩ := inductionHypothesis (by omega) runs
        refine ⟨by simpa using nothing, returns ++ byte :: middle ++ 10 :: lines, ?_, by simp⟩
        refine .line isReturns (bne_iff_ne.mp notReturn) lineFeed ?_ isTrailer
        exact fun other member => beq_eq_false_iff_ne.mp (oneLine other member)

/-! ## Chunks -/

theorem run_data_iff {count : Nat} (some_ : 0 < count) :
    chunked.run ⟨count, trailer, 0, .inChunkData⟩ text = .done output rest ↔
      ∃ data behind later, data.length = count ∧ text = data ++ behind ∧
        output = data ++ later ∧
        chunked.run ⟨0, trailer, 0, .inChunkCrlf⟩ behind = .done later rest := by
  have drained (data behind : Bytes) (exactly : data.length = count) :
      chunked.run ⟨count, trailer, 0, .inChunkData⟩ (data ++ behind) =
        (chunked.run ⟨0, trailer, 0, .inChunkCrlf⟩ behind).behind data := by
    have runs := @run_data ⟨count, trailer, 0, .inChunkData⟩ data rfl some_
      (Nat.le_of_eq exactly) behind
    rw [runs, exactly]
    simp [PhrChunkedDecoder.fed]
  constructor
  · intro runs
    by_cases short : text.length < count
    · have waits := @run_data ⟨count, trailer, 0, .inChunkData⟩ text rfl some_
        (Nat.le_of_lt short) []
      rw [List.append_nil, runs] at waits
      cases waits
    · obtain ⟨data, behind, rfl, exactly⟩ : ∃ data behind, text = data ++ behind ∧
          data.length = count :=
        ⟨_, _, (List.take_append_drop count text).symm, List.length_take_of_le (by omega)⟩
      rw [drained data behind exactly] at runs
      cases verdict : chunked.run ⟨0, trailer, 0, .inChunkCrlf⟩ behind with
      | more final some_ => rw [verdict] at runs; cases runs
      | done later left =>
          rw [verdict] at runs
          cases runs
          exact ⟨data, behind, later, exactly, rfl, rfl, verdict⟩
      | fail some_ => rw [verdict] at runs; cases runs
  · rintro ⟨data, behind, later, exactly, rfl, rfl, runs⟩
    rw [drained data behind exactly, runs]
    rfl

/-- What comes behind the line of a chunk of `size` bytes. -/
def BehindSize (trailer : Bool) (size : Nat) (text output rest : Bytes) : Prop :=
  if size = 0 then
    output = [] ∧ ∃ lines, (if trailer then Trailer lines else lines = []) ∧ text = lines ++ rest
  else chunked.run ⟨size, trailer, 0, .inChunkData⟩ text = .done output rest

theorem run_lineFeed_iff {size : Nat} :
    chunked.run ⟨size, trailer, 0, .inChunkExt⟩ (10 :: text) = .done output rest ↔
      BehindSize trailer size text output rest := by
  unfold BehindSize
  by_cases last : size = 0
  · rw [if_pos last, last]
    cases trailer with
    | true =>
        have moves : chunked ⟨0, true, 0, .inChunkExt⟩ 10 =
            .goOn ⟨0, true, 0, .inTrailersLineHead⟩ [] := rfl
        rw [Machine.run_cons_done_iff moves]
        constructor
        · rintro ⟨_, rfl, runs⟩
          exact trailer_of_run text.length (Nat.le_refl _) runs
        · rintro ⟨rfl, lines, isTrailer, rfl⟩
          exact ⟨[], rfl, run_of_trailer isTrailer rest⟩
    | false =>
        have moves : chunked ⟨0, false, 0, .inChunkExt⟩ 10 = .done := rfl
        rw [Machine.run_done moves]
        constructor
        · intro same
          cases same
          exact ⟨rfl, [], rfl, rfl⟩
        · rintro ⟨rfl, lines, nothing, rfl⟩
          rw [show lines = [] from nothing, List.nil_append]
  · rw [if_neg last]
    have moves : chunked ⟨size, trailer, 0, .inChunkExt⟩ 10 =
        .goOn ⟨size, trailer, 0, .inChunkData⟩ [] := by
      simp [chunked, PhrChunkedDecoder.readExt, last]
    rw [Machine.run_cons_done_iff moves]
    constructor
    · rintro ⟨_, rfl, runs⟩
      exact runs
    · intro runs
      exact ⟨output, rfl, runs⟩

theorem run_ext_iff {size : Nat} :
    chunked.run ⟨size, trailer, 0, .inChunkExt⟩ text = .done output rest ↔
      ∃ extension behind, (∀ byte ∈ extension, byte ≠ 10) ∧ text = extension ++ 10 :: behind ∧
        BehindSize trailer size behind output rest := by
  have idle : ∀ byte : UInt8, (byte == 10) = false →
      chunked ⟨size, trailer, 0, .inChunkExt⟩ byte =
        .goOn ⟨size, trailer, 0, .inChunkExt⟩ [] := by
    intro byte other
    simp [chunked, PhrChunkedDecoder.readExt, beq_eq_false_iff_ne.mp other]
  rw [Machine.run_done_iff_skips idle]
  constructor
  · rintro ⟨extension, byte, behind, rfl, before, found, runs⟩
    obtain rfl : byte = 10 := beq_iff_eq.mp found
    refine ⟨extension, behind, ?_, rfl, run_lineFeed_iff.mp runs⟩
    exact fun other member => beq_eq_false_iff_ne.mp (before other member)
  · rintro ⟨extension, behind, oneLine, rfl, follows⟩
    refine ⟨extension, 10, behind, rfl, ?_, rfl, run_lineFeed_iff.mpr follows⟩
    exact fun other member => beq_eq_false_iff_ne.mpr (oneLine other member)

/-- The digits of a size, up to the first byte that is none. By induction on the text. -/
theorem run_size_iff {value count : Nat} (atMost : count ≤ 16) :
    chunked.run ⟨value, trailer, count, .inChunkSize⟩ text = .done output rest ↔
      ∃ digits byte behind, text = digits ++ byte :: behind ∧
        (∀ digit ∈ digits, (decodeHex digit).isSome = true) ∧ decodeHex byte = none ∧
        count + digits.length ≠ 0 ∧ count + digits.length ≤ 16 ∧
        chunked.run ⟨hexValue value digits, trailer, 0, .inChunkExt⟩ (byte :: behind) =
          .done output rest := by
  induction text generalizing value count with
  | nil => simp
  | cons byte text inductionHypothesis =>
      cases decodes : decodeHex byte with
      | none =>
          have onward (some_ : count ≠ 0) :
              chunked.run ⟨value, trailer, count, .inChunkSize⟩ (byte :: text) =
                chunked.run ⟨value, trailer, 0, .inChunkExt⟩ (byte :: text) := by
            have moves : chunked ⟨value, trailer, count, .inChunkSize⟩ byte =
                chunked ⟨value, trailer, 0, .inChunkExt⟩ byte := by
              simp [chunked, decodes, some_, PhrChunkedDecoder.readExt]
            rw [Machine.run, moves, ← Machine.run]
          constructor
          · intro runs
            by_cases nothing : count = 0
            · have moves : chunked ⟨value, trailer, count, .inChunkSize⟩ byte = .fail := by
                simp [chunked, decodes, nothing]
              rw [Machine.run_fail moves] at runs
              cases runs
            · rw [onward nothing] at runs
              exact ⟨[], byte, text, rfl, by simp, decodes, nothing, atMost, runs⟩
          · rintro ⟨digits, other, behind, cut, isDigits, _, some_, _, runs⟩
            cases digits with
            | nil =>
                cases cut
                rw [onward some_]
                exact runs
            | cons first digits =>
                cases cut
                have isDigit := isDigits byte List.mem_cons_self
                rw [decodes] at isDigit
                cases isDigit
      | some digit =>
          have onward (room : count ≠ 16) :
              chunked ⟨value, trailer, count, .inChunkSize⟩ byte =
                .goOn ⟨value * 16 + digit, trailer, count + 1, .inChunkSize⟩ [] := by
            simp [chunked, decodes, room, PhrChunkedDecoder.digit]
          have longer (digits : Bytes) :
              hexValue (value * 16 + digit) digits = hexValue value (byte :: digits) := by
            simp [hexValue, decodes]
          constructor
          · intro runs
            by_cases full : count = 16
            · have moves : chunked ⟨value, trailer, count, .inChunkSize⟩ byte = .fail := by
                simp [chunked, decodes, full]
              rw [Machine.run_fail moves] at runs
              cases runs
            · obtain ⟨_, rfl, runs⟩ := (Machine.run_cons_done_iff (onward full)).mp runs
              obtain ⟨digits, other, behind, rfl, isDigits, notDigit, _, fits, runs⟩ :=
                (inductionHypothesis (by omega)).mp runs
              rw [longer] at runs
              refine ⟨byte :: digits, other, behind, rfl, ?_, notDigit, by simp, ?_, runs⟩
              · rintro one (_ | ⟨_, member⟩)
                · rw [decodes]
                  rfl
                · exact isDigits one member
              · rw [List.length_cons]
                omega
          · rintro ⟨digits, other, behind, cut, isDigits, notDigit, _, fits, runs⟩
            cases digits with
            | nil =>
                cases cut
                rw [decodes] at notDigit
                cases notDigit
            | cons first digits =>
                cases cut
                rw [List.length_cons] at fits
                rw [← longer] at runs
                refine (Machine.run_cons_done_iff (onward (by omega))).mpr ⟨output, rfl, ?_⟩
                refine (inductionHypothesis (by omega)).mpr
                  ⟨digits, other, behind, rfl, ?_, notDigit, by omega, by omega, runs⟩
                exact fun one member => isDigits one (List.mem_cons_of_mem byte member)

/-- A size line, and what comes behind it. -/
theorem run_sizeLine_iff :
    chunked.run (.zeroFilled trailer) text = .done output rest ↔
      ∃ size line behind, SizeLine size line ∧ text = line ++ behind ∧
        BehindSize trailer size behind output rest := by
  rw [PhrChunkedDecoder.zeroFilled, run_size_iff (Nat.zero_le 16)]
  constructor
  · rintro ⟨digits, byte, behind, rfl, isDigits, notDigit, some_, fits, runs⟩
    rw [Nat.zero_add] at some_ fits
    obtain ⟨extension, later, oneLine, cut, follows⟩ := run_ext_iff.mp runs
    refine ⟨hexValue 0 digits, digits ++ extension ++ [10], later, ?_, by simp [cut], follows⟩
    refine .intro (List.ne_nil_of_length_pos (Nat.pos_of_ne_zero some_)) fits isDigits ?_ oneLine
    cases extension with
    | nil => simp
    | cons first extension =>
        cases cut
        simpa using notDigit
  · rintro ⟨_, _, behind, @⟨digits, extension, nonempty, fits, isDigits, starts, oneLine⟩, rfl,
      follows⟩
    have runs := run_ext_iff.mpr ⟨extension, behind, oneLine, rfl, follows⟩
    have some_ := List.length_pos_iff.mpr nonempty
    cases extension with
    | nil =>
        exact ⟨digits, 10, behind, by simp, isDigits, by decide, by omega, by omega, runs⟩
    | cons first extension =>
        exact ⟨digits, first, extension ++ 10 :: behind, by simp, isDigits, starts first rfl,
          by omega, by omega, runs⟩

end Runs

/-! ## Bodies -/

section Bodies

variable {trailer : Bool} {text rest data : Bytes}

theorem run_of_body (isBody : ChunkedBody trailer data text) (rest : Bytes) :
    chunked.run (.zeroFilled trailer) (text ++ rest) = .done data rest := by
  induction isBody with
  | @last line lines size ends =>
      refine run_sizeLine_iff.mpr ⟨0, line, lines ++ rest, size, by simp, ?_⟩
      rw [BehindSize, if_pos rfl]
      exact ⟨rfl, lines, ends, rfl⟩
  | @chunk line data ending others text nonempty size ends _ inductionHypothesis =>
      have some_ := List.length_pos_iff.mpr nonempty
      refine run_sizeLine_iff.mpr
        ⟨data.length, line, data ++ (ending ++ (text ++ rest)), size, by simp, ?_⟩
      rw [BehindSize, if_neg (by omega)]
      refine (run_data_iff some_).mpr ⟨data, _, others, rfl, rfl, rfl, ?_⟩
      exact run_crlf_iff.mpr ⟨ending, _, ends, rfl, inductionHypothesis⟩

/-- By induction on a bound for the text: every chunk takes some of it. -/
theorem body_of_run (bound : Nat) (short : text.length ≤ bound)
    (runs : chunked.run (.zeroFilled trailer) text = .done data rest) :
    ∃ body, ChunkedBody trailer data body ∧ text = body ++ rest := by
  induction bound generalizing text data with
  | zero =>
      rw [List.eq_nil_of_length_eq_zero (Nat.le_zero.mp short)] at runs
      cases runs
  | succ bound inductionHypothesis =>
      obtain ⟨size, line, behind, isLine, rfl, follows⟩ := run_sizeLine_iff.mp runs
      unfold BehindSize at follows
      split at follows
      next last =>
        obtain ⟨rfl, lines, ends, rfl⟩ := follows
        exact ⟨line ++ lines, .last (last ▸ isLine) ends, by simp⟩
      next some_ =>
        obtain ⟨first, later, others, exactly, rfl, rfl, drained⟩ :=
          (run_data_iff (Nat.pos_of_ne_zero some_)).mp follows
        obtain ⟨ending, text, ends, rfl, further⟩ := run_crlf_iff.mp drained
        simp only [List.length_append] at short
        obtain ⟨body, isBody, rfl⟩ := inductionHypothesis (by omega) further
        refine ⟨line ++ first ++ ending ++ body, ?_, by simp⟩
        refine .chunk ?_ (exactly ▸ isLine) ends isBody
        exact List.ne_nil_of_length_pos (by omega)

end Bodies

/-- **The decoder accepts its grammar.** A stream that comes in any pieces is decoded to
`data` with `rest` left over if and only if it starts with a chunked body that stands for
`data` and goes on with `rest`. -/
theorem chunked_decoder_accepts_grammar (consumeTrailer : Bool) (pieces : List Bytes)
    (data rest : Bytes) :
    decodePieces consumeTrailer pieces = .done data rest ↔
      ∃ body, ChunkedBody consumeTrailer data body ∧ pieces.flatten = body ++ rest := by
  rw [decodePieces_runs]
  constructor
  · intro runs
    exact body_of_run pieces.flatten.length (Nat.le_refl _) runs
  · rintro ⟨body, isBody, whole⟩
    rw [whole]
    exact run_of_body isBody rest

example : decodePieces true [ascii "4\r\nWi", ascii "ki\r\n0\r\n\r\nGET"] =
    .done (ascii "Wiki") (ascii "GET") := by
  rfl

end Onyxup.Http
