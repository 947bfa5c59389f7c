import Onyxup.Lib.Supply
import Onyxup.Response.Framing

/-!
Contract: `gzip::compress` and `gzip::decompress`, which ask zlib for its output in parts.

Owns: the two loops with the string they enlarge and cut, the theorem that the compressor
is the `gzipCompress` of the chain, and when the decompressor gives back what the
compressor was given.

Does not own: zlib. A stream is something that puts out a text in parts of any size; which
text it is, is documented and not modelled.

The checks under `DEBUG` are left out.
-/

set_option autoImplicit false

namespace Onyxup.Response.Gzip

open Onyxup.Lib.CString
open Onyxup.Lib.Memory
open Onyxup.Lib.Supply

/-! ## The source -/

/-- `deflate` and `inflate` with `Z_FINISH` on initialised streams; `avail_out` is the room. -/
structure Zlib where
  Deflating : Type
  Inflating : Type
  deflateInit2 : (level : Int) → Bytes → Option Deflating
  deflate : Source Deflating UInt8 Int
  inflateInit2 : Bytes → Option Inflating
  inflate : Source Inflating UInt8 Int
  message : Inflating → Bytes

/-- `std::runtime_error` with its text. -/
structure GzipError where
  what : Bytes
deriving DecidableEq

def sizeTooLarge : GzipError :=
  ⟨ascii "size may use more memory than intended when decompressing"⟩

def deflateInitFailed : GzipError :=
  ⟨ascii "deflate init failed"⟩

def inflateInitFailed : GzipError :=
  ⟨ascii "inflate init failed"⟩

def outputTooLarge : GzipError :=
  ⟨ascii "size of output string will use more memory then intended when decompressing"⟩

/-- `std::string::resize`. -/
def resize (text : Bytes) (size : Nat) : Bytes :=
  text.take size ++ List.replicate (size - text.length) 0

/-- `static_cast<unsigned int>`. -/
def toUnsigned (size : Nat) : Nat :=
  size % 4294967296

/-- The `do` loop of `Compressor::compress`. -/
def compressLoop (zlib : Zlib) (increase : Nat) : (turns : Nat) → zlib.Deflating →
    (output : Bytes) → (sizeCompressed : Nat) → Option Bytes
  | 0, _, _, _ => none
  | turns + 1, stream, output, sizeCompressed =>
      let output :=
        if output.length < sizeCompressed + increase then resize output (sizeCompressed + increase)
        else output
      let call := zlib.deflate stream (toUnsigned increase)
      let availOut := toUnsigned increase - call.2.1.length
      let output := overwrite output sizeCompressed call.2.1
      let sizeCompressed := sizeCompressed + (increase - availOut)
      if availOut = 0 then compressLoop zlib increase turns call.1 output sizeCompressed
      else some (resize output sizeCompressed)

/-- `gzip::compress`; there is no value when the loop has not ended. -/
def compress (zlib : Zlib) (level : Int) (turns : Nat) (data : Bytes) :
    Option (Except GzipError Bytes) :=
  if gzipMaxBytes < data.length then some (.error sizeTooLarge)
  else
    match zlib.deflateInit2 level data with
    | none => some (.error deflateInitFailed)
    | some stream =>
        (compressLoop zlib (data.length / 2 + 1024) turns stream [] 0).map .ok

/-- `max_bytes` of `gzip::Decompressor`. -/
def gunzipMaxBytes : Nat := 1000000000

/-- `Z_STREAM_END`, `Z_OK` and `Z_BUF_ERROR`. -/
def goesOn (ret : Int) : Prop :=
  ret = 1 ∨ ret = 0 ∨ ret = -5

instance (ret : Int) : Decidable (goesOn ret) :=
  inferInstanceAs (Decidable (_ ∨ _))

/-- The `do` loop of `Decompressor::decompress`. -/
def decompressLoop (zlib : Zlib) (size : Nat) : (turns : Nat) → zlib.Inflating →
    (output : Bytes) → (sizeUncompressed : Nat) → Option (Except GzipError Bytes)
  | 0, _, _, _ => none
  | turns + 1, stream, output, sizeUncompressed =>
      let resizeTo := sizeUncompressed + 2 * size
      if gunzipMaxBytes < resizeTo then some (.error outputTooLarge)
      else
        let call := zlib.inflate stream (toUnsigned (2 * size))
        if goesOn call.2.2 then
          let availOut := toUnsigned (2 * size) - call.2.1.length
          let output := overwrite (resize output resizeTo) sizeUncompressed call.2.1
          let sizeUncompressed := sizeUncompressed + (2 * size - availOut)
          if availOut = 0 then decompressLoop zlib size turns call.1 output sizeUncompressed
          else some (.ok (resize output sizeUncompressed))
        else some (.error ⟨zlib.message call.1⟩)

/-- `gzip::decompress`. -/
def decompress (zlib : Zlib) (turns : Nat) (data : Bytes) : Option (Except GzipError Bytes) :=
  match zlib.inflateInit2 data with
  | none => some (.error inflateInitFailed)
  | some stream =>
      if gunzipMaxBytes < data.length ∨ gunzipMaxBytes < data.length * 2 then
        some (.error sizeTooLarge)
      else decompressLoop zlib data.length turns stream [] 0

/-! ## The loops -/

section Loops

variable {zlib : Zlib}

private theorem size_after {front written : Bytes} {room : Nat} (fits : written.length ≤ room) :
    front.length + (room - (room - written.length)) = (front ++ written).length := by
  rw [List.length_append]
  omega

private theorem length_le_of_start {text front : Bytes}
    (starts : text.take front.length = front) : front.length ≤ text.length := by
  have width := congrArg List.length starts
  rw [List.length_take] at width
  omega

theorem resize_of_start {text front : Bytes} (starts : text.take front.length = front) :
    resize text front.length = front := by
  rw [resize, starts, Nat.sub_eq_zero_of_le (length_le_of_start starts), List.replicate_zero,
    List.append_nil]

theorem take_resize {text front : Bytes} {size : Nat} (starts : text.take front.length = front)
    (grows : front.length ≤ size) : (resize text size).take front.length = front := by
  have long := length_le_of_start starts
  rw [resize, List.take_append_of_le_length (by rw [List.length_take]; omega), List.take_take,
    Nat.min_eq_left grows, starts]

/-- By induction on the turns: the string starts with what has been put out. -/
theorem compressLoop_collects {increase : Nat} (positive : 0 < increase)
    (fits : increase < 4294967296) {turns : Nat} {stream : zlib.Deflating} {expected : Int → Prop}
    {output front rest : Bytes} (starts : output.take front.length = front)
    (puts : PutsOut zlib.deflate expected stream rest) (enough : rest.length < turns) :
    compressLoop zlib increase turns stream output front.length = some (front ++ rest) := by
  induction turns generalizing stream output front rest with
  | zero => omega
  | succ turns inductionHypothesis =>
      have unwrapped : toUnsigned increase = increase := Nat.mod_eq_of_lt fits
      have written : (zlib.deflate stream increase).2.1 = rest.take increase :=
        (puts.first increase).1
      have grown : (if output.length < front.length + increase then
          resize output (front.length + increase) else output).take front.length = front := by
        split
        next => exact take_resize starts (Nat.le_add_right _ _)
        next => exact starts
      have copied := @take_overwrite UInt8 _ front (rest.take increase) grown
      have width := @size_after front _ _ (List.length_take_le increase rest)
      rw [← List.length_append] at copied
      rw [compressLoop]
      simp only [unwrapped, written, width]
      by_cases more : increase ≤ rest.length
      · have full : (rest.take increase).length = increase := by
          rw [List.length_take]
          omega
        rw [if_pos (by omega),
          inductionHypothesis copied (puts.rest increase) (by rw [List.length_drop]; omega),
          List.append_assoc, List.take_append_drop]
      · have all : rest.take increase = rest := List.take_of_length_le (by omega)
        rw [if_neg (by rw [all]; omega), resize_of_start copied, all]

/-- The same with the limit on the size of the string. -/
theorem decompressLoop_collects {size : Nat} (positive : 0 < size)
    (fits : 2 * size < 4294967296) {turns : Nat} {stream : zlib.Inflating}
    {output front rest : Bytes} (starts : output.take front.length = front)
    (puts : PutsOut zlib.inflate goesOn stream rest) (enough : rest.length < turns) :
    decompressLoop zlib size turns stream output front.length =
      some (if front.length + (rest.length / (2 * size) + 1) * (2 * size) ≤ gunzipMaxBytes then
        .ok (front ++ rest) else .error outputTooLarge) := by
  induction turns generalizing stream output front rest with
  | zero => omega
  | succ turns inductionHypothesis =>
      have unwrapped : toUnsigned (2 * size) = 2 * size := Nat.mod_eq_of_lt fits
      obtain ⟨written, answer⟩ := puts.first (2 * size)
      have copied := @take_overwrite UInt8 _ front (rest.take (2 * size))
        (take_resize starts (Nat.le_add_right front.length (2 * size)))
      rw [← List.length_append] at copied
      have width := @size_after front _ _ (List.length_take_le (2 * size) rest)
      have least : 2 * size ≤ (rest.length / (2 * size) + 1) * (2 * size) :=
        Nat.le_mul_of_pos_left _ (Nat.succ_pos _)
      rw [decompressLoop]
      dsimp only
      split
      next large => rw [if_neg (by omega)]
      next within =>
        simp only [unwrapped]
        rw [if_pos answer, written, width]
        by_cases more : 2 * size ≤ rest.length
        · have full : (rest.take (2 * size)).length = 2 * size := by
            rw [List.length_take]
            omega
          have turnsLeft : rest.length / (2 * size) =
              (rest.drop (2 * size)).length / (2 * size) + 1 := by
            rw [List.length_drop, Nat.div_eq_sub_div (by omega) more]
          have same : (front ++ rest.take (2 * size)).length +
              ((rest.drop (2 * size)).length / (2 * size) + 1) * (2 * size) =
              front.length + (rest.length / (2 * size) + 1) * (2 * size) := by
            rw [turnsLeft, List.length_append, full,
              Nat.succ_mul ((rest.drop (2 * size)).length / (2 * size) + 1)]
            omega
          rw [if_pos (by omega),
            inductionHypothesis copied (puts.rest (2 * size)) (by rw [List.length_drop]; omega),
            same, List.append_assoc, List.take_append_drop]
        · have all : rest.take (2 * size) = rest := List.take_of_length_le (by omega)
          rw [if_neg (by rw [all]; omega), resize_of_start copied, all,
            Nat.div_eq_of_lt (by omega), if_pos (by omega)]

end Loops

/-- **Compressed texts come back.** For streams that put out a text in whatever room they
are given: `gzip::compress` ends with all of it, as the chain takes it to be, or refuses more
than two billion bytes. `gzip::decompress` ends too. It gives back the data exactly when its
string, which it enlarges by twice the compressed size until there is room left over, stays
within a billion bytes. -/
theorem compressed_text_comes_back (zlib : Zlib) (level : Int) (deflate : Bytes → Bytes)
    (data : Bytes) (deflating : zlib.Deflating) (inflating : zlib.Inflating)
    (opens : zlib.deflateInit2 level data = some deflating)
    (deflates : PutsOut zlib.deflate (fun _ => True) deflating (deflate data))
    (header : deflate data ≠ [])
    (reopens : zlib.inflateInit2 (deflate data) = some inflating)
    (inflates : PutsOut zlib.inflate goesOn inflating data) (turns : Nat)
    (enough : (deflate data).length < turns ∧ data.length < turns) :
    compress zlib level turns data =
        some ((gzipCompress deflate data).mapError fun _ => sizeTooLarge) ∧
      decompress zlib turns (deflate data) =
        some (if gunzipMaxBytes < 2 * (deflate data).length then .error sizeTooLarge
          else if (data.length / (2 * (deflate data).length) + 1) * (2 * (deflate data).length) ≤
            gunzipMaxBytes then .ok data
          else .error outputTooLarge) := by
  constructor
  · unfold compress gzipCompress
    split
    next => rfl
    next small =>
      have room : data.length / 2 + 1024 < 4294967296 := by
        unfold gzipMaxBytes at small
        omega
      have collects := @compressLoop_collects zlib (data.length / 2 + 1024) (Nat.succ_pos _) room
        turns deflating _ [] [] (deflate data) rfl deflates enough.1
      rw [opens]
      simp only
      rw [show (0 : Nat) = ([] : Bytes).length from rfl, collects]
      rfl
  · have nonempty : 0 < (deflate data).length := List.length_pos_iff.mpr header
    unfold decompress
    rw [reopens]
    dsimp only
    split
    next large => rw [if_pos (by omega)]
    next within =>
      have room : 2 * (deflate data).length < 4294967296 := by
        unfold gunzipMaxBytes at within
        omega
      have collects := @decompressLoop_collects zlib (deflate data).length nonempty room
        turns inflating [] [] data rfl inflates enough.2
      have fitsTwice : ¬ gunzipMaxBytes < 2 * (deflate data).length := by omega
      rw [List.length_nil, Nat.zero_add, List.nil_append] at collects
      rw [collects, if_neg fitsTwice]

/-- A stream with its whole output in front of it. -/
def textStream : Source Bytes UInt8 Int := fun text room =>
  (text.drop room, text.take room, if text.length ≤ room then 1 else 0)

theorem putsOut_textStream {expected : Int → Prop} (ends : expected 1) (goes : expected 0)
    (text : Bytes) : PutsOut textStream expected text text := by
  intro rooms
  induction rooms generalizing text with
  | nil => exact ⟨rfl, fun call member => absurd member List.not_mem_nil⟩
  | cons room rooms inductionHypothesis =>
      obtain ⟨whole, answers⟩ := inductionHypothesis (text.drop room)
      refine ⟨congrArg (List.cons (text.take room)) whole, ?_⟩
      intro call member
      rcases List.mem_cons.mp member with rfl | later
      · show expected (if text.length ≤ room then 1 else 0)
        split
        next => exact ends
        next => exact goes
      · exact answers call later

/-- A zlib that knows one text. -/
def helloZlib : Zlib where
  Deflating := Bytes
  Inflating := Bytes
  deflateInit2 _ data := if data = ascii "hello" then some gzippedHello else none
  deflate := textStream
  inflateInit2 data := if data = gzippedHello then some (ascii "hello") else none
  inflate := textStream
  message _ := ascii "incorrect header check"

/-- `hello` is compressed and comes back. -/
theorem hello_comes_back :
    compress helloZlib (-1) 30 (ascii "hello") = some (.ok gzippedHello) ∧
      decompress helloZlib 30 gzippedHello = some (.ok (ascii "hello")) :=
  compressed_text_comes_back helloZlib (-1) deflateHello (ascii "hello") gzippedHello
    (ascii "hello") rfl (putsOut_textStream trivial trivial _) (by decide) rfl
    (putsOut_textStream (.inl rfl) (.inr (.inl rfl)) _) 30 (by decide)

end Onyxup.Response.Gzip
