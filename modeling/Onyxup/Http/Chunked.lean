import Mathlib.Algebra.Ring.Nat
import Onyxup.Lib.CString
import Onyxup.Lib.Memory
import Onyxup.Lib.Transducer

/-!
Contract: `phr_decode_chunked` of picohttpparser, which decodes a chunked body in the
buffer it is given.

Owns: the decoder with its `switch`, its loops and its `memmove`s, the machine that it
implements, and the proof that it does.

Does not own: which texts are chunked bodies.

The size of a buffer is taken to fit into `ssize_t`.
-/

set_option autoImplicit false

namespace Onyxup.Http

open Onyxup.Lib.CString
open Onyxup.Lib.Memory
open Onyxup.Lib.Transducer

/-! ## The source -/

inductive ChunkedState where
  | inChunkSize
  | inChunkExt
  | inChunkData
  | inChunkCrlf
  | inTrailersLineHead
  | inTrailersLineMiddle
deriving DecidableEq

/-- `struct phr_chunked_decoder`. -/
structure PhrChunkedDecoder where
  bytesLeftInChunk : Nat
  consumeTrailer : Bool
  hexCount : Nat
  state : ChunkedState
deriving DecidableEq

/-- "should be zero-filled before start" -/
def PhrChunkedDecoder.zeroFilled (consumeTrailer : Bool) : PhrChunkedDecoder :=
  ⟨0, consumeTrailer, 0, .inChunkSize⟩

/-- `decode_hex`; there is no value for -1. -/
def decodeHex (ch : UInt8) : Option Nat :=
  if 48 ≤ ch ∧ ch ≤ 57 then some (ch.toNat - 48)
  else if 65 ≤ ch ∧ ch ≤ 70 then some (ch.toNat - 65 + 10)
  else if 97 ≤ ch ∧ ch ≤ 102 then some (ch.toNat - 97 + 10)
  else none

/-- The variables of `phr_decode_chunked`. -/
structure Decoding where
  decoder : PhrChunkedDecoder
  buf : Bytes
  dst : Nat
  src : Nat

/-- How a part of the function is left: to the next one, or to one of the labels. -/
inductive Control where
  | goOn
  | complete
  | incomplete
  | error

/-- The loop of `CHUNKED_IN_CHUNK_SIZE` over the bytes from `src` on. -/
def sizeLoop : PhrChunkedDecoder → (src : Nat) → Bytes → PhrChunkedDecoder × Nat × Control
  | decoder, src, [] => (decoder, src, .incomplete)
  | decoder, src, byte :: rest =>
      match decodeHex byte with
      | none => if decoder.hexCount = 0 then (decoder, src, .error) else (decoder, src, .goOn)
      | some v =>
          if decoder.hexCount = 16 then (decoder, src, .error)
          else sizeLoop { decoder with
            bytesLeftInChunk := (decoder.bytesLeftInChunk * 16 + v) % 18446744073709551616
            hexCount := decoder.hexCount + 1 } (src + 1) rest

namespace Decoding

/-- The other loops: up to the first byte that passes, and on with `next` there. -/
def skipTo (passes : UInt8 → Bool) (next : Decoding → Decoding × Control) (work : Decoding) :
    Decoding × Control :=
  let src := work.src + (work.buf.drop work.src).findIdx passes
  if src = work.buf.length then ({ work with src := src }, .incomplete)
  else next { work with src := src }

/-- `memmove(buf + dst, buf + src, count)`, unless there is nothing to move. -/
def memmove (count : Nat) (work : Decoding) : Bytes :=
  if work.dst ≠ work.src then
    overwrite work.buf work.dst ((work.buf.drop work.src).take count)
  else work.buf

/-- The three assignments with a `memmove` in the data. -/
def copyData (count : Nat) (work : Decoding) : Decoding :=
  { decoder := { work.decoder with bytesLeftInChunk := work.decoder.bytesLeftInChunk - count }
    buf := work.memmove count
    dst := work.dst + count
    src := work.src + count }

/-- `++src` and the next state. -/
def advance (state : ChunkedState) (work : Decoding) : Decoding :=
  { work with src := work.src + 1, decoder := { work.decoder with state := state } }

def inTrailersLineMiddle (work : Decoding) : Decoding × Control :=
  work.skipTo (· == 10) fun work => (work.advance .inTrailersLineHead, .goOn)

def inTrailersLineHead (work : Decoding) : Decoding × Control :=
  work.skipTo (· != 13) fun work =>
    if work.buf[work.src]? = some 10 then ({ work with src := work.src + 1 }, .complete)
    else (work.advance .inTrailersLineMiddle).inTrailersLineMiddle

def inChunkCrlf (work : Decoding) : Decoding × Control :=
  work.skipTo (· != 13) fun work =>
    if work.buf[work.src]? = some 10 then (work.advance .inChunkSize, .goOn)
    else (work, .error)

def inChunkData (work : Decoding) : Decoding × Control :=
  let avail := work.buf.length - work.src
  if avail < work.decoder.bytesLeftInChunk then (work.copyData avail, .incomplete)
  else
    let work := work.copyData work.decoder.bytesLeftInChunk
    { work with decoder := { work.decoder with state := .inChunkCrlf } }.inChunkCrlf

def inChunkExt (work : Decoding) : Decoding × Control :=
  work.skipTo (· == 10) fun work =>
    if work.decoder.bytesLeftInChunk = 0 then
      if work.decoder.consumeTrailer then (work.advance .inTrailersLineHead, .goOn)
      else ({ work with src := work.src + 1 }, .complete)
    else (work.advance .inChunkData).inChunkData

def inChunkSize (work : Decoding) : Decoding × Control :=
  match sizeLoop work.decoder work.src (work.buf.drop work.src) with
  | (decoder, src, .goOn) =>
      { work with
        src := src
        decoder := { decoder with hexCount := 0, state := .inChunkExt } }.inChunkExt
  | (decoder, src, stopped) => ({ work with src := src, decoder := decoder }, stopped)

/-- The `switch`; a case that falls through calls the next. -/
def switch (work : Decoding) : Decoding × Control :=
  match work.decoder.state with
  | .inChunkSize => work.inChunkSize
  | .inChunkExt => work.inChunkExt
  | .inChunkData => work.inChunkData
  | .inChunkCrlf => work.inChunkCrlf
  | .inTrailersLineHead => work.inTrailersLineHead
  | .inTrailersLineMiddle => work.inTrailersLineMiddle

/-- `while (1)`, with a bound on its turns. -/
def loop : (turns : Nat) → Decoding → Decoding × Control
  | 0, work => (work, .goOn)
  | turns + 1, work =>
      match work.switch with
      | (work, .goOn) => work.loop turns
      | stopped => stopped

end Decoding

/-- What a call leaves behind. -/
structure Decoded where
  ret : Int
  decoder : PhrChunkedDecoder
  buf : Bytes
  bufsz : Nat

/-- `phr_decode_chunked`. Every turn of the loop but the last reads a byte. -/
def phrDecodeChunked (decoder : PhrChunkedDecoder) (buf : Bytes) : Decoded :=
  let stopped := (Decoding.loop (buf.length + 1) ⟨decoder, buf, 0, 0⟩)
  let work := stopped.1
  { ret :=
      match stopped.2 with
      | .complete => (buf.length : Int) - work.src
      | .error => -1
      | _ => -2
    decoder := work.decoder
    buf := work.memmove (buf.length - work.src)
    bufsz := work.dst }

/-! ## The machine -/

namespace PhrChunkedDecoder

/-- A byte behind the size of a chunk. -/
def readExt (decoder : PhrChunkedDecoder) (byte : UInt8) : Move PhrChunkedDecoder UInt8 :=
  if byte = 10 then
    if decoder.bytesLeftInChunk = 0 then
      if decoder.consumeTrailer then .goOn { decoder with state := .inTrailersLineHead } []
      else .done
    else .goOn { decoder with state := .inChunkData } []
  else .goOn { decoder with state := .inChunkExt } []

/-- A chunk of which `count` more bytes have been read. -/
def fed (decoder : PhrChunkedDecoder) (count : Nat) : PhrChunkedDecoder :=
  { decoder with
    bytesLeftInChunk := decoder.bytesLeftInChunk - count
    state := if decoder.bytesLeftInChunk = count then .inChunkCrlf else .inChunkData }

/-- A digit of the size. -/
def digit (decoder : PhrChunkedDecoder) (value : Nat) : PhrChunkedDecoder :=
  { decoder with
    bytesLeftInChunk := decoder.bytesLeftInChunk * 16 + value
    hexCount := decoder.hexCount + 1 }

end PhrChunkedDecoder

/-- The decoding byte by byte. -/
def chunked : Machine PhrChunkedDecoder UInt8 UInt8 := fun decoder byte =>
  match decoder.state with
  | .inChunkSize =>
      match decodeHex byte with
      | some value => if decoder.hexCount = 16 then .fail else .goOn (decoder.digit value) []
      | none =>
          if decoder.hexCount = 0 then .fail
          else { decoder with hexCount := 0 }.readExt byte
  | .inChunkExt => decoder.readExt byte
  | .inChunkData => .goOn (decoder.fed 1) [byte]
  | .inChunkCrlf =>
      if byte = 13 then .goOn decoder []
      else if byte = 10 then .goOn { decoder with state := .inChunkSize } []
      else .fail
  | .inTrailersLineHead =>
      if byte = 13 then .goOn decoder []
      else if byte = 10 then .done
      else .goOn { decoder with state := .inTrailersLineMiddle } []
  | .inTrailersLineMiddle =>
      if byte = 10 then .goOn { decoder with state := .inTrailersLineHead } []
      else .goOn decoder []

/-! ## The buffer -/

/-- The buffer of `size` bytes holds what has been written and what has not been read. -/
structure Decoding.Holds (size : Nat) (work : Decoding) (written unread : Bytes) : Prop where
  size : work.buf.length = size
  inside : work.src ≤ work.buf.length
  behind : work.dst ≤ work.src
  written : work.buf.take work.dst = written
  unread : work.buf.drop work.src = unread

namespace Decoding.Holds

variable {size : Nat} {work : Decoding} {written unread : Bytes}

theorem length_unread (holds : work.Holds size written unread) :
    unread.length = work.buf.length - work.src := by
  rw [← holds.unread, List.length_drop]

/-- Bytes are read. -/
theorem read {text rest : Bytes} (holds : work.Holds size written unread)
    (cut : unread = text ++ rest) (decoder : PhrChunkedDecoder) :
    Decoding.Holds size { work with src := work.src + text.length, decoder := decoder }
      written rest where
  size := holds.size
  inside := by
    have length := holds.length_unread
    have inside := holds.inside
    rw [cut, List.length_append] at length
    dsimp only
    omega
  behind := by
    have behind := holds.behind
    dsimp only
    omega
  written := holds.written
  unread := by
    rw [← List.drop_drop, holds.unread, cut, List.drop_left]

/-- What `memmove` leaves: the front, the bytes it moved, and the bytes behind those. -/
theorem memmove {text rest : Bytes} (holds : work.Holds size written unread)
    (cut : unread = text ++ rest) :
    (work.memmove text.length).length = size ∧
      (work.memmove text.length).take (work.dst + text.length) = written ++ text ∧
      (work.memmove text.length).drop (work.src + text.length) = rest := by
  have length := holds.length_unread
  have inside := holds.inside
  have behind := holds.behind
  rw [cut, List.length_append] at length
  have moved : (work.buf.drop work.src).take text.length = text := by
    rw [holds.unread, cut, List.take_left]
  have front : (work.buf.take work.dst).length = work.dst := by
    rw [List.length_take]
    omega
  unfold Decoding.memmove
  rw [moved]
  by_cases apart : work.dst ≠ work.src
  · rw [if_pos apart]
    refine ⟨(length_overwrite (by omega)).trans holds.size, ?_, ?_⟩
    · rw [overwrite, holds.written, List.take_left']
      rw [List.length_append, ← holds.written, front]
    · rw [overwrite, holds.written]
      have width : (written ++ text).length = work.dst + text.length := by
        rw [List.length_append, ← holds.written, front]
      rw [List.drop_append, List.drop_eq_nil_of_le (by omega), List.nil_append, List.drop_drop,
        width]
      rw [show work.dst + text.length + (work.src + text.length - (work.dst + text.length)) =
        work.src + text.length by omega, ← List.drop_drop, holds.unread, cut, List.drop_left]
  · rw [if_neg apart]
    have same : work.dst = work.src := not_not.mp apart
    refine ⟨holds.size, ?_, ?_⟩
    · rw [List.take_add, holds.written, same, moved]
    · rw [← List.drop_drop, holds.unread, cut, List.drop_left]

/-- Bytes are copied to the data. -/
theorem copyData {text rest : Bytes} (holds : work.Holds size written unread)
    (cut : unread = text ++ rest) :
    (work.copyData text.length).Holds size (written ++ text) rest := by
  have length := holds.length_unread
  have inside := holds.inside
  have behind := holds.behind
  rw [cut, List.length_append] at length
  obtain ⟨kept, front, back⟩ := holds.memmove cut
  refine ⟨kept, ?_, ?_, front, back⟩
  · change work.src + text.length ≤ (work.memmove text.length).length
    have whole := holds.size
    omega
  · change work.dst + text.length ≤ work.src + text.length
    omega

end Decoding.Holds

/-! ## The decoder -/

/-- The decoders that a zero-filled one can become. -/
structure PhrChunkedDecoder.Sound (decoder : PhrChunkedDecoder) : Prop where
  size : decoder.state = .inChunkSize →
    decoder.hexCount ≤ 16 ∧ decoder.bytesLeftInChunk < 16 ^ decoder.hexCount
  count : decoder.state ≠ .inChunkSize → decoder.hexCount = 0
  data : decoder.state = .inChunkData → 0 < decoder.bytesLeftInChunk
  drained : decoder.state = .inChunkCrlf ∨ decoder.state = .inTrailersLineHead ∨
    decoder.state = .inTrailersLineMiddle → decoder.bytesLeftInChunk = 0

theorem PhrChunkedDecoder.sound_zeroFilled (consumeTrailer : Bool) :
    (zeroFilled consumeTrailer).Sound :=
  ⟨by simp [zeroFilled], by simp [zeroFilled], by simp [zeroFilled], by simp [zeroFilled]⟩

theorem decodeHex_lt {ch : UInt8} {value : Nat} (decodes : decodeHex ch = some value) :
    value < 16 := by
  unfold decodeHex at decodes
  simp only [UInt8.le_iff_toNat_le] at decodes
  split at decodes
  next range =>
    have upper : ch.toNat ≤ 57 := range.2
    rw [← Option.some.inj decodes]
    omega
  next =>
    split at decodes
    next range =>
      have upper : ch.toNat ≤ 70 := range.2
      rw [← Option.some.inj decodes]
      omega
    next =>
      split at decodes
      next range =>
        have upper : ch.toNat ≤ 102 := range.2
        rw [← Option.some.inj decodes]
        omega
      next => cases decodes

namespace PhrChunkedDecoder

variable {decoder after : PhrChunkedDecoder} {byte : UInt8} {output : Bytes}

/-- A digit keeps the number below the power of its digits. -/
theorem Sound.digit (sound : decoder.Sound) (reading : decoder.state = .inChunkSize)
    {value : Nat} (small : value < 16) (room : decoder.hexCount ≠ 16) :
    (decoder.digit value).Sound := by
  obtain ⟨most, below⟩ := sound.size reading
  refine ⟨fun _ => ⟨?_, ?_⟩, fun other => absurd reading other, ?_, ?_⟩
  · change decoder.hexCount + 1 ≤ 16
    omega
  · change decoder.bytesLeftInChunk * 16 + value < 16 ^ (decoder.hexCount + 1)
    rw [Nat.pow_succ]
    omega
  · intro other
    rw [show (decoder.digit value).state = decoder.state from rfl, reading] at other
    cases other
  · intro other
    rw [show (decoder.digit value).state = decoder.state from rfl, reading] at other
    simp at other

/-- The assignment in the size loop does not overflow. -/
theorem Sound.digit_fits (sound : decoder.Sound) (reading : decoder.state = .inChunkSize)
    {value : Nat} (small : value < 16) (room : decoder.hexCount ≠ 16) :
    decoder.bytesLeftInChunk * 16 + value < 18446744073709551616 := by
  obtain ⟨most, below⟩ := (sound.digit reading small room).size reading
  calc decoder.bytesLeftInChunk * 16 + value < 16 ^ (decoder.hexCount + 1) := below
    _ ≤ 16 ^ 16 := Nat.pow_le_pow_right (by decide) most
    _ = 18446744073709551616 := by decide

theorem sound_readExt (clear : decoder.hexCount = 0)
    (moves : decoder.readExt byte = .goOn after output) : after.Sound := by
  unfold readExt at moves
  split at moves
  next =>
    split at moves
    next empty =>
      split at moves
      next =>
        cases moves
        exact ⟨by simp, fun _ => clear, by simp, fun _ => empty⟩
      next => cases moves
    next filled =>
      cases moves
      exact ⟨by simp, fun _ => clear, fun _ => Nat.pos_of_ne_zero filled, by simp⟩
  next =>
    cases moves
    exact ⟨by simp, fun _ => clear, by simp, by simp⟩

theorem Sound.fed (sound : decoder.Sound) (feeding : decoder.state = .inChunkData) {count : Nat}
    (atMost : count ≤ decoder.bytesLeftInChunk) : (decoder.fed count).Sound := by
  have clear := sound.count (by simp [feeding])
  unfold PhrChunkedDecoder.fed
  by_cases last : decoder.bytesLeftInChunk = count
  · simp only [last, if_true, Nat.sub_self]
    exact ⟨by simp, fun _ => clear, by simp, fun _ => rfl⟩
  · simp only [last, if_false]
    exact ⟨by simp, fun _ => clear, fun _ => Nat.sub_pos_of_lt (by omega), by simp⟩

end PhrChunkedDecoder

/-- Every byte leaves a sound decoder. -/
theorem sound_chunked {decoder after : PhrChunkedDecoder} {byte : UInt8} {output : Bytes}
    (sound : decoder.Sound) (moves : chunked decoder byte = .goOn after output) :
    after.Sound := by
  unfold chunked at moves
  split at moves
  next reading =>
    split at moves
    next decodes =>
      split at moves
      next => cases moves
      next room =>
        cases moves
        exact sound.digit reading (decodeHex_lt decodes) room
    next =>
      split at moves
      next => cases moves
      next => exact PhrChunkedDecoder.sound_readExt rfl moves
  next reading => exact PhrChunkedDecoder.sound_readExt (sound.count (by simp [reading])) moves
  next feeding =>
    cases moves
    exact sound.fed feeding (sound.data feeding)
  next ending =>
    split at moves
    next =>
      cases moves
      exact sound
    next =>
      split at moves
      next =>
        cases moves
        have clear := sound.count (by simp [ending])
        have drained := sound.drained (.inl ending)
        exact ⟨fun _ => by simp [clear, drained], by simp, by simp, by simp⟩
      next => cases moves
  next head =>
    split at moves
    next =>
      cases moves
      exact sound
    next =>
      split at moves
      next => cases moves
      next =>
        cases moves
        exact ⟨by simp, fun _ => sound.count (by simp [head]), by simp,
          fun _ => sound.drained (.inr (.inl head))⟩
  next middle =>
    split at moves
    next =>
      cases moves
      exact ⟨by simp, fun _ => sound.count (by simp [middle]), by simp,
        fun _ => sound.drained (.inr (.inr middle))⟩
    next =>
      cases moves
      exact sound

/-! ## The decoder is the machine -/

/-- What a part of the function has to do when `written` is in the buffer and `unread` is
in front of it. -/
inductive Meets (size : Nat) (decoder : PhrChunkedDecoder) (written unread : Bytes) :
    Decoding × Control → Prop where
  | goOn {after : Decoding} {output rest : Bytes}
      (holds : after.Holds size (written ++ output) rest) (sound : after.decoder.Sound)
      (shorter : rest.length < unread.length)
      (runs : chunked.run decoder unread = (chunked.run after.decoder rest).behind output) :
      Meets size decoder written unread (after, .goOn)
  | complete {after : Decoding} {output rest : Bytes}
      (holds : after.Holds size (written ++ output) rest)
      (runs : chunked.run decoder unread = .done output rest) :
      Meets size decoder written unread (after, .complete)
  | incomplete {after : Decoding} {output : Bytes}
      (holds : after.Holds size (written ++ output) [])
      (runs : chunked.run decoder unread = .more after.decoder output) :
      Meets size decoder written unread (after, .incomplete)
  | error {after : Decoding} {output rest : Bytes}
      (holds : after.Holds size (written ++ output) rest)
      (runs : chunked.run decoder unread = .fail output) :
      Meets size decoder written unread (after, .error)

/-- A part that falls through into the next one. -/
theorem Meets.fallsThrough {size : Nat} {decoder middle : PhrChunkedDecoder}
    {written output unread rest : Bytes} {result : Decoding × Control}
    (runs : chunked.run decoder unread = (chunked.run middle rest).behind output)
    (notLonger : rest.length ≤ unread.length)
    (meets : Meets size middle (written ++ output) rest result) :
    Meets size decoder written unread result := by
  cases meets with
  | goOn holds sound shorter later =>
      rw [List.append_assoc] at holds
      refine .goOn holds sound (by omega) ?_
      rw [runs, later, Verdict.behind_behind]
  | complete holds later =>
      rw [List.append_assoc] at holds
      exact .complete holds (by rw [runs, later]; rfl)
  | incomplete holds later =>
      rw [List.append_assoc] at holds
      exact .incomplete holds (by rw [runs, later]; rfl)
  | error holds later =>
      rw [List.append_assoc] at holds
      exact .error holds (by rw [runs, later]; rfl)

section Cases

variable {size : Nat} {work : Decoding} {written unread : Bytes}

/-- A byte is read that only changes the state of the decoder. -/
theorem Decoding.Holds.advance {byte : UInt8} {rest : Bytes} (state : ChunkedState)
    (holds : work.Holds size written (byte :: rest)) :
    (work.advance state).Holds size written rest :=
  holds.read (show byte :: rest = [byte] ++ rest from rfl) _

/-- A loop up to a byte, whose bytes the machine skips. -/
theorem skipTo_meets {passes : UInt8 → Bool} {next : Decoding → Decoding × Control}
    (holds : work.Holds size written unread)
    (idle : ∀ other, passes other = false →
      chunked work.decoder other = .goOn work.decoder [])
    (found : ∀ (reached : Decoding) (byte : UInt8) (rest : Bytes), passes byte = true →
      reached.decoder = work.decoder → reached.buf[reached.src]? = some byte →
      reached.Holds size written (byte :: rest) →
      Meets size work.decoder written (byte :: rest) (next reached)) :
    Meets size work.decoder written unread (work.skipTo passes next) := by
  have length := holds.length_unread
  have inside := holds.inside
  unfold Decoding.skipTo
  rw [holds.unread]
  rcases findIdx_cases passes unread with ⟨skipped, byte, rest, cut, before, stops, place⟩ |
    ⟨never, place⟩
  · have reached := holds.read cut work.decoder
    have runs : chunked.run work.decoder unread = chunked.run work.decoder (byte :: rest) := by
      rw [cut]
      exact Machine.run_idle (fun other member => idle other (before other member)) _
    have after : Meets size work.decoder written (byte :: rest)
        (next { work with src := work.src + skipped.length }) := by
      refine found _ byte rest stops rfl ?_ reached
      rw [← List.head?_drop, reached.unread]
      rfl
    rw [← List.append_nil written] at after
    rw [cut, List.length_append, List.length_cons] at length
    rw [place]
    dsimp only
    rw [if_neg (by omega)]
    refine after.fallsThrough (by rw [runs, Verdict.behind_nil]) ?_
    rw [cut, List.length_append]
    omega
  · have reached := holds.read (List.append_nil unread).symm work.decoder
    rw [← List.append_nil written] at reached
    rw [place]
    dsimp only
    rw [if_pos (by omega)]
    refine .incomplete reached ?_
    rw [← List.append_nil unread,
      Machine.run_idle fun other member => idle other (never other member)]
    rfl

theorem inTrailersLineMiddle_meets (holds : work.Holds size written unread)
    (sound : work.decoder.Sound) (here : work.decoder.state = .inTrailersLineMiddle) :
    Meets size work.decoder written unread work.inTrailersLineMiddle := by
  have drained := sound.drained (.inr (.inr here))
  have clear := sound.count (by simp [here])
  refine skipTo_meets holds ?_ ?_
  · intro other different
    simp [chunked, here, beq_eq_false_iff_ne.mp different]
  · intro reached byte rest lineFeed same _ reads
    have moves : chunked work.decoder byte =
        .goOn { work.decoder with state := .inTrailersLineHead } [] := by
      simp [chunked, here, beq_iff_eq.mp lineFeed]
    rw [← same] at moves ⊢
    have passed := reads.advance .inTrailersLineHead
    rw [← List.append_nil written] at passed
    refine .goOn passed ?_ (by simp) (Machine.run_goOn moves rest)
    rw [Decoding.advance, same]
    exact ⟨by simp, fun _ => clear, by simp, fun _ => drained⟩

theorem inTrailersLineHead_meets (holds : work.Holds size written unread)
    (sound : work.decoder.Sound) (here : work.decoder.state = .inTrailersLineHead) :
    Meets size work.decoder written unread work.inTrailersLineHead := by
  have drained := sound.drained (.inr (.inl here))
  have clear := sound.count (by simp [here])
  refine skipTo_meets holds ?_ ?_
  · intro other carriageReturn
    simp [chunked, here, bne_eq_false_iff_eq.mp carriageReturn]
  · intro reached byte rest notReturn same at_ reads
    rw [at_]
    by_cases lineFeed : byte = 10
    · rw [if_pos (by rw [lineFeed])]
      have moves : chunked work.decoder byte = .done := by simp [chunked, here, lineFeed]
      have passed := reads.read (show byte :: rest = [byte] ++ rest from rfl) reached.decoder
      rw [← List.append_nil written] at passed
      exact .complete passed (Machine.run_done moves rest)
    · rw [if_neg (by simpa using lineFeed)]
      have moves : chunked work.decoder byte =
          .goOn { work.decoder with state := .inTrailersLineMiddle } [] := by
        simp [chunked, here, lineFeed, bne_iff_ne.mp notReturn]
      have advanced : (reached.advance .inTrailersLineMiddle).decoder =
          { work.decoder with state := .inTrailersLineMiddle } := by
        rw [Decoding.advance, same]
      have later := inTrailersLineMiddle_meets (reads.advance .inTrailersLineMiddle)
        (by rw [advanced]; exact ⟨by simp, fun _ => clear, by simp, fun _ => drained⟩)
        (by rw [advanced])
      rw [advanced, ← List.append_nil written] at later
      exact later.fallsThrough (Machine.run_goOn moves rest) (by simp)

theorem inChunkCrlf_meets (holds : work.Holds size written unread)
    (sound : work.decoder.Sound) (here : work.decoder.state = .inChunkCrlf) :
    Meets size work.decoder written unread work.inChunkCrlf := by
  have drained := sound.drained (.inl here)
  have clear := sound.count (by simp [here])
  refine skipTo_meets holds ?_ ?_
  · intro other carriageReturn
    simp [chunked, here, bne_eq_false_iff_eq.mp carriageReturn]
  · intro reached byte rest notReturn same at_ reads
    rw [at_]
    by_cases lineFeed : byte = 10
    · rw [if_pos (by rw [lineFeed])]
      have moves : chunked work.decoder byte =
          .goOn { work.decoder with state := .inChunkSize } [] := by
        simp [chunked, here, lineFeed]
      rw [← same] at moves ⊢
      have passed := reads.advance .inChunkSize
      rw [← List.append_nil written] at passed
      refine .goOn passed ?_ (by simp) (Machine.run_goOn moves rest)
      rw [Decoding.advance, same]
      exact ⟨fun _ => by simp [clear, drained], by simp, by simp, by simp⟩
    · rw [if_neg (by simpa using lineFeed)]
      have moves : chunked work.decoder byte = .fail := by
        simp [chunked, here, lineFeed, bne_iff_ne.mp notReturn]
      rw [← List.append_nil written] at reads
      exact .error reads (Machine.run_fail moves rest)

/-- Data is written as it is read. By induction on the data. -/
theorem run_data {decoder : PhrChunkedDecoder} {data : Bytes}
    (feeding : decoder.state = .inChunkData) (some_ : 0 < decoder.bytesLeftInChunk)
    (atMost : data.length ≤ decoder.bytesLeftInChunk) (rest : Bytes) :
    chunked.run decoder (data ++ rest) =
      (chunked.run (decoder.fed data.length) rest).behind data := by
  induction data generalizing decoder with
  | nil =>
      have same : decoder.fed 0 = decoder := by
        obtain ⟨left, trailer, count, state⟩ := decoder
        cases feeding
        simp [PhrChunkedDecoder.fed, Nat.pos_iff_ne_zero.mp some_]
      rw [List.nil_append, List.length_nil, same, Verdict.behind_nil]
  | cons byte data inductionHypothesis =>
      have moves : chunked decoder byte = .goOn (decoder.fed 1) [byte] := by
        simp [chunked, feeding]
      rw [List.cons_append, Machine.run_goOn moves]
      rw [List.length_cons] at atMost ⊢
      by_cases last : decoder.bytesLeftInChunk = 1
      · have nothing : data = [] := List.eq_nil_of_length_eq_zero (by omega)
        rw [nothing]
        rfl
      · have onward : (decoder.fed 1).state = .inChunkData := by
          simp [PhrChunkedDecoder.fed, last]
        have left : (decoder.fed 1).bytesLeftInChunk = decoder.bytesLeftInChunk - 1 := rfl
        have again : (decoder.fed 1).fed data.length = decoder.fed (data.length + 1) := by
          simp only [PhrChunkedDecoder.fed, Nat.sub_sub, Nat.add_comm 1, PhrChunkedDecoder.mk.injEq,
            true_and]
          congr 1
          apply propext
          omega
        rw [inductionHypothesis onward (by omega) (by omega), again, Verdict.behind_behind]
        rfl

theorem inChunkData_meets (holds : work.Holds size written unread)
    (sound : work.decoder.Sound) (here : work.decoder.state = .inChunkData) :
    Meets size work.decoder written unread work.inChunkData := by
  have some_ := sound.data here
  have length := holds.length_unread
  unfold Decoding.inChunkData
  dsimp only
  rw [← length]
  by_cases short : unread.length < work.decoder.bytesLeftInChunk
  · rw [if_pos short]
    refine .incomplete (holds.copyData (List.append_nil unread).symm) ?_
    have runs := run_data here some_ (Nat.le_of_lt short) []
    rw [List.append_nil] at runs
    have fed : work.decoder.fed unread.length = (work.copyData unread.length).decoder := by
      simp [PhrChunkedDecoder.fed, Decoding.copyData, here, Nat.ne_of_gt short]
    rw [runs, fed]
    simp [Verdict.behind]
  · rw [if_neg short]
    obtain ⟨data, rest, rfl, exactly⟩ : ∃ data rest, unread = data ++ rest ∧
        data.length = work.decoder.bytesLeftInChunk :=
      ⟨_, _, (List.take_append_drop work.decoder.bytesLeftInChunk unread).symm,
        List.length_take_of_le (by omega)⟩
    have copied := holds.copyData rfl
    have fed : { (work.copyData data.length).decoder with state := .inChunkCrlf } =
        work.decoder.fed data.length := by
      simp [PhrChunkedDecoder.fed, Decoding.copyData, exactly]
    have held : Decoding.Holds size { work.copyData data.length with
        decoder := { (work.copyData data.length).decoder with state := .inChunkCrlf } }
        (written ++ data) rest :=
      ⟨copied.size, copied.inside, copied.behind, copied.written, copied.unread⟩
    have later := inChunkCrlf_meets held (by rw [fed]; exact sound.fed here (by omega)) rfl
    rw [← exactly]
    refine Meets.fallsThrough (run_data here some_ (by omega) rest) (by simp) ?_
    rw [← fed]
    exact later

theorem inChunkExt_meets (holds : work.Holds size written unread)
    (sound : work.decoder.Sound) (here : work.decoder.state = .inChunkExt) :
    Meets size work.decoder written unread work.inChunkExt := by
  have clear := sound.count (by simp [here])
  refine skipTo_meets holds ?_ ?_
  · intro other different
    have kept : { work.decoder with state := .inChunkExt } = work.decoder := by rw [← here]
    simp [chunked, here, PhrChunkedDecoder.readExt, beq_eq_false_iff_ne.mp different, kept]
  · intro reached byte rest lineFeed same _ reads
    have isEnd := beq_iff_eq.mp lineFeed
    by_cases last : work.decoder.bytesLeftInChunk = 0
    · rw [same, if_pos last]
      by_cases trailer : work.decoder.consumeTrailer = true
      · rw [if_pos trailer]
        have moves : chunked work.decoder byte =
            .goOn { work.decoder with state := .inTrailersLineHead } [] := by
          simp [chunked, here, PhrChunkedDecoder.readExt, isEnd, last, trailer]
        have passed := reads.advance .inTrailersLineHead
        rw [← List.append_nil written] at passed
        rw [← same] at moves ⊢
        refine .goOn passed ?_ (by simp) (Machine.run_goOn moves rest)
        rw [Decoding.advance, same]
        exact ⟨by simp, fun _ => clear, by simp, fun _ => last⟩
      · rw [if_neg trailer]
        have moves : chunked work.decoder byte = .done := by
          simp [chunked, here, PhrChunkedDecoder.readExt, isEnd, last, trailer]
        have passed := reads.read (show byte :: rest = [byte] ++ rest from rfl) work.decoder
        rw [← List.append_nil written] at passed
        exact .complete passed (Machine.run_done moves rest)
    · rw [same, if_neg last]
      have moves : chunked work.decoder byte =
          .goOn { work.decoder with state := .inChunkData } [] := by
        simp [chunked, here, PhrChunkedDecoder.readExt, isEnd, last]
      have advanced : (reached.advance .inChunkData).decoder =
          { work.decoder with state := .inChunkData } := by
        rw [Decoding.advance, same]
      have later := inChunkData_meets (reads.advance .inChunkData)
        (by
          rw [advanced]
          exact ⟨by simp, fun _ => clear, fun _ => Nat.pos_of_ne_zero last, by simp⟩)
        (by rw [advanced])
      rw [advanced, ← List.append_nil written] at later
      exact later.fallsThrough (Machine.run_goOn moves rest) (by simp)

/-- What the loop over the digits of a size does from `src` on. -/
private inductive SizeRead (decoder : PhrChunkedDecoder) (src : Nat) (text : Bytes) :
    PhrChunkedDecoder × Nat × Control → Prop where
  | goOn {after : PhrChunkedDecoder} {stop : Nat} {digits rest : Bytes} {byte : UInt8}
      (cut : text = digits ++ byte :: rest) (place : stop = src + digits.length)
      (reading : after.state = .inChunkSize) (some_ : after.hexCount ≠ 0)
      (other : decodeHex byte = none)
      (runs : chunked.run decoder text = chunked.run after (byte :: rest)) :
      SizeRead decoder src text (after, stop, .goOn)
  | incomplete {after : PhrChunkedDecoder} {stop : Nat} (place : stop = src + text.length)
      (runs : chunked.run decoder text = .more after []) :
      SizeRead decoder src text (after, stop, .incomplete)
  | error {after : PhrChunkedDecoder} {stop : Nat} {digits rest : Bytes}
      (cut : text = digits ++ rest) (place : stop = src + digits.length)
      (runs : chunked.run decoder text = .fail []) :
      SizeRead decoder src text (after, stop, .error)

private theorem sizeLoop_reads {decoder : PhrChunkedDecoder} {src : Nat} {text : Bytes}
    (sound : decoder.Sound) (reading : decoder.state = .inChunkSize) :
    SizeRead decoder src text (sizeLoop decoder src text) := by
  -- The number of digits bounds the number read, so it never reaches `2 ^ 64`.
  induction text generalizing decoder src with
  | nil => exact .incomplete rfl rfl
  | cons byte rest inductionHypothesis =>
      unfold sizeLoop
      cases decodes : decodeHex byte with
      | none =>
          dsimp only
          by_cases nothing : decoder.hexCount = 0
          · rw [if_pos nothing]
            have moves : chunked decoder byte = .fail := by
              simp [chunked, reading, decodes, nothing]
            exact .error (List.nil_append _).symm rfl (Machine.run_fail moves rest)
          · rw [if_neg nothing]
            exact .goOn (List.nil_append _).symm rfl reading nothing decodes rfl
      | some value =>
          dsimp only
          have small := decodeHex_lt decodes
          by_cases full : decoder.hexCount = 16
          · rw [if_pos full]
            have moves : chunked decoder byte = .fail := by
              simp [chunked, reading, decodes, full]
            exact .error (List.nil_append _).symm rfl (Machine.run_fail moves rest)
          · rw [if_neg full, Nat.mod_eq_of_lt (sound.digit_fits reading small full)]
            have moves : chunked decoder byte = .goOn (decoder.digit value) [] := by
              simp [chunked, reading, decodes, full]
            have step := Machine.run_goOn moves rest
            rw [Verdict.behind_nil] at step
            have later := @inductionHypothesis (decoder.digit value) (src + 1)
              (sound.digit reading small full) reading
            change SizeRead decoder src (byte :: rest)
              (sizeLoop (decoder.digit value) (src + 1) rest)
            generalize sizeLoop (decoder.digit value) (src + 1) rest = result at later ⊢
            cases later with
            | @goOn after stop digits behind other cut place still some_ notDigit runs =>
                have longer : byte :: rest = (byte :: digits) ++ other :: behind := by
                  rw [cut, List.cons_append]
                refine .goOn longer ?_ still some_ notDigit (step.trans runs)
                rw [place, List.length_cons]
                omega
            | incomplete place runs =>
                refine .incomplete ?_ (step.trans runs)
                rw [place, List.length_cons]
                omega
            | @error after stop digits behind cut place runs =>
                have longer : byte :: rest = (byte :: digits) ++ behind := by
                  rw [cut, List.cons_append]
                refine .error longer ?_ (step.trans runs)
                rw [place, List.length_cons]
                omega

theorem inChunkSize_meets (holds : work.Holds size written unread)
    (sound : work.decoder.Sound) (here : work.decoder.state = .inChunkSize) :
    Meets size work.decoder written unread work.inChunkSize := by
  have loop := @sizeLoop_reads work.decoder work.src unread sound here
  unfold Decoding.inChunkSize
  rw [holds.unread]
  generalize sizeLoop work.decoder work.src unread = result at loop ⊢
  cases loop with
  | @goOn after stop digits rest byte cut place reading some_ other runs =>
      dsimp only
      have reached := holds.read cut { after with hexCount := 0, state := .inChunkExt }
      have later := inChunkExt_meets reached ⟨by simp, fun _ => rfl, by simp, by simp⟩ rfl
      have moves : chunked after byte =
          chunked { after with hexCount := 0, state := .inChunkExt } byte := by
        simp [chunked, reading, other, some_, PhrChunkedDecoder.readExt]
      rw [← place, ← List.append_nil written] at later
      refine later.fallsThrough ?_ (by rw [cut]; simp)
      rw [runs, Machine.run, moves, ← Machine.run, Verdict.behind_nil]
  | @incomplete after stop place runs =>
      have reached := holds.read (List.append_nil unread).symm after
      rw [← place, ← List.append_nil written] at reached
      exact .incomplete reached runs
  | @error after stop digits rest cut place runs =>
      have reached := holds.read cut after
      rw [← place, ← List.append_nil written] at reached
      exact .error reached runs

/-- One turn of the loop. -/
theorem switch_meets (holds : work.Holds size written unread) (sound : work.decoder.Sound) :
    Meets size work.decoder written unread work.switch := by
  unfold Decoding.switch
  split
  next here => exact inChunkSize_meets holds sound here
  next here => exact inChunkExt_meets holds sound here
  next here => exact inChunkData_meets holds sound here
  next here => exact inChunkCrlf_meets holds sound here
  next here => exact inTrailersLineHead_meets holds sound here
  next here => exact inTrailersLineMiddle_meets holds sound here

/-- The whole loop, which does not run out of turns. By induction on the turns. -/
theorem loop_meets {turns : Nat} (enough : unread.length < turns)
    (holds : work.Holds size written unread) (sound : work.decoder.Sound) :
    Meets size work.decoder written unread (work.loop turns) ∧ (work.loop turns).2 ≠ .goOn := by
  induction turns generalizing work written unread with
  | zero => omega
  | succ turns inductionHypothesis =>
      have meets := switch_meets holds sound
      unfold Decoding.loop
      generalize work.switch = result at meets ⊢
      cases meets with
      | goOn held still shorter runs =>
          obtain ⟨later, stopped⟩ := inductionHypothesis (by omega) held still
          exact ⟨later.fallsThrough runs (Nat.le_of_lt shorter), stopped⟩
      | complete held runs => exact ⟨.complete held runs, by simp⟩
      | incomplete held runs => exact ⟨.incomplete held runs, by simp⟩
      | error held runs => exact ⟨.error held runs, by simp⟩

/-- The last `memmove` leaves the data in front and puts the unread bytes behind it. -/
theorem Decoding.Holds.final (holds : work.Holds size written unread) :
    (work.memmove (size - work.src)).take work.dst = written ∧
      ((work.memmove (size - work.src)).drop work.dst).take unread.length = unread := by
  have length := holds.length_unread
  have inside := holds.inside
  have behind := holds.behind
  have width : written.length = work.dst := by
    rw [← holds.written, List.length_take]
    omega
  rw [← holds.size, ← length]
  obtain ⟨_, front, _⟩ := holds.memmove (List.append_nil unread).symm
  constructor
  · have shorter := congrArg (List.take work.dst) front
    rwa [List.take_take, Nat.min_eq_left (by omega), List.take_left' width] at shorter
  · have later := congrArg (List.drop work.dst) front
    rwa [List.drop_take, Nat.add_sub_cancel_left, List.drop_left' width] at later

end Cases

/-- What the caller learns from a call: the data in front, and the bytes that are left
undecoded behind it. -/
def Decoded.verdict (call : Decoded) : Verdict PhrChunkedDecoder UInt8 UInt8 :=
  if call.ret = -2 then .more call.decoder (call.buf.take call.bufsz)
  else if call.ret = -1 then .fail (call.buf.take call.bufsz)
  else .done (call.buf.take call.bufsz) ((call.buf.drop call.bufsz).take call.ret.toNat)

/-- A call does what the machine does with the buffer. -/
theorem phrDecodeChunked_runs {decoder : PhrChunkedDecoder} (sound : decoder.Sound)
    (buf : Bytes) : (phrDecodeChunked decoder buf).verdict = chunked.run decoder buf := by
  have start : Decoding.Holds buf.length ⟨decoder, buf, 0, 0⟩ [] buf :=
    ⟨rfl, Nat.zero_le _, Nat.le_refl _, rfl, rfl⟩
  obtain ⟨meets, stopped⟩ := loop_meets (Nat.lt_succ_self buf.length) start sound
  unfold phrDecodeChunked Decoded.verdict
  dsimp only at meets ⊢
  generalize Decoding.loop (buf.length + 1) ⟨decoder, buf, 0, 0⟩ = result at meets stopped ⊢
  cases meets with
  | goOn => exact absurd rfl stopped
  | @complete after output rest holds runs =>
      obtain ⟨data, left⟩ := holds.final
      have length := holds.length_unread
      have inside := holds.inside
      have whole := holds.size
      have count : (buf.length : Int) - after.src = (rest.length : Int) := by omega
      have notMore : ¬ (buf.length : Int) - after.src = -2 := by omega
      have notFail : ¬ (buf.length : Int) - after.src = -1 := by omega
      dsimp only
      rw [runs, if_neg notMore, if_neg notFail, count, Int.toNat_natCast, data, left,
        List.nil_append]
  | incomplete holds runs =>
      dsimp only
      rw [runs, if_pos rfl, holds.final.1]
      rfl
  | error holds runs =>
      dsimp only
      rw [runs, if_neg (by decide), if_pos rfl, holds.final.1]
      rfl

/-- A decoder that is called with every piece of a body that arrives. -/
def decodePieces (consumeTrailer : Bool) (pieces : List Bytes) :
    Verdict PhrChunkedDecoder UInt8 UInt8 :=
  Machine.session (fun decoder piece => (phrDecodeChunked decoder piece).verdict)
    (.zeroFilled consumeTrailer) pieces

theorem decodePieces_runs (consumeTrailer : Bool) (pieces : List Bytes) :
    decodePieces consumeTrailer pieces =
      chunked.run (.zeroFilled consumeTrailer) pieces.flatten := by
  apply Machine.session_eq_run PhrChunkedDecoder.Sound
  · intro decoder piece sound
    exact phrDecodeChunked_runs sound piece
  · intro decoder byte next output sound moves
    exact sound_chunked sound moves
  · exact PhrChunkedDecoder.sound_zeroFilled consumeTrailer

/-- **Chunked bodies may come in pieces.** However a stream is cut into the buffers of
successive calls, the calls decode in place what one call on the whole stream decodes: the
same data, the same undecoded bytes at the end, the same error, or the same decoder that
waits for more. -/
theorem chunked_body_in_pieces (consumeTrailer : Bool) (pieces : List Bytes) :
    decodePieces consumeTrailer pieces =
      (phrDecodeChunked (.zeroFilled consumeTrailer) pieces.flatten).verdict := by
  rw [decodePieces_runs,
    phrDecodeChunked_runs (PhrChunkedDecoder.sound_zeroFilled consumeTrailer)]

end Onyxup.Http
