import Mathlib.Data.List.TakeWhile
import Onyxup.Lib.Memory

/-!
Contract: byte strings and the C and C++ library functions on them.

Owns: `c_str` truncation, character search, substring search, `tolower`,
`strtol`/`atoi` and decimal output, each under the library's own name and with
its documented behaviour.

Does not own: locales. Every classification is that of the "C" locale, which
is the one a program starts in.
-/

set_option autoImplicit false

namespace Onyxup.Lib.CString

open Onyxup.Lib.Memory

/-- A byte string; the contents of a `std::string`. -/
abbrev Bytes := List UInt8

/-- The bytes of a literal. -/
def ascii (literal : String) : Bytes :=
  literal.toUTF8.data.toList

/-- What a C function sees of a string: everything before the first NUL. -/
def cString (text : Bytes) : Bytes :=
  text.takeWhile (· != 0)

theorem cString_of_nulFree {text : Bytes} (nulFree : 0 ∉ text) :
    cString text = text := by
  rw [cString, List.takeWhile_eq_self_iff]
  intro byte member
  have nonzero : byte ≠ 0 := by
    rintro rfl
    exact nulFree member
  simpa using nonzero

/-- Nothing behind a NUL is seen. -/
theorem cString_append_of_mem {front : Bytes} (nul : 0 ∈ front) (back : Bytes) :
    cString (front ++ back) = cString front := by
  have stops : (front.takeWhile (· != 0)).length ≠ front.length := by
    intro whole
    have passes := List.takeWhile_eq_self_iff.mp
      (List.IsPrefix.eq_of_length (List.takeWhile_prefix _) whole)
    simpa using passes 0 nul
  rw [cString, cString, List.takeWhile_append, if_neg stops]

theorem cString_append_of_nulFree {front : Bytes} (nulFree : 0 ∉ front) (back : Bytes) :
    cString (front ++ back) = front ++ cString back := by
  apply List.takeWhile_append_of_pos
  intro byte member
  have nonzero : byte ≠ 0 := by
    rintro rfl
    exact nulFree member
  simpa using nonzero

/-- `strchr`: the position of the first `wanted` before the NUL. -/
def strchr (text : Bytes) (wanted : UInt8) : Option Nat :=
  (cString text).findIdx? (· == wanted)

theorem strchr_eq_none_iff {text : Bytes} {wanted : UInt8} :
    strchr text wanted = none ↔ wanted ∉ cString text := by
  rw [strchr, List.findIdx?_eq_none_iff]
  constructor
  · intro nowhere member
    simpa using nowhere wanted member
  · intro missing byte member
    have different : byte ≠ wanted := by
      rintro rfl
      exact missing member
    simpa using different

/-- The first `wanted`, with a text in front that has none. -/
theorem strchr_append_self {front : Bytes} {wanted : UInt8} (nulFree : 0 ∉ front)
    (missing : wanted ∉ front) (visible : wanted ≠ 0) (back : Bytes) :
    strchr (front ++ wanted :: back) wanted = some front.length := by
  have nowhere : front.findIdx? (· == wanted) = none := by
    rw [← cString_of_nulFree nulFree]
    exact strchr_eq_none_iff.mpr (by rwa [cString_of_nulFree nulFree])
  have seen : cString (wanted :: back) = wanted :: cString back :=
    List.takeWhile_cons_of_pos (by simpa using visible)
  rw [strchr, cString_append_of_nulFree nulFree, seen, List.findIdx?_append, nowhere,
    List.findIdx?_cons]
  simp

/-- `strrchr(text, wanted) + 1`: what follows the last `wanted`. -/
def afterLast (text : Bytes) (wanted : UInt8) : Option Bytes :=
  let whole := cString text
  if wanted ∈ whole then
    some (whole.reverse.takeWhile (· != wanted)).reverse
  else none

/-- What follows the last `wanted` is in the back of the text if the back has one. -/
theorem afterLast_append_of_mem {front back : Bytes} {wanted : UInt8} (nulFree : 0 ∉ front)
    (member : wanted ∈ cString back) :
    afterLast (front ++ back) wanted = afterLast back wanted := by
  have stops : ((cString back).reverse.takeWhile (· != wanted)).length ≠
      (cString back).reverse.length := by
    intro whole
    have passes := List.takeWhile_eq_self_iff.mp
      (List.IsPrefix.eq_of_length (List.takeWhile_prefix _) whole)
    simpa using passes wanted (List.mem_reverse.mpr member)
  simp only [afterLast, cString_append_of_nulFree nulFree, List.mem_append, member, or_true,
    if_true, List.reverse_append, List.takeWhile_append, if_neg stops]

/-- Otherwise it goes through the whole back. -/
theorem afterLast_append_of_not_mem {front back : Bytes} {wanted : UInt8} (nulFree : 0 ∉ front)
    (missing : wanted ∉ cString back) :
    afterLast (front ++ back) wanted =
      (afterLast front wanted).map fun found => found ++ cString back := by
  have passes : ∀ byte ∈ (cString back).reverse, (byte != wanted) = true := by
    intro byte member
    have different : byte ≠ wanted := by
      rintro rfl
      exact missing (List.mem_reverse.mp member)
    simpa using different
  simp only [afterLast, cString_append_of_nulFree nulFree, cString_of_nulFree nulFree,
    List.mem_append, missing, or_false, List.reverse_append,
    List.takeWhile_append_of_pos passes, List.reverse_reverse]
  split <;> rfl

/-- `std::string::find`: the position of the first occurrence of `needle` in
`text`, counted from `offset`. -/
def findFrom (needle : Bytes) : (offset : Nat) → (text : Bytes) → Option Nat
  | offset, [] => if needle.isEmpty then some offset else none
  | offset, byte :: rest =>
      if needle.isPrefixOf (byte :: rest) then some offset
      else findFrom needle (offset + 1) rest

/-- `text.find(needle)`. -/
def find (text needle : Bytes) : Option Nat :=
  findFrom needle 0 text

private theorem findFrom_some (needle : Bytes) :
    ∀ {text : Bytes} {offset index : Nat}, findFrom needle offset text = some index →
      index + needle.length ≤ offset + text.length := by
  intro text
  induction text with
  | nil =>
      intro offset index found
      unfold findFrom at found
      split at found
      next empty =>
        cases found
        rw [List.isEmpty_iff.mp empty]
      next => cases found
  | cons byte rest inductionHypothesis =>
      intro offset index found
      unfold findFrom at found
      split at found
      next isPrefix =>
        cases found
        have shorter := (List.isPrefixOf_iff_prefix.mp isPrefix).length_le
        omega
      next =>
        have later := inductionHypothesis found
        rw [List.length_cons]
        omega

/-- An occurrence lies inside the text. -/
theorem find_some {text needle : Bytes} {index : Nat} (found : find text needle = some index) :
    index + needle.length ≤ text.length := by
  have inside := findFrom_some needle found
  omega

def isSpace (byte : UInt8) : Bool :=
  byte == 32 || (9 ≤ byte && byte ≤ 13)

def isDigit (byte : UInt8) : Bool :=
  48 ≤ byte && byte ≤ 57

def toLower (byte : UInt8) : UInt8 :=
  if 65 ≤ byte && byte ≤ 90 then byte + 32 else byte

/-- `toupper` in the C locale. -/
def toUpper (byte : UInt8) : UInt8 :=
  if 97 ≤ byte && byte ≤ 122 then byte - 32 else byte

/-- The number a string of decimal digits denotes. -/
def digitsValue (digits : Bytes) : Nat :=
  digits.foldl (fun value digit => value * 10 + (digit.toNat - 48)) 0

/-- `strtol` in base ten, saturating at the ends of `long`. -/
def strtol (text : Bytes) : Int :=
  let trimmed := text.dropWhile isSpace
  let negative := trimmed.head? == some 45
  let unsigned := if negative || trimmed.head? == some 43 then trimmed.tail else trimmed
  let magnitude : Int := digitsValue (unsigned.takeWhile isDigit)
  max (-9223372036854775808)
    (min (if negative then -magnitude else magnitude) 9223372036854775807)

/-- `atoi`, that is `(int) strtol(text, NULL, 10)`. -/
def atoi (text : Bytes) : Int :=
  toInt32 (strtol text)

/-- `std::to_string` and `operator<<` on an unsigned number. -/
def decimal (value : Nat) : Bytes :=
  (Nat.toDigits 10 value).map fun digit => digit.toNat.toUInt8

private theorem digitByte :
    ∀ digit < 10, (Nat.digitChar digit).toNat.toUInt8.toNat = 48 + digit := by
  decide

private theorem digitsValue_concat (front : Bytes) (last : UInt8) :
    digitsValue (front ++ [last]) = digitsValue front * 10 + (last.toNat - 48) := by
  simp only [digitsValue, List.foldl_append, List.foldl_cons, List.foldl_nil]

/-- A number that was printed is read back. -/
theorem digitsValue_decimal (value : Nat) : digitsValue (decimal value) = value := by
  induction value using Nat.strongRecOn with
  | ind value inductionHypothesis =>
      by_cases small : value < 10
      · rw [decimal, Nat.toDigits_of_lt_base small]
        simp [digitsValue, digitByte value small]
      · have quotient := inductionHypothesis (value / 10) (by omega)
        rw [decimal] at quotient
        rw [decimal, Nat.toDigits_of_base_le (by decide) (by omega), List.map_append,
          List.map_singleton, digitsValue_concat, quotient,
          digitByte (value % 10) (by omega)]
        omega

theorem decimal_injective : Function.Injective decimal :=
  Function.LeftInverse.injective digitsValue_decimal

/-- A nonempty string of decimal digits. -/
def Decimal (text : Bytes) : Prop :=
  text ≠ [] ∧ ∀ byte ∈ text, isDigit byte = true

instance (text : Bytes) : Decidable (Decimal text) :=
  inferInstanceAs (Decidable (_ ∧ _))

theorem isDigit_of_mem_decimal {value : Nat} {byte : UInt8} (member : byte ∈ decimal value) :
    isDigit byte = true := by
  obtain ⟨digit, isNumeral, rfl⟩ := List.mem_map.mp member
  have numeral := Nat.isDigit_of_mem_toDigits (by decide) (by decide) isNumeral
  simp only [Char.isDigit, Bool.and_eq_true, decide_eq_true_eq] at numeral
  have lower : 48 ≤ digit.toNat := numeral.1
  have upper : digit.toNat ≤ 57 := numeral.2
  simp only [isDigit, Bool.and_eq_true, decide_eq_true_eq, UInt8.le_iff_toNat_le, Nat.toUInt8,
    UInt8.toNat_ofNat']
  simp only [UInt8.toNat_ofNat]
  omega

theorem plain_decimal (value : Nat) : Decimal (decimal value) :=
  ⟨mt List.map_eq_nil_iff.mp Nat.toDigits_ne_nil, fun _ => isDigit_of_mem_decimal⟩

private theorem digit_not_space {byte : UInt8} (digit : isDigit byte = true) :
    isSpace byte = false := by
  simp only [isDigit, Bool.and_eq_true, decide_eq_true_eq, UInt8.le_iff_toNat_le] at digit
  simp only [isSpace, Bool.or_eq_false_iff, Bool.and_eq_false_iff, beq_eq_false_iff_ne,
    decide_eq_false_iff_not, UInt8.le_iff_toNat_le, ne_eq, ← UInt8.toNat_inj]
  simp at digit ⊢
  omega

private theorem digit_not_sign {byte : UInt8} (digit : isDigit byte = true) :
    byte ≠ 45 ∧ byte ≠ 43 := by
  constructor <;> rintro rfl <;> exact absurd digit (by decide)

/-- On plain digits `strtol` is the number, cut at `LONG_MAX`. -/
theorem strtol_of_decimal {text : Bytes} (plain : Decimal text) :
    strtol text = min (digitsValue text : Int) 9223372036854775807 := by
  obtain ⟨nonempty, digits⟩ := plain
  cases text with
  | nil => exact absurd rfl nonempty
  | cons head tail =>
      have headDigit := digits head (by simp)
      have notSign := digit_not_sign headDigit
      have kept : (head :: tail).dropWhile isSpace = head :: tail := by
        rw [List.dropWhile_cons_of_neg]
        simp [digit_not_space headDigit]
      have whole : (head :: tail).takeWhile isDigit = head :: tail :=
        List.takeWhile_eq_self_iff.mpr digits
      simp only [strtol, kept, List.head?_cons, Option.some_beq_some,
        beq_eq_false_iff_ne.mpr notSign.1, beq_eq_false_iff_ne.mpr notSign.2,
        Bool.or_self, Bool.false_eq_true, if_false, whole]
      omega

/-- On plain digits `atoi` is exact below `2 ^ 31`. -/
theorem atoi_of_decimal {text : Bytes} (plain : Decimal text)
    (small : digitsValue text < 2147483648) : atoi text = digitsValue text := by
  rw [atoi, strtol_of_decimal plain, toInt32_of_small] <;> omega

end Onyxup.Lib.CString
