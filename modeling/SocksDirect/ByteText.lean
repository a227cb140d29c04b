import Mathlib.Algebra.Order.Ring.Int
import Mathlib.Data.List.TakeWhile
import Mathlib.Tactic.Common

namespace SocksDirect.ByteText

/-!
# Byte strings and decimal numbers in C

Byte strings are lists of bytes.  The conversions are those of the C library in
the "C" locale: `%llu` and `%d` of `snprintf`, and `strtoull` and `atoi` with
base 10, including leading white space, signs and the saturation of values that
do not fit.  A conversion stops at the first byte that is not a digit, so the
terminating NUL needs no representation.
-/

/-- The content of a `std::string`. -/
abbrev Text := List UInt8

/-- The bytes of a string literal. -/
def ascii (literal : String) : Text :=
  literal.toList.map fun character => UInt8.ofNat character.toNat

/-- `%llu`. -/
def decimal (n : Nat) : Text := (Nat.toDigits 10 n).map fun character => UInt8.ofNat character.toNat

/-- `%d`. -/
def formatInt (i : Int32) : Text :=
  if i.toInt < 0 then 0x2d :: decimal i.toInt.natAbs else decimal i.toInt.natAbs

/-- `isspace` in the "C" locale. -/
def isSpace (c : UInt8) : Bool := c = 0x20 || (0x09 ≤ c && c ≤ 0x0d)

/-- `isdigit`. -/
def isDigit (c : UInt8) : Bool := 0x30 ≤ c && c ≤ 0x39

/-- Skip white space and read an optional sign. -/
def splitSign (text : Text) : Bool × Text :=
  match text.dropWhile isSpace with
  | [] => (false, [])
  | c :: rest =>
    if c = 0x2d then
      (true, rest)
    else if c = 0x2b then (false, rest) else (false, c :: rest)

/-- The value of the leading digits; 0 if there are none. -/
def digitsValue (text : Text) : Nat :=
  (text.takeWhile isDigit).foldl (fun value c => 10 * value + (c.toNat - 0x30)) 0

/-- `strtoull(text, nullptr, 10)`. -/
def strtoull (text : Text) : UInt64 :=
  let (negative, digits) := splitSign text
  let value := digitsValue digits
  if 2 ^ 64 ≤ value then
    UInt64.ofNat (2 ^ 64 - 1)
  else if negative then 0 - UInt64.ofNat value else UInt64.ofNat value

/-- `atoi(text)`: the `long` that `strtol` returns, converted to `int`. -/
def atoi (text : Text) : Int32 :=
  let (negative, digits) := splitSign text
  let value : Int := if negative then -(digitsValue digits : Int) else digitsValue digits
  Int32.ofInt (max (-2 ^ 63) (min value (2 ^ 63 - 1)))

section Decimal

private theorem digit_byte {character : Char} (digit : character.isDigit = true) :
    isDigit (UInt8.ofNat character.toNat) = true ∧
      (UInt8.ofNat character.toNat).toNat = character.toNat := by
  simp only [Char.isDigit, Bool.and_eq_true, decide_eq_true_eq] at digit
  have bounds : 48 ≤ character.toNat ∧ character.toNat ≤ 57 := digit
  have value : (UInt8.ofNat character.toNat).toNat = character.toNat := by
    simp only [UInt8.toNat_ofNat']
    omega
  refine ⟨?_, value⟩
  simp only [isDigit, Bool.and_eq_true, decide_eq_true_eq, UInt8.le_iff_toNat_le, value]
  exact bounds

theorem isDigit_of_mem_decimal {n : Nat} {c : UInt8} (member : c ∈ decimal n) :
    isDigit c = true := by
  obtain ⟨character, inDigits, rfl⟩ := List.mem_map.mp member
  exact (digit_byte (Nat.isDigit_of_mem_toDigits (by decide) (by decide) inDigits)).1

private theorem foldl_digit_bytes (characters : List Char)
    (digits : ∀ character ∈ characters, character.isDigit = true) (value : Nat) :
    (characters.map fun character => UInt8.ofNat character.toNat).foldl
      (fun value c => 10 * value + (c.toNat - 0x30)) value =
      Nat.ofDigitChars 10 characters value := by
  induction characters generalizing value with
  | nil => rfl
  | cons character rest inductionHypothesis =>
    have first := digit_byte (digits character (by simp))
    rw [List.map_cons, List.foldl_cons, first.2, Nat.ofDigitChars_cons]
    exact inductionHypothesis (fun other member => digits other (by simp [member])) _

theorem digitsValue_decimal (n : Nat) : digitsValue (decimal n) = n := by
  have allDigits : (decimal n).takeWhile isDigit = decimal n :=
    List.takeWhile_eq_self_iff.mpr fun _ member => isDigit_of_mem_decimal member
  rw [digitsValue, allDigits, decimal, foldl_digit_bytes _
      (fun _ member => Nat.isDigit_of_mem_toDigits (by decide) (by decide) member)]
  exact Nat.ofDigitChars_ten_toDigits

theorem splitSign_decimal (n : Nat) : splitSign (decimal n) = (false, decimal n) := by
  have digits : ∀ c ∈ decimal n, isDigit c = true := fun _ member => isDigit_of_mem_decimal member
  cases text : decimal n with
  | nil => rfl
  | cons c rest =>
    have digit : isDigit c = true := digits c (by simp [text])
    simp only [isDigit, Bool.and_eq_true, decide_eq_true_eq] at digit
    have notSpace : isSpace c = false := by
      simp only [isSpace]
      grind
    have noMinus : c ≠ 0x2d := by grind
    have noPlus : c ≠ 0x2b := by grind
    simp [splitSign, notSpace, noMinus, noPlus]

theorem strtoull_decimal (key : UInt64) : strtoull (decimal key.toNat) = key := by
  have small : ¬ 2 ^ 64 ≤ key.toNat := Nat.not_le.mpr key.toNat_lt
  simp only [strtoull, splitSign_decimal, digitsValue_decimal]
  rw [if_neg small, if_neg (by simp), UInt64.ofNat_toNat]

theorem atoi_formatInt {i : Int32} (notNegative : 0 ≤ i.toInt) : atoi (formatInt i) = i := by
  have upper : i.toInt < 2 ^ 31 := i.toInt_lt
  have format : formatInt i = decimal i.toInt.natAbs := if_neg (Int.not_lt.mpr notNegative)
  have clamped : max (-2 ^ 63) (min i.toInt (2 ^ 63 - 1)) = i.toInt := by omega
  simp only [atoi, format, splitSign_decimal, digitsValue_decimal]
  rw [if_neg (by simp), Int.natAbs_of_nonneg notNegative, clamped, Int32.ofInt_toInt]

end Decimal

end SocksDirect.ByteText
