import Mathlib.Data.Int.Log
import Mathlib.Data.Rat.Floor
import NestjsFastify.NumberText
import NestjsFastify.ScriptText

/-! # Numbers read from script text

`Number(text)` reads a literal between blanks and rounds it to a double.
-/
namespace NumberReading
open DecimalText (textValue padded)
open NumberText (Digits digits_padded padded_ne_nil)
open ScriptText (trim isBlank)

/-! ## Literals -/

/-- The exponent behind the mantissa, which may be missing. -/
def readExponent : List Char → Option Int
  | [] => some 0
  | mark :: text =>
      if mark = 'e' ∨ mark = 'E' then
        match text with
        | '-' :: digits => if digits ≠ [] ∧ digits.all Char.isDigit then some (-textValue digits)
            else none
        | '+' :: digits => if digits ≠ [] ∧ digits.all Char.isDigit then some (textValue digits)
            else none
        | digits => if digits ≠ [] ∧ digits.all Char.isDigit then some (textValue digits) else none
      else none

/-- The digits behind the point, if there is one, and what follows them. -/
def readFraction : List Char → List Char × List Char
  | '.' :: text => (text.takeWhile Char.isDigit, text.dropWhile Char.isDigit)
  | text => ([], text)

/-- `StrUnsignedDecimalLiteral`; infinity is no finite number. -/
def readUnsigned (text : List Char) : Option ℚ :=
  let whole := text.takeWhile Char.isDigit
  let (fraction, rest) := readFraction (text.dropWhile Char.isDigit)
  if whole ++ fraction = [] then none
  else (readExponent rest).map fun (exponent : Int) =>
    textValue (whole ++ fraction) * 10 ^ (exponent - fraction.length)

/-- The value of a digit in a base up to 16. -/
def radixDigit (base : Nat) (character : Char) : Option Nat :=
  let value :=
    if character.isDigit then some (character.toNat - 48)
    else if 'a' ≤ character ∧ character ≤ 'f' then some (character.toNat - 87)
    else if 'A' ≤ character ∧ character ≤ 'F' then some (character.toNat - 55)
    else none
  value.filter (· < base)

/-- The digits of a whole number in another base. -/
def readRadix (base : Nat) (text : List Char) : Option ℚ :=
  if text = [] then none
  else (text.mapM (radixDigit base)).map fun digits =>
    (digits.foldl (fun value digit => base * value + digit) 0 : Nat)

def readSigned : List Char → Option ℚ
  | '-' :: text => (readUnsigned text).map Neg.neg
  | '+' :: text => readUnsigned text
  | text => readUnsigned text

/-- The exact value of a text without blanks around it. -/
def readLiteral (text : List Char) : Option ℚ :=
  match text with
  | [] => some 0
  | '0' :: mark :: digits =>
      if mark = 'x' ∨ mark = 'X' then readRadix 16 digits
      else if mark = 'o' ∨ mark = 'O' then readRadix 8 digits
      else if mark = 'b' ∨ mark = 'B' then readRadix 2 digits
      else readSigned text
  | text => readSigned text

/-! ## Rounding -/

/-- The nearest whole number, the even one of two. -/
def roundEven (value : ℚ) : Int :=
  let lower := ⌊value⌋
  if value - lower < 1 / 2 then lower
  else if 1 / 2 < value - lower then lower + 1
  else if lower % 2 = 0 then lower
  else lower + 1

/-- The nearest double, if it is finite. -/
def toDouble (value : ℚ) : Option ℚ :=
  if value = 0 then some 0
  else
    let unit : ℚ := 2 ^ max (Int.log 2 |value| - 52) (-1074)
    let nearest := roundEven (value / unit) * unit
    if |nearest| < 2 ^ (1024 : Int) then some nearest else none

/-- `Number(text)`, if it is a finite number. -/
def number (text : List Char) : Option ℚ := (readLiteral (trim text)).bind toDouble

/-- `Number.MAX_SAFE_INTEGER` -/
def maxSafeInteger : Nat := 2 ^ 53 - 1

/-- `Number.isSafeInteger(value)` -/
def isSafeInteger (value : ℚ) : Bool := value.den = 1 && value.num.natAbs ≤ maxSafeInteger

theorem roundEven_intCast (value : Int) : roundEven value = value := by
  simp [roundEven]

/-- A safe integer is a double. -/
theorem toDouble_natCast {value : Nat} (safe : value ≤ maxSafeInteger) :
    toDouble value = some (value : ℚ) := by
  by_cases zero : value = 0
  · subst zero
    rfl
  have small : value < 2 ^ 53 := by
    unfold maxSafeInteger at safe
    omega
  have bits : Nat.log 2 value ≤ 52 := Nat.lt_succ_iff.mp (Nat.log_lt_of_lt_pow zero small)
  obtain ⟨shift, places⟩ : ∃ shift, Nat.log 2 value + shift = 52 :=
    ⟨52 - Nat.log 2 value, by omega⟩
  have power : max (Int.log 2 |(value : ℚ)| - 52) (-1074) = -(shift : Int) := by
    rw [abs_of_nonneg (Nat.cast_nonneg value), Int.log_natCast]
    omega
  have whole : roundEven ((value : ℚ) / 2 ^ (-(shift : Int))) = (value * 2 ^ shift : Nat) := by
    have exact : (value : ℚ) / 2 ^ (-(shift : Int)) = ((value * 2 ^ shift : Nat) : Int) := by
      rw [zpow_neg, zpow_natCast, div_inv_eq_mul]
      push_cast
      rfl
    rw [exact, roundEven_intCast]
  have back : (((value * 2 ^ shift : Nat) : Int) : ℚ) * 2 ^ (-(shift : Int)) = value := by
    rw [zpow_neg, zpow_natCast, Int.cast_natCast, Nat.cast_mul, Nat.cast_pow, Nat.cast_ofNat,
      mul_assoc, mul_inv_cancel₀ (by positivity), mul_one]
  have bounded : |(value : ℚ)| < 2 ^ (1024 : Int) := by
    rw [abs_of_nonneg (Nat.cast_nonneg value)]
    have largest : (value : ℚ) < 2 ^ (53 : Int) := by exact_mod_cast small
    exact largest.trans_le (zpow_le_zpow_right₀ one_le_two (by decide))
  rw [toDouble, if_neg (Nat.cast_ne_zero.mpr zero)]
  simp only [power, whole, back, if_pos bounded]

section
variable {text : List Char}

theorem readUnsigned_digits (plain : Digits text) (some : text ≠ []) :
    readUnsigned text = .some (textValue text : ℚ) := by
  have whole : text.takeWhile Char.isDigit = text := List.takeWhile_eq_self_iff.mpr plain
  have rest : text.dropWhile Char.isDigit = [] := List.dropWhile_eq_nil_iff.mpr plain
  simp [readUnsigned, whole, rest, readFraction, readExponent, some]

theorem readSigned_digits (plain : Digits text) (some : text ≠ []) :
    readSigned text = .some (textValue text : ℚ) := by
  rw [← readUnsigned_digits plain some]
  unfold readSigned
  split
  · exact absurd (plain '-' List.mem_cons_self) (by decide)
  · exact absurd (plain '+' List.mem_cons_self) (by decide)
  · rfl

/-- Digits are no literal of another base. -/
theorem readLiteral_digits (plain : Digits text) (some : text ≠ []) :
    readLiteral text = .some (textValue text : ℚ) := by
  rw [← readSigned_digits plain some]
  unfold readLiteral
  split
  · exact absurd rfl some
  · rename_i mark digits
    have digit : mark.isDigit = true := plain mark (by simp)
    have apart (other : Char) (letter : other.isDigit = false) : mark ≠ other := by
      rintro rfl
      rw [digit] at letter
      cases letter
    simp only [apart _ (show 'x'.isDigit = false by decide), apart _ (show 'X'.isDigit = false by
      decide), apart _ (show 'o'.isDigit = false by decide), apart _ (show 'O'.isDigit = false by
      decide), apart _ (show 'b'.isDigit = false by decide), apart _ (show 'B'.isDigit = false by
      decide), or_self, if_false]
  · rfl

theorem isBlank_of_isDigit {character : Char} (digit : character.isDigit = true) :
    isBlank character = false := by
  simp only [Char.isDigit, Bool.and_eq_true, decide_eq_true_eq, UInt32.le_iff_toNat_le] at digit
  change 48 ≤ character.toNat ∧ character.toNat ≤ 57 at digit
  simp only [isBlank, Bool.or_eq_false_iff, Bool.and_eq_false_iff, decide_eq_false_iff_not]
  omega

/-- A safe integer is read back from its digits. -/
theorem number_padded {value : Nat} (safe : value ≤ maxSafeInteger) :
    number (padded 1 value) = .some (value : ℚ) := by
  have plain : Digits (padded 1 value) := digits_padded 1 value
  have trimmed : trim (padded 1 value) = padded 1 value :=
    ScriptText.trim_eq_self fun character member => isBlank_of_isDigit (plain character member)
  rw [number, trimmed, readLiteral_digits plain (padded_ne_nil value),
    DecimalText.textValue_padded, Option.bind_some, toDouble_natCast safe]

end

end NumberReading
