import Mathlib.Algebra.Order.Field.Rat
import Mathlib.Tactic.FieldSimp
import Mathlib.Tactic.Ring
import NestjsFastify.DecimalText

/-! # Numbers as script text

A finite number is written with the fewest decimal digits that determine it, with a point or an
exponent where its size asks for one.
-/
namespace NumberText
open DecimalText

/-- A finite number as the significand and the power of ten of its fewest digits; there is one
zero. -/
structure Decimal where
  negative : Bool
  significand : Nat
  power : Int
  canonical : if significand = 0 then negative = false ∧ power = 0 else significand % 10 ≠ 0
  deriving DecidableEq

/-- The digits behind the point, if there are any. -/
def pointText (fraction : List Char) : List Char :=
  if fraction = [] then [] else '.' :: fraction

def exponentText (exponent : Int) : List Char :=
  'e' :: (if exponent < 0 then '-' else '+') :: padded 1 exponent.natAbs

/-- The digits of the significand with the power of ten. -/
def magnitudeText (significand : Nat) (power : Int) : List Char :=
  let digits := padded 1 significand
  let position := digits.length + power
  if digits.length ≤ position ∧ position ≤ 21 then
    digits ++ List.replicate power.toNat '0'
  else if 0 < position ∧ position ≤ 21 then
    digits.take position.toNat ++ pointText (digits.drop position.toNat)
  else if -6 < position ∧ position ≤ 0 then
    '0' :: '.' :: (List.replicate (-position).toNat '0' ++ digits)
  else digits.take 1 ++ pointText (digits.drop 1) ++ exponentText (position - 1)

/-- `Number::toString` -/
def Decimal.text (number : Decimal) : List Char :=
  (if number.negative then ['-'] else []) ++ magnitudeText number.significand number.power

/-! ## Reading -/

/-- The exponent behind the mantissa. -/
def exponentValue : List Char → Int
  | 'e' :: '-' :: digits => -textValue digits
  | 'e' :: _ :: digits => textValue digits
  | _ => 0

/-- The magnitude that a text stands for. -/
def magnitude (text : List Char) : ℚ :=
  let mantissa := text.takeWhile (· ≠ 'e')
  let exponent := exponentValue (text.dropWhile (· ≠ 'e'))
  let whole := mantissa.takeWhile (· ≠ '.')
  let fraction := (mantissa.dropWhile (· ≠ '.')).drop 1
  textValue (whole ++ fraction) * 10 ^ (exponent - fraction.length)

def Digits (text : List Char) : Prop := ∀ character ∈ text, character.isDigit = true

theorem textValue_append (first second : List Char) :
    textValue (first ++ second) = textValue first * 10 ^ second.length + textValue second := by
  induction second using List.reverseRecOn with
  | nil => simp [textValue]
  | append_singleton second last ih =>
    unfold textValue at ih ⊢
    rw [← List.append_assoc, List.foldl_append, ih, List.foldl_append]
    simp only [List.foldl_cons, List.foldl_nil, List.length_append, List.length_singleton, pow_succ]
    ring

theorem textValue_zeros (count : Nat) : textValue (List.replicate count '0') = 0 := by
  induction count with
  | zero => rfl
  | succ count ih =>
    rw [List.replicate_succ', textValue_append, ih]
    rfl

section
variable {text whole fraction exponent digits : List Char} {significand other : Nat}
  {power otherPower : Int}

theorem Digits.ne (plain : Digits text) {character : Char} (member : character ∈ text)
    (mark : Char) (apart : mark.isDigit = false) : character ≠ mark := by
  rintro rfl
  rw [plain _ member] at apart
  cases apart

theorem Digits.append (first : Digits whole) (second : Digits fraction) :
    Digits (whole ++ fraction) :=
  List.forall_mem_append.mpr ⟨first, second⟩

theorem digits_zeros (count : Nat) : Digits (List.replicate count '0') := by
  intro character member
  rw [(List.mem_replicate.mp member).2]
  rfl

theorem digits_padded (width number : Nat) : Digits (padded width number) :=
  fun _ => isDigit_of_mem_padded

/-- What comes before a mark, and what begins with it. -/
theorem span_mark {Element : Type} {text : List Element} (keeps : Element → Bool)
    (own : ∀ element ∈ text, keeps element = true) (tail : List Element)
    (stops : ∀ element ∈ tail.head?, keeps element = false) :
    (text ++ tail).takeWhile keeps = text ∧ (text ++ tail).dropWhile keeps = tail := by
  induction text with
  | nil => cases tail <;> simp_all
  | cons first text ih =>
    obtain ⟨here, own⟩ := List.forall_mem_cons.mp own
    obtain ⟨taken, dropped⟩ := ih own
    simp [here, taken, dropped]

theorem exponentValue_exponentText (exponent : Int) :
    exponentValue (exponentText exponent) = exponent := by
  unfold exponentText
  split_ifs with negative
  · have value : exponentValue ('e' :: '-' :: padded 1 exponent.natAbs) =
        -textValue (padded 1 exponent.natAbs) := rfl
    rw [value, textValue_padded]
    omega
  · have value : exponentValue ('e' :: '+' :: padded 1 exponent.natAbs) =
        textValue (padded 1 exponent.natAbs) := rfl
    rw [value, textValue_padded]
    omega

theorem padded_ne_nil (number : Nat) : padded 1 number ≠ [] := by
  intro empty
  simp only [padded, List.map_eq_nil_iff, List.reverse_eq_nil_iff, List.append_eq_nil_iff] at empty
  simp [empty.1] at empty

/-- The magnitude is read off the digits before and behind the point and the exponent. -/
theorem magnitude_eq (wholeDigits : Digits whole) (fractionDigits : Digits fraction)
    (exponent : List Char) (marked : ∀ character ∈ exponent.head?, character = 'e') :
    magnitude (whole ++ pointText fraction ++ exponent) =
      textValue (whole ++ fraction) * 10 ^ (exponentValue exponent - fraction.length) := by
  have pointed : pointText fraction = [] ∧ fraction = [] ∨
      pointText fraction = '.' :: fraction := by
    unfold pointText
    split_ifs with none
    · exact .inl ⟨rfl, none⟩
    · exact .inr rfl
  generalize pointText fraction = point at pointed
  have mantissa : ∀ character ∈ whole ++ point, decide (character ≠ 'e') = true := by
    intro character member
    rw [decide_eq_true_eq]
    rcases List.mem_append.mp member with own | own
    · exact wholeDigits.ne own 'e' rfl
    · rcases pointed with ⟨rfl, rfl⟩ | rfl
      · simp at own
      · rcases List.mem_cons.mp own with rfl | own
        · decide
        · exact fractionDigits.ne own 'e' rfl
  obtain ⟨taken, dropped⟩ := span_mark (fun character => decide (character ≠ 'e')) mantissa exponent
    fun character member => by simp [marked character member]
  obtain ⟨wholeTaken, wholeDropped⟩ := span_mark (fun character => decide (character ≠ '.'))
    (fun character member => by simpa using wholeDigits.ne member '.' rfl) point
    fun character member => by
      rcases pointed with ⟨rfl, rfl⟩ | rfl
      · simp at member
      · obtain rfl := Option.some.inj member
        rfl
  have rest : point.drop 1 = fraction := by
    rcases pointed with ⟨rfl, rfl⟩ | rfl <;> rfl
  simp only [magnitude, taken, dropped, wholeTaken, wholeDropped, rest]

/-- The magnitude that is written. -/
theorem magnitude_magnitudeText (significand : Nat) (power : Int) :
    magnitude (magnitudeText significand power) = significand * 10 ^ power := by
  have plain : Digits (padded 1 significand) := digits_padded 1 significand
  have value : textValue (padded 1 significand) = significand := textValue_padded 1 significand
  have some : padded 1 significand ≠ [] := padded_ne_nil significand
  unfold magnitudeText
  generalize padded 1 significand = digits at plain value some
  have long : 0 < digits.length := List.length_pos_iff.mpr some
  have split (count : Nat) : textValue (digits.take count ++ digits.drop count) = significand := by
    rw [List.take_append_drop, value]
  have front (count : Nat) : Digits (digits.take count) :=
    fun character member => plain character (List.mem_of_mem_take member)
  have back (count : Nat) : Digits (digits.drop count) :=
    fun character member => plain character (List.mem_of_mem_drop member)
  have none : Digits [] := by simp [Digits]
  simp only
  split_ifs with large middle small
  · have read := magnitude_eq (plain.append (digits_zeros power.toNat)) none [] (by simp)
    simp only [pointText, if_true, List.append_nil] at read
    rw [read, textValue_append, textValue_zeros, value, List.length_replicate]
    have nonneg : ((power.toNat : Nat) : Int) = power := Int.toNat_of_nonneg (by omega)
    simp only [exponentValue, List.length_nil, Nat.cast_zero, sub_zero, zpow_zero, mul_one,
      add_zero]
    rw [Nat.cast_mul, Nat.cast_pow, ← zpow_natCast, nonneg]
    norm_num
  · have read := magnitude_eq (front (digits.length + power).toNat)
      (back (digits.length + power).toNat) [] (by simp)
    rw [List.append_nil, split, List.length_drop] at read
    rw [read]
    congr 2
    simp only [exponentValue]
    omega
  · have read := magnitude_eq (digits_zeros 1)
      ((digits_zeros (-(digits.length + power)).toNat).append plain) [] (by simp)
    rw [List.append_nil, pointText, if_neg (by simp [some]), ← List.append_assoc,
      ← List.replicate_add, textValue_append, textValue_zeros, value, List.length_append,
      List.length_replicate] at read
    refine read.trans ?_
    simp only [exponentValue, Nat.zero_mul, Nat.zero_add]
    congr 2
    omega
  · have read := magnitude_eq (front 1) (back 1) (exponentText (digits.length + power - 1)) (by
      simp [exponentText])
    rw [split, List.length_drop, exponentValue_exponentText] at read
    rw [read]
    congr 2
    omega

/-! ## The characters of a number -/

/-- A digit, a sign, a point or the mark of an exponent. -/
def isNumberChar (character : Char) : Bool :=
  character.isDigit || character = '.' || character = 'e' || character = '+' || character = '-'

theorem isNumberChar_of_isDigit {character : Char} (digit : character.isDigit = true) :
    isNumberChar character = true := by
  simp [isNumberChar, digit]

theorem isNumberChar_pointText (plain : Digits fraction) :
    ∀ character ∈ pointText fraction, isNumberChar character = true := by
  unfold pointText
  split_ifs
  · simp
  · refine List.forall_mem_cons.mpr ⟨rfl, fun character member => ?_⟩
    exact isNumberChar_of_isDigit (plain character member)

theorem isNumberChar_exponentText (exponent : Int) :
    ∀ character ∈ exponentText exponent, isNumberChar character = true := by
  refine List.forall_mem_cons.mpr ⟨rfl, List.forall_mem_cons.mpr ⟨by split_ifs <;> rfl, ?_⟩⟩
  exact fun character member => isNumberChar_of_isDigit (digits_padded 1 _ character member)

/-- A magnitude begins with a digit and has only the characters of numbers. -/
theorem magnitudeText_chars (significand : Nat) (power : Int) :
    (∃ first rest, magnitudeText significand power = first :: rest ∧ first.isDigit = true) ∧
      ∀ character ∈ magnitudeText significand power, isNumberChar character = true := by
  have plain : Digits (padded 1 significand) := digits_padded 1 significand
  have some : padded 1 significand ≠ [] := padded_ne_nil significand
  unfold magnitudeText
  generalize padded 1 significand = digits at plain some
  have own : ∀ character ∈ digits, isNumberChar character = true :=
    fun character member => isNumberChar_of_isDigit (plain character member)
  have back (count : Nat) : Digits (digits.drop count) :=
    fun character member => plain character (List.mem_of_mem_drop member)
  obtain ⟨first, rest, rfl⟩ := List.exists_cons_of_ne_nil some
  have firstDigit := plain first List.mem_cons_self
  simp only
  split_ifs with large middle small
  · refine ⟨⟨first, _, rfl, firstDigit⟩, List.forall_mem_append.mpr ⟨own, ?_⟩⟩
    exact fun character member =>
      isNumberChar_of_isDigit (digits_zeros power.toNat character member)
  · obtain ⟨count, position⟩ : ∃ count, ((first :: rest).length + power).toNat = count + 1 :=
      ⟨((first :: rest).length + power).toNat - 1, by omega⟩
    rw [position]
    refine ⟨⟨first, _, rfl, firstDigit⟩, List.forall_mem_append.mpr
      ⟨fun character member => own character (List.mem_of_mem_take member), ?_⟩⟩
    exact isNumberChar_pointText (back _)
  · refine ⟨⟨'0', _, rfl, rfl⟩, List.forall_mem_cons.mpr ⟨rfl, List.forall_mem_cons.mpr ⟨rfl, ?_⟩⟩⟩
    refine List.forall_mem_append.mpr ⟨fun character member => ?_, own⟩
    exact isNumberChar_of_isDigit (digits_zeros _ character member)
  · refine ⟨⟨first, _, rfl, firstDigit⟩, List.forall_mem_append.mpr
      ⟨List.forall_mem_append.mpr ⟨fun character member => own character ?_, ?_⟩, ?_⟩⟩
    · exact List.mem_of_mem_take member
    · exact isNumberChar_pointText (back 1)
    · exact isNumberChar_exponentText _

/-- A number begins with a digit or a sign and has only the characters of numbers. -/
theorem Decimal.text_chars (number : Decimal) :
    (∃ first rest, number.text = first :: rest ∧ (first.isDigit = true ∨ first = '-')) ∧
      ∀ character ∈ number.text, isNumberChar character = true := by
  obtain ⟨⟨first, rest, begins, digit⟩, own⟩ :=
    magnitudeText_chars number.significand number.power
  unfold Decimal.text
  cases number.negative with
  | true => exact ⟨⟨'-', _, rfl, .inr rfl⟩, List.forall_mem_cons.mpr ⟨rfl, own⟩⟩
  | false => exact ⟨⟨first, rest, begins, .inl digit⟩, own⟩

/-! ## Different numbers -/

/-- A magnitude whose significand does not end in zero has one form. -/
theorem magnitude_inj_of_le (less : power ≤ otherPower) (first : significand % 10 ≠ 0)
    (same : (significand : ℚ) * 10 ^ power = other * 10 ^ otherPower) :
    significand = other ∧ power = otherPower := by
  obtain ⟨count, rfl⟩ : ∃ count : Nat, otherPower = power + count :=
    ⟨(otherPower - power).toNat, by omega⟩
  have positive : (10 : ℚ) ^ power ≠ 0 := zpow_ne_zero power (by norm_num)
  rw [zpow_add₀ (by norm_num), zpow_natCast, mul_comm ((10 : ℚ) ^ power), ← mul_assoc] at same
  have whole : significand = other * 10 ^ count := by
    exact_mod_cast mul_right_cancel₀ positive same
  cases count with
  | zero => exact ⟨by simpa using whole, by simp⟩
  | succ count =>
    rw [pow_succ, ← mul_assoc] at whole
    exact absurd (whole ▸ Nat.mul_mod_left _ 10) first

theorem magnitude_inj (first : significand % 10 ≠ 0) (second : other % 10 ≠ 0)
    (same : (significand : ℚ) * 10 ^ power = other * 10 ^ otherPower) :
    significand = other ∧ power = otherPower := by
  rcases Int.le_total power otherPower with less | less
  · exact magnitude_inj_of_le less first same
  · obtain ⟨significands, powers⟩ := magnitude_inj_of_le less second same.symm
    exact ⟨significands.symm, powers.symm⟩

/-- The magnitude of a number with its fewest digits determines them. -/
theorem Decimal.magnitude_eq_zero_iff (number : Decimal) :
    (number.significand : ℚ) * 10 ^ number.power = 0 ↔ number.significand = 0 := by
  rw [mul_eq_zero, Nat.cast_eq_zero, or_iff_left (zpow_ne_zero _ (by norm_num))]

/-- Different numbers have different texts. -/
theorem text_injective : Function.Injective Decimal.text := by
  intro first second same
  have signs : first.negative = second.negative ∧
      magnitudeText first.significand first.power =
        magnitudeText second.significand second.power := by
    obtain ⟨⟨one, oneRest, oneBegins, oneDigit⟩, -⟩ :=
      magnitudeText_chars first.significand first.power
    obtain ⟨⟨two, twoRest, twoBegins, twoDigit⟩, -⟩ :=
      magnitudeText_chars second.significand second.power
    unfold Decimal.text at same
    cases oneSign : first.negative <;> cases twoSign : second.negative <;>
      simp only [oneSign, twoSign, if_true, Bool.false_eq_true, if_false, List.nil_append,
        List.singleton_append] at same
    · exact ⟨rfl, same⟩
    · rw [oneBegins] at same
      rw [(List.cons.inj same).1] at oneDigit
      cases oneDigit
    · rw [twoBegins] at same
      rw [← (List.cons.inj same).1] at twoDigit
      cases twoDigit
    · exact ⟨rfl, (List.cons.inj same).2⟩
  have magnitudes := congrArg magnitude signs.2
  rw [magnitude_magnitudeText, magnitude_magnitudeText] at magnitudes
  have oneCanonical := first.canonical
  have twoCanonical := second.canonical
  have zero : first.significand = 0 ↔ second.significand = 0 := by
    rw [← first.magnitude_eq_zero_iff, magnitudes, second.magnitude_eq_zero_iff]
  have values : first.significand = second.significand ∧ first.power = second.power := by
    by_cases none : first.significand = 0
    · rw [if_pos none] at oneCanonical
      rw [if_pos (zero.mp none)] at twoCanonical
      exact ⟨none.trans (zero.mp none).symm, oneCanonical.2.trans twoCanonical.2.symm⟩
    · rw [if_neg none] at oneCanonical
      rw [if_neg (zero.not.mp none)] at twoCanonical
      exact magnitude_inj oneCanonical twoCanonical magnitudes
  cases first
  cases second
  simp_all

end

/-! ## Whole numbers -/

/-- The digits before the zeros at the end of a number, and how many zeros there are. -/
def stripped (number : Nat) : Nat × Nat :=
  if number ≠ 0 ∧ number % 10 = 0 then
    ((stripped (number / 10)).1, (stripped (number / 10)).2 + 1)
  else (number, 0)
termination_by number

theorem stripped_canonical {number : Nat} (positive : number ≠ 0) :
    (stripped number).1 ≠ 0 ∧ (stripped number).1 % 10 ≠ 0 := by
  fun_induction stripped number with
  | case1 number ends ih => exact ih (by omega)
  | case2 number digit => exact ⟨positive, fun none => digit ⟨positive, none⟩⟩

theorem stripped_value (number : Nat) :
    (stripped number).1 * 10 ^ (stripped number).2 = number := by
  fun_induction stripped number with
  | case1 number ends ih =>
    rw [pow_succ, ← mul_assoc, ih]
    omega
  | case2 number digit => exact Nat.mul_one number

theorem padded_mul_ten {number : Nat} (positive : number ≠ 0) (ends : number % 10 = 0) :
    padded 1 number = padded 1 (number / 10) ++ ['0'] := by
  have digits : Nat.digits 10 number = 0 :: Nat.digits 10 (number / 10) := by
    rw [Nat.digits_def' (by decide) (by omega), ends]
  have some : 0 < (Nat.digits 10 (number / 10)).length :=
    List.length_pos_iff.mpr (Nat.digits_ne_nil_iff_ne_zero.mpr (by omega))
  have full (length : Nat) (least : 0 < length) :
      List.replicate (1 - length) 0 = ([] : List Nat) := by
    rw [Nat.sub_eq_zero_of_le least, List.replicate_zero]
  simp only [padded, digits, full _ some, full (0 :: Nat.digits 10 (number / 10)).length (by simp),
    List.append_nil, List.reverse_cons, List.map_append, List.map_singleton]
  rfl

theorem padded_stripped (number : Nat) :
    padded 1 number = padded 1 (stripped number).1 ++ List.replicate (stripped number).2 '0' := by
  fun_induction stripped number with
  | case1 number ends ih =>
    rw [padded_mul_ten ends.1 ends.2, ih, List.replicate_succ', List.append_assoc]
  | case2 number digit => rw [List.replicate_zero, List.append_nil]

/-- A whole number. -/
def Decimal.ofNat (number : Nat) : Decimal where
  negative := false
  significand := (stripped number).1
  power := (stripped number).2
  canonical := by
    by_cases positive : number = 0
    · subst positive
      simp [stripped]
    · obtain ⟨some, last⟩ := stripped_canonical positive
      rwa [if_neg some]

/-- The number itself. -/
def Decimal.value (number : Decimal) : ℚ :=
  (if number.negative then -1 else 1) * (number.significand * 10 ^ number.power)

@[simp] theorem Decimal.value_ofNat (number : Nat) : (Decimal.ofNat number).value = number := by
  have whole : ((stripped number).1 : ℚ) * 10 ^ (stripped number).2 = number := by
    exact_mod_cast stripped_value number
  rw [Decimal.value, Decimal.ofNat, if_neg Bool.false_ne_true, one_mul, zpow_natCast, whole]

/-- A whole number of at most 21 digits is written with its digits. -/
theorem text_ofNat {number : Nat} (short : number < 10 ^ 21) :
    (Decimal.ofNat number).text = padded 1 number := by
  have digits : (Nat.digits 10 number).length ≤ 21 :=
    (Nat.digits_length_le_iff (by decide) number).mpr short
  have written : (padded 1 number).length ≤ 21 := by
    simp only [padded, List.length_map, List.length_reverse, List.length_append,
      List.length_replicate]
    omega
  have length := congrArg List.length (padded_stripped number)
  rw [List.length_append, List.length_replicate] at length
  rw [Decimal.text, Decimal.ofNat, if_neg Bool.false_ne_true, List.nil_append, magnitudeText]
  simp only
  rw [if_pos (by omega), Int.toNat_natCast, ← padded_stripped]

end NumberText
