import Mathlib.Data.Nat.Digits.Lemmas

/-! # Numbers as decimal text

A number is written with at least so many digits, with zeros in front, and read back by its value.
-/
namespace DecimalText

/-- The decimal digits of a number, at least `width` of them. -/
def padded (width number : Nat) : List Char :=
  let digits := Nat.digits 10 number
  ((digits ++ List.replicate (width - digits.length) 0).reverse).map Nat.digitChar

def digitValue (character : Char) : Nat := character.toNat - '0'.toNat

/-- The number that a text of digits stands for. -/
def textValue (text : List Char) : Nat :=
  text.foldl (fun value character => 10 * value + digitValue character) 0

theorem digitValue_digitChar {digit : Nat} (decimal : digit < 10) :
    digitValue digit.digitChar = digit := by
  have all : ∀ digit < 10, digitValue digit.digitChar = digit := by decide
  exact all digit decimal

theorem isDigit_digitChar {digit : Nat} (decimal : digit < 10) :
    digit.digitChar.isDigit = true := by
  have all : ∀ digit < 10, digit.digitChar.isDigit = true := by decide
  exact all digit decimal

private theorem textValue_reverse {digits : List Nat} (decimal : ∀ digit ∈ digits, digit < 10) :
    textValue (digits.reverse.map Nat.digitChar) = Nat.ofDigits 10 digits := by
  induction digits with
  | nil => rfl
  | cons digit digits ih =>
    obtain ⟨here, others⟩ := List.forall_mem_cons.mp decimal
    have tail := ih others
    unfold textValue at tail ⊢
    rw [List.reverse_cons, List.map_append, List.foldl_append, tail, Nat.ofDigits_cons]
    simp only [List.map_cons, List.map_nil, List.foldl_cons, List.foldl_nil,
      digitValue_digitChar here]
    omega

private theorem decimal_digits (width number : Nat) :
    ∀ digit ∈ Nat.digits 10 number ++ List.replicate width 0, digit < 10 := by
  intro digit member
  rcases List.mem_append.mp member with own | zero
  · exact Nat.digits_lt_base (by decide) own
  · rw [(List.mem_replicate.mp zero).2]
    decide

/-- Reading gives back what was written. -/
theorem textValue_padded (width number : Nat) : textValue (padded width number) = number := by
  rw [padded, textValue_reverse (decimal_digits _ number), Nat.ofDigits_append,
    Nat.ofDigits_replicate_zero, Nat.mul_zero, Nat.add_zero, Nat.ofDigits_digits]

theorem padded_injective (width : Nat) : Function.Injective (padded width) :=
  Function.LeftInverse.injective (textValue_padded width)

theorem isDigit_of_mem_padded {width number : Nat} {character : Char}
    (member : character ∈ padded width number) : character.isDigit = true := by
  obtain ⟨digit, own, rfl⟩ := List.mem_map.mp member
  exact isDigit_digitChar (decimal_digits _ number digit (List.mem_reverse.mp own))

/-- A number that fits has exactly so many digits. -/
theorem length_padded {width number : Nat} (fits : number < 10 ^ width) :
    (padded width number).length = width := by
  have length := (Nat.digits_length_le_iff (by decide) number).mpr fits
  simp only [padded, List.length_map, List.length_reverse, List.length_append,
    List.length_replicate]
  omega

/-- Read a number of exactly so many digits in front of a text. -/
def readNumber (width : Nat) (text : List Char) : Option (Nat × List Char) :=
  if (text.take width).length = width ∧ (text.take width).all Char.isDigit then
    some (textValue (text.take width), text.drop width)
  else none

theorem readNumber_padded {width number : Nat} (fits : number < 10 ^ width)
    (text : List Char) : readNumber width (padded width number ++ text) = some (number, text) := by
  have length := length_padded fits
  have own : (padded width number ++ text).take width = padded width number :=
    List.take_left' length
  rw [readNumber, own, if_pos ⟨length, List.all_eq_true.mpr fun _ => isDigit_of_mem_padded⟩,
    textValue_padded, List.drop_left' length]

end DecimalText
