import NestjsFastify.DecimalText
import NestjsFastify.GregorianCalendar
import NestjsFastify.ScriptText

/-! # Dates as text

PostgreSQL reads three numbers between dashes as a date.  A first number of three digits or more is
the year; otherwise the setting `DateStyle` tells which of the numbers is which, and a year of two
digits is completed.
-/
namespace DateText
open DecimalText (padded textValue textValue_padded)
open GregorianCalendar
open ScriptText (join)

/-- The order of the fields, from `DateStyle`. -/
inductive DateOrder where
  | ymd
  | dmy
  | mdy
  deriving DecidableEq, Repr

/-- A number, as it is written. -/
structure DateField where
  digits : Nat
  value : Nat
  deriving DecidableEq, Repr

def readField (piece : List Char) : Option DateField :=
  if piece ≠ [] ∧ piece.all Char.isDigit then some ⟨piece.length, textValue piece⟩ else none

/-- Years of two digits are those from 1970 to 2069. -/
def DateField.year (field : DateField) : Nat :=
  if 2 < field.digits then field.value
  else if field.value < 70 then field.value + 2000
  else field.value + 1900

def maxYear : Nat := 5874897

/-- The day of a date that exists. -/
def dayOfDate (year month day : Nat) : Option Int :=
  if 1 ≤ year ∧ year ≤ maxYear ∧ 1 ≤ month ∧ month ≤ 12 ∧ 1 ≤ day ∧
      (day : Int) ≤ daysInMonth (12 * year + month - 1) then
    some (monthStart (12 * year + month - 1) + day - 1)
  else none

/-- `text::date` -/
def castDate (order : DateOrder) (text : List Char) : Option Int :=
  match (text.splitOn '-').mapM readField with
  | some [first, second, third] =>
    if 2 < first.digits ∨ order = .ymd then dayOfDate first.year second.value third.value
    else if order = .dmy then dayOfDate third.year second.value first.value
    else dayOfDate third.year first.value second.value
  | _ => none

theorem readField_padded {width number : Nat} (some : padded width number ≠ []) :
    readField (padded width number) = .some ⟨(padded width number).length, number⟩ := by
  have digits : (padded width number).all Char.isDigit = true :=
    List.all_eq_true.mpr fun _ member => DecimalText.isDigit_of_mem_padded member
  rw [readField, if_pos ⟨some, digits⟩, textValue_padded]

theorem lt_length_padded {width number digits : Nat} (large : 10 ^ digits ≤ number) :
    digits < (padded width number).length := by
  have own := (Nat.lt_digits_length_iff (show 1 < 10 by decide) number).mpr large
  simp only [padded, List.length_map, List.length_reverse, List.length_append]
  omega

/-- From the year 100 on, a date with the year in front is read in every order. -/
theorem castDate_year (order : DateOrder) {year month day : Nat} (large : 100 ≤ year)
    (fits : month < 100) (fitsDay : day < 100) :
    castDate order (join '-' [padded 1 year, padded 2 month, padded 2 day]) =
      dayOfDate year month day := by
  have yearDigits : 2 < (padded 1 year).length := lt_length_padded (by simpa using large)
  have twoDigits : ∀ number < 100, (padded 2 number).length = 2 := fun number few =>
    DecimalText.length_padded (by simpa using few)
  have nonempty : ∀ {text : List Char}, 0 < text.length → text ≠ [] := List.ne_nil_of_length_pos
  have plain : ∀ piece ∈ [padded 1 year, padded 2 month, padded 2 day], '-' ∉ piece := by
    intro piece listed member
    have digit : ('-').isDigit = true := by
      simp only [List.mem_cons, List.not_mem_nil, or_false] at listed
      rcases listed with rfl | rfl | rfl <;> exact DecimalText.isDigit_of_mem_padded member
    exact absurd digit (by decide)
  rw [castDate, join, List.splitOn_intercalate '-' plain (by simp)]
  simp only [List.mapM_cons, List.mapM_nil,
    readField_padded (nonempty (Nat.zero_lt_of_lt yearDigits)),
    readField_padded (nonempty (Nat.lt_of_lt_of_eq Nat.zero_lt_two (twoDigits month fits).symm)),
    readField_padded (nonempty (Nat.lt_of_lt_of_eq Nat.zero_lt_two (twoDigits day fitsDay).symm))]
  simp [yearDigits, DateField.year]

end DateText
