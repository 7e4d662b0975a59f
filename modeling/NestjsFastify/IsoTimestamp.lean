import NestjsFastify.DecimalText
import NestjsFastify.GregorianCalendar

/-! # ISO timestamps

Instants in milliseconds, within the range of a JavaScript `Date`, as `toISOString` writes them and
as the full form is read back.
-/
namespace IsoTimestamp
open DecimalText (padded readNumber readNumber_padded)
open GregorianCalendar

def msPerDay : Int := 86400000

/-- A hundred million days on both sides of 1970. -/
def rangeMs : Int := 8640000000000000

/-- A valid `Date`. -/
abbrev Timestamp : Type := { ms : Int // -rangeMs ≤ ms ∧ ms ≤ rangeMs }

/-! ### Writing -/

/-- Four digits, or a sign and six. -/
def yearText (year : Int) : List Char :=
  if 0 ≤ year ∧ year ≤ 9999 then padded 4 year.toNat
  else (if year < 0 then '-' else '+') :: padded 6 year.natAbs

/-- Everything but the zone. -/
def dateTimeText (year : Int) (month day hour minute second ms : Nat) : List Char :=
  yearText year ++ '-' :: (padded 2 month ++ '-' :: (padded 2 day ++ 'T' :: (padded 2 hour ++
    ':' :: (padded 2 minute ++ ':' :: (padded 2 second ++ '.' :: padded 3 ms)))))

def dayOf (instant : Timestamp) : Nat :=
  (instant / msPerDay - monthStart (monthAt msPerDay instant) + 1).toNat

def timeOf (instant : Timestamp) : Nat := (instant.val % msPerDay).toNat

def toDateTime (instant : Timestamp) : List Char :=
  dateTimeText (monthAt msPerDay instant / 12) (monthAt msPerDay instant % 12 + 1).toNat
    (dayOf instant) (timeOf instant / 3600000) (timeOf instant / 60000 % 60)
    (timeOf instant / 1000 % 60) (timeOf instant % 1000)

/-- `date.toISOString()` -/
def toISOString (instant : Timestamp) : List Char := toDateTime instant ++ ['Z']

/-- The characters of a date and time without its zone. -/
def IsDateTimeCharacter (character : Char) : Prop :=
  character.isDigit ∨ character ∈ ['+', '-', 'T', ':', '.']

theorem isDateTimeCharacter_of_mem (instant : Timestamp) :
    ∀ character ∈ toDateTime instant, IsDateTimeCharacter character := by
  have digits : ∀ width number, ∀ character ∈ padded width number, IsDateTimeCharacter character :=
    fun _ _ _ member => .inl (DecimalText.isDigit_of_mem_padded member)
  have marks : ∀ character ∈ ['+', '-', 'T', ':', '.'], IsDateTimeCharacter character :=
    fun _ member => .inr member
  have year : ∀ year, ∀ character ∈ yearText year, IsDateTimeCharacter character := by
    intro year character member
    unfold yearText at member
    split_ifs at member with short
    · exact digits _ _ _ member
    all_goals
      rcases List.mem_cons.mp member with rfl | digit
      · exact marks _ (by simp)
      · exact digits _ _ _ digit
  intro character member
  simp only [toDateTime, dateTimeText, List.mem_append, List.mem_cons] at member
  rcases member with own | rfl | own | rfl | own | rfl | own | rfl | own | rfl | own | rfl | own
  · exact year _ _ own
  all_goals first | exact digits _ _ _ own | exact marks _ (by simp)

/-! ### Reading -/

def readYear : List Char → Option (Int × List Char)
  | '+' :: text => (readNumber 6 text).map fun (year, rest) => (year, rest)
  | '-' :: text => (readNumber 6 text).bind fun (year, rest) =>
      if year = 0 then none else some (-(year : Int), rest)
  | text => (readNumber 4 text).map fun (year, rest) => (year, rest)

/-- A mark, and the number behind it. -/
def readField (mark : Char) (width : Nat) : List Char → Option (Nat × List Char)
  | [] => none
  | first :: text => if first = mark then readNumber width text else none

def instantOf (year : Int) (month day hour minute second ms : Nat) : Int :=
  (monthStart (12 * year + month - 1) + day - 1) * msPerDay +
    (3600000 * hour + 60000 * minute + 1000 * second + ms)

/-- The instant with these parts, when they are in their ranges. -/
def ofParts (year : Int) (month day hour minute second ms : Nat) : Option Timestamp :=
  if inRange : (-rangeMs ≤ instantOf year month day hour minute second ms ∧
      instantOf year month day hour minute second ms ≤ rangeMs) ∧ 1 ≤ month ∧ month ≤ 12 ∧
        1 ≤ day ∧ (day : Int) ≤ daysInMonth (12 * year + month - 1) ∧ hour < 24 ∧ minute < 60 ∧
          second < 60 then
    some ⟨instantOf year month day hour minute second ms, inRange.1⟩
  else none

/-- The instant that a text in the full form stands for. -/
def readISOString (text : List Char) : Option Timestamp := do
  let (year, text) ← readYear text
  let (month, text) ← readField '-' 2 text
  let (day, text) ← readField '-' 2 text
  let (hour, text) ← readField 'T' 2 text
  let (minute, text) ← readField ':' 2 text
  let (second, text) ← readField ':' 2 text
  let (ms, text) ← readField '.' 3 text
  if text = ['Z'] then ofParts year month day hour minute second ms else none

theorem readField_padded {width number : Nat} (fits : number < 10 ^ width) (mark : Char)
    (text : List Char) :
    readField mark width (mark :: (padded width number ++ text)) = some (number, text) := by
  rw [readField, if_pos rfl, readNumber_padded fits]

/-- A year of at most six digits is read back. -/
theorem readYear_yearText {year : Int} (low : -1000000 < year) (high : year < 1000000)
    (text : List Char) : readYear (yearText year ++ text) = some (year, text) := by
  unfold yearText
  split_ifs with short negative
  · have read := readNumber_padded (show year.toNat < 10 ^ 4 by omega) text
    obtain ⟨first, others, digits⟩ := List.exists_cons_of_length_pos
      (l := padded 4 year.toNat) (by rw [DecimalText.length_padded (by omega)]; decide)
    have digit : first.isDigit = true :=
      DecimalText.isDigit_of_mem_padded (digits ▸ List.mem_cons_self)
    rw [digits, List.cons_append] at read ⊢
    have unsigned : readYear (first :: (others ++ text)) =
        (readNumber 4 (first :: (others ++ text))).map fun (year, rest) => (year, rest) := by
      -- a digit is not a sign
      unfold readYear
      split
      · rename_i sign; cases sign; simp at digit
      · rename_i sign; cases sign; simp at digit
      · rfl
    rw [unsigned, read]
    simp only [Option.map_some, Int.toNat_of_nonneg short.1]
  · have read := readNumber_padded (show year.natAbs < 10 ^ 6 by omega) text
    simp only [List.cons_append, readYear, read, Option.bind_some]
    rw [if_neg (by omega), Int.ofNat_natAbs_of_nonpos (by omega), Int.neg_neg]
  · have read := readNumber_padded (show year.natAbs < 10 ^ 6 by omega) text
    simp only [List.cons_append, readYear, read, Option.map_some]
    rw [Int.natAbs_of_nonneg (by omega)]

private theorem dayOf_bounds (instant : Timestamp) : 1 ≤ dayOf instant ∧
    (dayOf instant : Int) = instant / msPerDay - monthStart (monthAt msPerDay instant) + 1 ∧
      (dayOf instant : Int) ≤ daysInMonth (monthAt msPerDay instant) := by
  have bounds := monthOf_bounds (instant / msPerDay)
  rw [monthStart_succ] at bounds
  unfold dayOf monthAt
  omega

private theorem timeOf_bounds (instant : Timestamp) : timeOf instant < 86400000 ∧
    (timeOf instant : Int) = instant.val % msPerDay := by
  unfold timeOf msPerDay
  omega

private theorem month_bounds (instant : Timestamp) :
    -4000000 < monthAt msPerDay instant ∧ monthAt msPerDay instant < 4000000 := by
  have bounds := monthOf_bounds (instant / msPerDay)
  have range := instant.property
  have early : monthStart (-4000000 + 1) < -rangeMs / msPerDay := by decide
  have late : rangeMs / msPerDay < monthStart 4000000 := by decide
  have low : -rangeMs / msPerDay ≤ instant / msPerDay := Int.ediv_le_ediv (by decide) range.1
  have high : instant / msPerDay ≤ rangeMs / msPerDay := Int.ediv_le_ediv (by decide) range.2
  constructor
  · by_contra before
    have := monthStart_strictMono.monotone
      (show monthAt msPerDay instant + 1 ≤ -4000000 + 1 by omega)
    simp only [monthAt] at *
    omega
  · by_contra after
    have := monthStart_strictMono.monotone (show 4000000 ≤ monthAt msPerDay instant by omega)
    simp only [monthAt] at *
    omega

/-- The parts that were written are those that are read. -/
theorem readISOString_dateTimeText {year : Int} {month day hour minute second ms : Nat}
    (low : -1000000 < year) (high : year < 1000000) (fits : month < 100 ∧ day < 100 ∧
      hour < 100 ∧ minute < 100 ∧ second < 100 ∧ ms < 1000) :
    readISOString (dateTimeText year month day hour minute second ms ++ ['Z']) =
      ofParts year month day hour minute second ms := by
  obtain ⟨monthFits, dayFits, hourFits, minuteFits, secondFits, msFits⟩ := fits
  have two {number : Nat} (fits : number < 10 ^ 2) := readField_padded fits
  simp only [dateTimeText, List.append_assoc, List.cons_append]
  rw [readISOString, readYear_yearText low high]
  simp only [Option.bind_eq_bind, Option.bind_some]
  -- one field after the other, each with the text that the others have left
  simp only [two monthFits, Option.bind_some]
  simp only [two dayFits, Option.bind_some]
  simp only [two hourFits, Option.bind_some]
  simp only [two minuteFits, Option.bind_some]
  simp only [two secondFits, Option.bind_some]
  simp only [readField_padded (show _ < 10 ^ 3 from msFits), Option.bind_some, if_pos]

/-- What `toISOString` writes is read back. -/
theorem readISOString_toISOString (instant : Timestamp) :
    readISOString (toISOString instant) = some instant := by
  obtain ⟨dayLow, day, dayHigh⟩ := dayOf_bounds instant
  obtain ⟨timeHigh, time⟩ := timeOf_bounds instant
  have month := month_bounds instant
  have days := (daysInMonth_bounds (monthAt msPerDay instant)).2
  have number : 12 * (monthAt msPerDay instant / 12) +
      ((monthAt msPerDay instant % 12 + 1).toNat : Int) - 1 = monthAt msPerDay instant := by omega
  have value : instantOf (monthAt msPerDay instant / 12) (monthAt msPerDay instant % 12 + 1).toNat
      (dayOf instant) (timeOf instant / 3600000) (timeOf instant / 60000 % 60)
      (timeOf instant / 1000 % 60) (timeOf instant % 1000) = instant := by
    have whole := Int.mul_ediv_add_emod instant.val msPerDay
    rw [instantOf, number, day, Int.mul_comm]
    rw [← time] at whole
    rw [show monthStart (monthAt msPerDay instant) +
      (instant / msPerDay - monthStart (monthAt msPerDay instant) + 1) - 1 = instant / msPerDay by
        omega]
    omega
  rw [toISOString, toDateTime, readISOString_dateTimeText (by omega) (by omega) (by omega), ofParts,
    dif_pos]
  · exact congrArg some (Subtype.ext value)
  · rw [value, number]
    exact ⟨instant.property, by omega, by omega, dayLow, dayHigh, by omega, by omega, by omega⟩

/-! ### Fields of a date -/

/-- The date of these milliseconds; out of range, it is invalid. -/
def timeClip (ms : Int) : Option Timestamp :=
  if valid : -rangeMs ≤ ms ∧ ms ≤ rangeMs then some ⟨ms, valid⟩ else none

/-- `date.getUTCFullYear()` -/
def utcFullYear (date : Timestamp) : Int := monthAt msPerDay date / 12

/-- `date.getUTCMonth()`, from 0 on. -/
def utcMonth (date : Timestamp) : Int := monthAt msPerDay date % 12

/-- `date.setUTCDate(day)` -/
def setUTCDate (date : Timestamp) (day : Int) : Option Timestamp :=
  timeClip ((monthStart (monthAt msPerDay date) + day - 1) * msPerDay + date % msPerDay)

/-- `date.setUTCHours(hours, minutes, seconds, ms)` -/
def setUTCHours (date : Timestamp) (hours minutes seconds ms : Int) : Option Timestamp :=
  timeClip (date / msPerDay * msPerDay + (3600000 * hours + 60000 * minutes + 1000 * seconds + ms))

/-- `date.setUTCMonth(month)`; months outside a year are those of other years. -/
def setUTCMonth (date : Timestamp) (month : Int) : Option Timestamp :=
  timeClip ((monthStart (12 * utcFullYear date + month) +
    (date / msPerDay - monthStart (monthAt msPerDay date))) * msPerDay + date % msPerDay)

theorem timeClip_eq {ms value : Int} (same : ms = value)
    (valid : -rangeMs ≤ value ∧ value ≤ rangeMs) : timeClip ms = some ⟨value, valid⟩ := by
  subst same
  exact dif_pos valid

end IsoTimestamp
