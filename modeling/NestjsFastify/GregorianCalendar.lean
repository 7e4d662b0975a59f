import Mathlib

/-! # The Gregorian calendar

Months are numbered through, from January of the year zero, and days from the first of January
1970.  Instants are counted in equal parts of a day.
-/
namespace GregorianCalendar

/-! ### Months -/

def isLeap (year : Int) : Prop := year % 4 = 0 ∧ (year % 100 ≠ 0 ∨ year % 400 = 0)

instance (year : Int) : Decidable (isLeap year) := inferInstanceAs (Decidable (_ ∧ _))

def daysInMonth (month : Int) : Int :=
  if month % 12 = 1 then if isLeap (month / 12) then 29 else 28
  else if month % 12 = 3 ∨ month % 12 = 5 ∨ month % 12 = 8 ∨ month % 12 = 10 then 30
  else 31

/-- The first day of a year. -/
def yearStart (year : Int) : Int :=
  365 * (year - 1970) + (year - 1) / 4 - (year - 1) / 100 + (year - 1) / 400 - 477

/-- The first day of a month. -/
def monthStart (month : Int) : Int :=
  yearStart (month / 12) + (367 * (month % 12) + 5) / 12 -
    if month % 12 < 2 then 0 else if isLeap (month / 12) then 1 else 2

theorem daysInMonth_bounds (month : Int) : 28 ≤ daysInMonth month ∧ daysInMonth month ≤ 31 := by
  unfold daysInMonth
  split_ifs <;> omega

theorem monthStart_succ (month : Int) :
    monthStart (month + 1) = monthStart month + daysInMonth month := by
  by_cases december : month % 12 = 11
  · have year : (month + 1) / 12 = month / 12 + 1 := by omega
    have name : (month + 1) % 12 = 0 := by omega
    simp only [monthStart, daysInMonth, yearStart, year, name, december, isLeap]
    split_ifs <;> omega
  · have year : (month + 1) / 12 = month / 12 := by omega
    have name : (month + 1) % 12 = month % 12 + 1 := by omega
    simp only [monthStart, daysInMonth, year, name]
    have names : month % 12 = 0 ∨ month % 12 = 1 ∨ month % 12 = 2 ∨ month % 12 = 3 ∨
        month % 12 = 4 ∨ month % 12 = 5 ∨ month % 12 = 6 ∨ month % 12 = 7 ∨ month % 12 = 8 ∨
        month % 12 = 9 ∨ month % 12 = 10 := by omega
    by_cases leap : isLeap (month / 12) <;>
      rcases names with here | here | here | here | here | here | here | here | here | here |
        here <;> simp [here, leap] <;> omega

theorem monthStart_strictMono : StrictMono monthStart := by
  refine strictMono_int_of_lt_succ fun month => ?_
  have := (daysInMonth_bounds month).1
  rw [monthStart_succ]
  omega

/-- Four centuries have 4800 months and 146097 days; no month is far from its share. -/
private theorem monthStart_near (month : Int) :
    146097 * (month - 23640) - 100000 ≤ 4800 * monthStart month ∧
      4800 * monthStart month ≤ 146097 * (month - 23640) + 100000 := by
  unfold monthStart yearStart
  split_ifs <;> omega

/-- The month of a day: the one that the average length leads to, or one beside it. -/
def monthOf (day : Int) : Int :=
  let guess := 4800 * day / 146097 + 23640
  if monthStart (guess + 1) ≤ day then guess + 1
  else if monthStart guess ≤ day then guess
  else guess - 1

theorem monthOf_bounds (day : Int) :
    monthStart (monthOf day) ≤ day ∧ day < monthStart (monthOf day + 1) := by
  have above := (monthStart_near (4800 * day / 146097 + 23640 + 1 + 1)).1
  have below := (monthStart_near (4800 * day / 146097 + 23640 - 1)).2
  unfold monthOf
  simp only
  split_ifs with first second
  · exact ⟨first, by omega⟩
  · exact ⟨second, by omega⟩
  · refine ⟨by omega, ?_⟩
    rw [Int.sub_add_cancel]
    omega

theorem monthOf_eq_iff {day month : Int} :
    monthOf day = month ↔ monthStart month ≤ day ∧ day < monthStart (month + 1) := by
  have bounds := monthOf_bounds day
  constructor
  · rintro rfl
    exact bounds
  · intro within
    have notAbove := monthStart_strictMono.lt_iff_lt.mp (bounds.1.trans_lt within.2)
    have notBelow := monthStart_strictMono.lt_iff_lt.mp (within.1.trans_lt bounds.2)
    omega

/-! ### Instants -/

section Instants
variable (dayLength : Int)

/-- The first instant of a month. -/
def beginOf (month : Int) : Int := monthStart month * dayLength

/-- The month of an instant. -/
def monthAt (instant : Int) : Int := monthOf (instant / dayLength)

/-- The same day and time some months later; the last day of the month, where it has no such
day. -/
def addMonths (instant months : Int) : Int :=
  let month := monthAt dayLength instant
  let day := instant / dayLength - monthStart month
  (monthStart (month + months) + min day (daysInMonth (month + months) - 1)) * dayLength +
    instant % dayLength

variable {dayLength}

theorem beginOf_strictMono (positive : 0 < dayLength) : StrictMono (beginOf dayLength) :=
  fun _ _ earlier => Int.mul_lt_mul_of_pos_right (monthStart_strictMono earlier) positive

theorem monthAt_eq_iff (positive : 0 < dayLength) {instant month : Int} :
    monthAt dayLength instant = month ↔
      beginOf dayLength month ≤ instant ∧ instant < beginOf dayLength (month + 1) := by
  rw [monthAt, monthOf_eq_iff, beginOf, beginOf, Int.le_ediv_iff_mul_le positive,
    Int.ediv_lt_iff_lt_mul positive]

theorem monthAt_beginOf (positive : 0 < dayLength) (month : Int) :
    monthAt dayLength (beginOf dayLength month) = month :=
  (monthAt_eq_iff positive).mpr ⟨le_rfl, beginOf_strictMono positive (by omega)⟩

/-- A day and a time of day give back what they are made of. -/
theorem ediv_of_parts (positive : 0 < dayLength) (day : Int) {time : Int} (start : 0 ≤ time)
    (stop : time < dayLength) :
    (day * dayLength + time) / dayLength = day ∧ (day * dayLength + time) % dayLength = time := by
  rw [Int.add_comm, Int.add_mul_ediv_right _ _ positive.ne', Int.add_mul_emod_self_right,
    Int.ediv_eq_zero_of_lt start stop, Int.emod_eq_of_lt start stop]
  exact ⟨Int.zero_add _, rfl⟩

theorem monthAt_addMonths (positive : 0 < dayLength) (instant months : Int) :
    monthAt dayLength (addMonths dayLength instant months) =
      monthAt dayLength instant + months := by
  have time := ediv_of_parts positive (monthStart (monthAt dayLength instant + months) +
      min (instant / dayLength - monthStart (monthAt dayLength instant))
        (daysInMonth (monthAt dayLength instant + months) - 1))
    (Int.emod_nonneg instant positive.ne') (Int.emod_lt_of_pos instant positive)
  have bounds := monthOf_bounds (instant / dayLength)
  have days := daysInMonth_bounds (monthAt dayLength instant + months)
  rw [monthAt, addMonths, time.1, monthOf_eq_iff, monthStart_succ]
  simp only [monthAt] at *
  omega

/-- Shifting a month's first day shifts the month. -/
theorem addMonths_beginOf (positive : 0 < dayLength) {time : Int} (start : 0 ≤ time)
    (stop : time < dayLength) (month months : Int) :
    addMonths dayLength (beginOf dayLength month + time) months =
      beginOf dayLength (month + months) + time := by
  have parts := ediv_of_parts positive (monthStart month) start stop
  have days := (daysInMonth_bounds month).1
  have here : monthOf (monthStart month) = month :=
    monthOf_eq_iff.mpr ⟨le_refl _, by rw [monthStart_succ]; omega⟩
  have later := (daysInMonth_bounds (month + months)).1
  simp only [addMonths, monthAt, beginOf, parts.1, parts.2, here, Int.sub_self]
  rw [min_eq_left (by omega), Int.add_zero]

/-- Shifting an instant on the last day of a month loses the days that the later month lacks. -/
theorem addMonths_before_beginOf (positive : 0 < dayLength) {time : Int} (start : 0 < time)
    (stop : time < dayLength) (month : Int) :
    addMonths dayLength (beginOf dayLength month - time) 1 = beginOf dayLength (month + 1) - time -
      max 0 (daysInMonth month - daysInMonth (month - 1)) * dayLength := by
  have split : beginOf dayLength month - time =
      (monthStart month - 1) * dayLength + (dayLength - time) := by rw [beginOf]; ring
  have parts := ediv_of_parts positive (monthStart month - 1)
    (show 0 ≤ dayLength - time by omega) (by omega)
  have before := monthStart_succ (month - 1)
  have after := monthStart_succ month
  have days := (daysInMonth_bounds (month - 1)).1
  rw [Int.sub_add_cancel] at before
  have here : monthOf (monthStart month - 1) = month - 1 :=
    monthOf_eq_iff.mpr ⟨by omega, by rw [Int.sub_add_cancel]; omega⟩
  simp only [addMonths, monthAt, split, parts.1, parts.2, here, Int.sub_add_cancel]
  have day : monthStart month + min (monthStart month - 1 - monthStart (month - 1))
      (daysInMonth month - 1) = monthStart (month + 1) - 1 -
        max 0 (daysInMonth month - daysInMonth (month - 1)) := by omega
  rw [day, beginOf]
  ring

theorem addMonths_zero (instant : Int) :
    addMonths dayLength instant 0 = instant := by
  have bounds := monthOf_bounds (instant / dayLength)
  rw [monthStart_succ] at bounds
  simp only [addMonths, monthAt, Int.add_zero]
  rw [min_eq_left (by omega), add_sub_cancel, Int.mul_comm, Int.mul_ediv_add_emod]

/-- One month more is at least 25 days more. -/
theorem addMonths_succ_ge (positive : 0 < dayLength) (instant months : Int) :
    addMonths dayLength instant months + 25 * dayLength ≤
      addMonths dayLength instant (months + 1) := by
  have bounds := monthOf_bounds (instant / dayLength)
  have days := daysInMonth_bounds (monthOf (instant / dayLength))
  have before := daysInMonth_bounds (monthOf (instant / dayLength) + months)
  have after := daysInMonth_bounds (monthOf (instant / dayLength) + months + 1)
  have next := monthStart_succ (monthOf (instant / dayLength) + months)
  rw [monthStart_succ] at bounds
  simp only [addMonths, monthAt, ← Int.add_assoc]
  rw [Int.add_right_comm, ← Int.add_mul]
  refine Int.add_le_add_right (Int.mul_le_mul_of_nonneg_right ?_ positive.le) _
  omega

theorem monthAt_mono (positive : 0 < dayLength) : Monotone (monthAt dayLength) := by
  intro first second ordered
  have early := (monthAt_eq_iff positive).mp (rfl : monthAt dayLength first = _)
  have late := (monthAt_eq_iff positive).mp (rfl : monthAt dayLength second = _)
  have := (beginOf_strictMono positive).lt_iff_lt.mp
    (early.1.trans_lt (ordered.trans_lt late.2))
  omega

end Instants
end GregorianCalendar
