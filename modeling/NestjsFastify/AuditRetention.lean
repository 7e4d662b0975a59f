import NestjsFastify.AuditPartitions
import NestjsFastify.DateText
import NestjsFastify.IsoTimestamp

/-! # The retention of `audit_logs`

Every month, `CleanupTask` drops the partitions of the months that are no longer kept.  It sends the
first day of the oldest month that is kept, as text, and `drop_expired_audit_log_partitions` compares
it with the months that it reads in the names of the partitions.
-/
namespace NestjsFastify.AuditLog
open DateText (DateOrder castDate castDate_year dayOfDate)
open DecimalText (padded textValue textValue_padded)
open GregorianCalendar
open IsoTimestamp
open ScriptText (join)

/-! ### The cutoff -/

/-- An integer in a template text. -/
def integerText (number : Int) : List Char :=
  if number < 0 then '-' :: padded 1 number.natAbs else padded 1 number.natAbs

/-- `cutoff`, which may become invalid. -/
def retentionCutoff (now : Timestamp) (auditRetentionMonths : Int) : Option Timestamp := do
  let cutoff ← setUTCDate now 1
  let cutoff ← setUTCHours cutoff 0 0 0 0
  setUTCMonth cutoff (utcMonth cutoff - (auditRetentionMonths - 1))

/-- `cutoffYear` and `cutoffMonth` of a date, with two digits for the month. -/
def cutoffParts : Option Timestamp → List (List Char)
  | some cutoff => [integerText (utcFullYear cutoff), padded 2 (utcMonth cutoff + 1).toNat]
  | none => ["NaN".toList, "NaN".toList]

def cutoffDate (cutoff : Option Timestamp) : List Char :=
  join '-' (cutoffParts cutoff ++ ["01".toList])

/-! ### Dropping -/

/-- `_(0[1-9]|1[0-2])$` -/
def isMonthPart : List Char → Bool
  | ['_', '0', digit] => digit.isDigit && digit ≠ '0'
  | ['_', '1', digit] => digit = '0' || digit = '1' || digit = '2'
  | _ => false

/-- `name ~ '^audit_logs_[0-9]{4}_(0[1-9]|1[0-2])$'` -/
def isMonthlyName (name : List Char) : Bool :=
  name.take 11 = "audit_logs_".toList && ((name.drop 11).take 4).length = 4 &&
    ((name.drop 11).take 4).all Char.isDigit && isMonthPart ((name.drop 11).drop 4)

/-- `to_date(text, 'YYYY_MM')`, as a month; the year 0 is the one before the year 1. -/
def toDateYearMonth (text : List Char) : Int :=
  12 * textValue (text.take 4) + textValue (text.drop 5) - 1

/-- `DROP TABLE IF EXISTS` -/
def dropTable (name : List Char) (partitions : List Partition) : List Partition :=
  partitions.filter fun partition => partition.name ≠ name

/-- The loop over the names that are monthly, and `dropped`. -/
def dropNames (cutoffMonth : Int) : List (List Char) → List Partition → List Partition × Nat
  | [], partitions => (partitions, 0)
  | name :: names, partitions =>
    if monthStart (toDateYearMonth (name.drop 11)) < cutoffMonth then
      let (partitions, dropped) := dropNames cutoffMonth names (dropTable name partitions)
      (partitions, dropped + 1)
    else dropNames cutoffMonth names partitions

def dropExpiredAuditLogPartitions (cutoffMonth : Int) (partitions : List Partition) :
    List Partition × Nat :=
  dropNames cutoffMonth ((partitions.map (·.name)).filter isMonthlyName) partitions

/-- What a purge leaves behind. -/
structure PurgeOutcome where
  partitions : List Partition
  dropped : Nat
  message : List Char

/-- `CleanupTask.purgeAuditLogPartitions`, on the leader and with no other run under way. -/
def purgeAuditLogPartitions (order : DateOrder) (now : Timestamp) (auditRetentionMonths : Int)
    (partitions : List Partition) : PurgeOutcome :=
  let cutoff := retentionCutoff now auditRetentionMonths
  match castDate order (cutoffDate cutoff) with
  | some cutoffMonth =>
    let (partitions, dropped) := dropExpiredAuditLogPartitions cutoffMonth partitions
    { partitions
      dropped
      message := "Purged ".toList ++ padded 1 dropped ++
        " audit_logs partition(s) older than ".toList ++ join '-' (cutoffParts cutoff) }
  | none => { partitions, dropped := 0, message := "Audit partition purge failed".toList }

/-! ### The property -/

/-- The month of a partition, where the name tells one. -/
def monthOfName (name : List Char) : Option Int :=
  if isMonthlyName name then some (toDateYearMonth (name.drop 11)) else none

/-- The name tells a month before the cutoff. -/
def Partition.expired (cutoff : Int) (partition : Partition) : Bool :=
  (monthOfName partition.name).any (· < cutoff)

/-- The oldest month that is kept. -/
def oldestMonth (now : Timestamp) (auditRetentionMonths : Int) : Int :=
  monthAt msPerDay now - (auditRetentionMonths - 1)

/-- A purge drops the partitions of the months before the oldest one that is kept, and no others. -/
structure KeepsRetention (order : DateOrder) (now : Timestamp) (auditRetentionMonths : Int)
    (partitions : List Partition) : Prop where
  kept : (purgeAuditLogPartitions order now auditRetentionMonths partitions).partitions =
    partitions.filter fun partition => !partition.expired (oldestMonth now auditRetentionMonths)
  dropped : (purgeAuditLogPartitions order now auditRetentionMonths partitions).dropped =
    partitions.countP (·.expired (oldestMonth now auditRetentionMonths))
  current : ∀ partition ∈ partitions, ∀ month, monthOfName partition.name = some month →
    monthAt msPerDay now ≤ month →
      partition ∈ (purgeAuditLogPartitions order now auditRetentionMonths partitions).partitions

/-- A name that tells the drop function a month was made for that month. -/
def NamesReadBack : Prop :=
  ∀ zone target, inCommonEra target → monthOfName (monthPartition zone target).name =
    if monthAt usPerDay target < 120000 then some (monthAt usPerDay target) else none

/-! ### The day that is sent -/

variable {order : DateOrder} {now : Timestamp} {auditRetentionMonths : Int}

private theorem msPerDay_pos : 0 < msPerDay := by decide

/-- The first instant of the month is a valid date, where it is not too early. -/
private theorem begin_valid {month : Int} (readable : 1200 ≤ month)
    (past : month ≤ monthAt msPerDay now) :
    -rangeMs ≤ beginOf msPerDay month ∧ beginOf msPerDay month ≤ now := by
  have begins := beginOf_strictMono msPerDay_pos
  have here := (monthAt_eq_iff msPerDay_pos).mp (rfl : monthAt msPerDay now = _)
  have low : -rangeMs ≤ beginOf msPerDay 1200 := by decide
  exact ⟨low.trans (begins.monotone readable), (begins.monotone past).trans here.1⟩

theorem retentionCutoff_eq (positive : 1 ≤ auditRetentionMonths)
    (readable : 1200 ≤ oldestMonth now auditRetentionMonths) :
    ∃ cutoff, retentionCutoff now auditRetentionMonths = some cutoff ∧
      cutoff.val = beginOf msPerDay (oldestMonth now auditRetentionMonths) := by
  have range := now.property.2
  have time := Int.emod_nonneg now.val msPerDay_pos.ne'
  have stop := Int.emod_lt_of_pos now.val msPerDay_pos
  have whole := Int.mul_ediv_add_emod now.val msPerDay
  have past : oldestMonth now auditRetentionMonths ≤ monthAt msPerDay now := by
    unfold oldestMonth
    omega
  obtain ⟨low, high⟩ := begin_valid readable past
  obtain ⟨firstLow, firstHigh⟩ := @begin_valid now _ (readable.trans past) le_rfl
  have dayBegins : monthStart (monthAt msPerDay now) ≤ now.val / msPerDay :=
    (Int.le_ediv_iff_mul_le msPerDay_pos).mpr firstHigh
  have before := Int.mul_le_mul_of_nonneg_right dayBegins msPerDay_pos.le
  have upper : beginOf msPerDay (monthAt msPerDay now) + now.val % msPerDay ≤ now := by
    rw [Int.mul_comm] at whole
    unfold beginOf
    omega
  have parts := ediv_of_parts msPerDay_pos (monthStart (monthAt msPerDay now)) time stop
  have none := ediv_of_parts msPerDay_pos (monthStart (monthAt msPerDay now)) le_rfl msPerDay_pos
  rw [Int.add_zero] at none
  -- the first day of the month, then its first instant, then that of the earlier month
  have day : setUTCDate now 1 = some ⟨beginOf msPerDay (monthAt msPerDay now) + now.val % msPerDay,
      by omega, upper.trans range⟩ := by
    rw [setUTCDate, Int.add_sub_cancel]
    exact timeClip_eq rfl _
  have hours : ∀ date : Timestamp,
      date.val = beginOf msPerDay (monthAt msPerDay now) + now.val % msPerDay →
      setUTCHours date 0 0 0 0 = some ⟨beginOf msPerDay (monthAt msPerDay now),
        firstLow, firstHigh.trans range⟩ := by
    intro date same
    have begins : date.val / msPerDay = monthStart (monthAt msPerDay now) := same ▸ parts.1
    rw [setUTCHours, begins]
    exact timeClip_eq (by simp [beginOf]) _
  have month : ∀ date : Timestamp, date.val = beginOf msPerDay (monthAt msPerDay now) →
      setUTCMonth date (utcMonth date - (auditRetentionMonths - 1)) =
        some ⟨beginOf msPerDay (oldestMonth now auditRetentionMonths), low, high.trans range⟩ := by
    intro date same
    have number : 12 * (monthAt msPerDay now / 12) +
        (monthAt msPerDay now % 12 - (auditRetentionMonths - 1)) =
          oldestMonth now auditRetentionMonths := by
      unfold oldestMonth
      omega
    rw [setUTCMonth, utcFullYear, utcMonth, same, monthAt_beginOf msPerDay_pos, number]
    exact timeClip_eq (by simp only [beginOf, none.1, none.2, Int.sub_self, Int.add_zero]) _
  refine ⟨⟨_, low, high.trans range⟩, ?_, rfl⟩
  rw [retentionCutoff, day, Option.bind_eq_bind, Option.bind_some, hours, Option.bind_some, month]
    <;> rfl

/-- The day that is sent is the first of the oldest month that is kept. -/
theorem castDate_cutoff (order : DateOrder) (positive : 1 ≤ auditRetentionMonths)
    (readable : 1200 ≤ oldestMonth now auditRetentionMonths) :
    castDate order (cutoffDate (retentionCutoff now auditRetentionMonths)) =
      some (monthStart (oldestMonth now auditRetentionMonths)) := by
  obtain ⟨cutoff, found, instant⟩ := retentionCutoff_eq positive readable
  have month : monthAt msPerDay cutoff = oldestMonth now auditRetentionMonths := by
    rw [instant, monthAt_beginOf msPerDay_pos]
  generalize oldestMonth now auditRetentionMonths = oldest at *
  have year : utcFullYear cutoff = oldest / 12 := by rw [utcFullYear, month]
  have name : utcMonth cutoff = oldest % 12 := by rw [utcMonth, month]
  have first : "01".toList = padded 2 1 := by simp [padded]
  have late : oldest < 12 * 5874897 := by
    refine (beginOf_strictMono msPerDay_pos).lt_iff_lt.mp ?_
    have far : rangeMs < beginOf msPerDay (12 * 5874897) := by decide
    exact instant ▸ cutoff.property.2.trans_lt far
  have days := daysInMonth_bounds oldest
  rw [found, cutoffDate, cutoffParts, year, name, integerText, if_neg (by omega), first]
  refine (castDate_year order (by omega) (by omega) (by decide)).trans ?_
  have number : 12 * ((oldest / 12).natAbs : Int) + ((oldest % 12 + 1).toNat : Int) - 1 = oldest := by
    omega
  rw [dayOfDate, number, if_pos]
  · rw [Nat.cast_one, Int.add_sub_cancel]
  · exact ⟨by omega, by unfold DateText.maxYear; omega, by omega, by omega, by omega, by omega⟩

/-! ### What is dropped -/

/-- The month in the name is before the day. -/
def isEarly (cutoffMonth : Int) (name : List Char) : Bool :=
  monthStart (toDateYearMonth (name.drop 11)) < cutoffMonth

theorem dropNames_eq (cutoffMonth : Int) (names : List (List Char)) (partitions : List Partition) :
    dropNames cutoffMonth names partitions =
      (partitions.filter fun partition =>
          !(decide (partition.name ∈ names) && isEarly cutoffMonth partition.name),
        names.countP (isEarly cutoffMonth)) := by
  induction names generalizing partitions with
  | nil => simp [dropNames]
  | cons name names ih =>
    by_cases early : monthStart (toDateYearMonth (name.drop 11)) < cutoffMonth
    · have own : isEarly cutoffMonth name = true := decide_eq_true early
      rw [dropNames, if_pos early, ih, List.countP_cons_of_pos own, dropTable, List.filter_filter]
      refine Prod.ext (List.filter_congr fun partition _ => ?_) rfl
      by_cases same : partition.name = name
      · simp [same, own]
      · simp [same]
    · have own : ¬ isEarly cutoffMonth name = true := by simpa [isEarly] using early
      rw [dropNames, if_neg early, ih, List.countP_cons_of_neg own]
      refine Prod.ext (List.filter_congr fun partition _ => ?_) rfl
      by_cases same : partition.name = name
      · simp [same, own]
      · simp [same]

theorem isEarly_monthStart {oldest : Int} {partition : Partition} :
    (isMonthlyName partition.name && isEarly (monthStart oldest) partition.name) =
      partition.expired oldest := by
  rw [Partition.expired, monthOfName]
  by_cases monthly : isMonthlyName partition.name = true
  · simp [monthly, isEarly, monthStart_strictMono.lt_iff_lt]
  · simp [monthly]

theorem dropExpiredAuditLogPartitions_eq (oldest : Int) (partitions : List Partition) :
    dropExpiredAuditLogPartitions (monthStart oldest) partitions =
      (partitions.filter fun partition => !partition.expired oldest,
        partitions.countP (·.expired oldest)) := by
  rw [dropExpiredAuditLogPartitions, dropNames_eq]
  refine Prod.ext (List.filter_congr fun partition member => ?_) ?_
  · have listed : decide (partition.name ∈ (partitions.map (·.name)).filter isMonthlyName) =
        isMonthlyName partition.name := by
      have own : partition.name ∈ partitions.map (·.name) := List.mem_map_of_mem member
      rw [Bool.eq_iff_iff, decide_eq_true_iff, List.mem_filter]
      exact ⟨And.right, fun monthly => ⟨own, monthly⟩⟩
    rw [listed, isEarly_monthStart]
  · rw [List.countP_filter, List.countP_map]
    refine List.countP_congr fun partition _ => ?_
    rw [Function.comp_apply, ← isEarly_monthStart, Bool.and_comm]

/-! ### What the names tell -/

private theorem isMonthPart_padded {month : Nat} (first : 1 ≤ month) (last : month ≤ 12) :
    isMonthPart ('_' :: padded 2 month) = true := by
  have all : ∀ month ≤ 12, 1 ≤ month → isMonthPart ('_' :: padded 2 month) = true := by decide
  exact all month last first

/-- A name with four digits for the year is read, and one with more is not. -/
private theorem monthOfName_append (year : Nat) {month : Nat} (first : 1 ≤ month) (last : month ≤ 12) :
    monthOfName ("audit_logs_".toList ++ (padded 4 year ++ '_' :: padded 2 month)) =
      if year < 10000 then some (12 * year + month - 1 : Int) else none := by
  have start : ("audit_logs_".toList ++ (padded 4 year ++ '_' :: padded 2 month)).take 11 =
      "audit_logs_".toList := List.take_left' (by simp)
  have behind : ("audit_logs_".toList ++ (padded 4 year ++ '_' :: padded 2 month)).drop 11 =
      padded 4 year ++ '_' :: padded 2 month := List.drop_left' (by simp)
  have digits : ∀ digit ∈ padded 4 year, digit.isDigit = true :=
    fun _ => DecimalText.isDigit_of_mem_padded
  rw [monthOfName, isMonthlyName, start, behind]
  by_cases short : year < 10000
  · have length : (padded 4 year).length = 4 := DecimalText.length_padded short
    have all : (padded 4 year).all Char.isDigit = true := List.all_eq_true.mpr digits
    have fifth : (padded 4 year ++ '_' :: padded 2 month).drop 5 = padded 2 month := by
      rw [← List.singleton_append, ← List.append_assoc]
      exact List.drop_left' (by simp [length])
    rw [List.take_left' length, List.drop_left' length, all, length, isMonthPart_padded first last,
      if_pos short, toDateYearMonth, List.take_left' length, fifth, textValue_padded,
      textValue_padded]
    simp
  · have length : 4 < (padded 4 year).length :=
      DateText.lt_length_padded (Nat.not_lt.mp short)
    obtain ⟨digit, rest, behindFour⟩ := List.exists_cons_of_length_pos
      (show 0 < ((padded 4 year).drop 4).length by rw [List.length_drop]; omega)
    have isDigit : digit.isDigit = true :=
      digits digit (List.mem_of_mem_drop (behindFour ▸ List.mem_cons_self))
    have other : digit ≠ '_' := by
      rintro rfl
      exact absurd isDigit (by decide)
    have refused : isMonthPart ((padded 4 year ++ '_' :: padded 2 month).drop 4) = false := by
      rw [List.drop_append_of_le_length length.le, behindFour, List.cons_append]
      unfold isMonthPart
      split <;> simp_all
    rw [refused, if_neg short, Bool.and_false]
    rfl

theorem namesReadBack : NamesReadBack := by
  intro zone target era
  unfold inCommonEra at era
  generalize here : monthAt usPerDay target = month at era ⊢
  have name : (monthPartition zone target).name = "audit_logs_".toList ++
      (padded 4 (month / 12).toNat ++ '_' :: padded 2 (month % 12 + 1).toNat) := by
    change partitionName (beginOf usPerDay (monthAt usPerDay target)) = _
    rw [here]
    unfold partitionName toCharYearMonth
    congr 1
    rw [monthAt_beginOf (by decide)]
    dsimp only
    rw [if_neg (by omega)]
  rw [name, monthOfName_append _ (by omega) (by omega)]
  by_cases short : month < 120000
  · rw [if_pos short, if_pos (by omega)]
    congr 1
    omega
  · rw [if_neg short, if_neg (by omega)]

/-! ### Retention -/

theorem keepsRetention (order : DateOrder) (partitions : List Partition)
    (positive : 1 ≤ auditRetentionMonths)
    (readable : 1200 ≤ oldestMonth now auditRetentionMonths) :
    KeepsRetention order now auditRetentionMonths partitions := by
  have outcome : (purgeAuditLogPartitions order now auditRetentionMonths partitions).partitions =
      partitions.filter (fun partition =>
        !partition.expired (oldestMonth now auditRetentionMonths)) ∧
      (purgeAuditLogPartitions order now auditRetentionMonths partitions).dropped =
        partitions.countP (·.expired (oldestMonth now auditRetentionMonths)) := by
    unfold purgeAuditLogPartitions
    dsimp only
    rw [castDate_cutoff order positive readable]
    dsimp only
    rw [dropExpiredAuditLogPartitions_eq]
    exact ⟨rfl, rfl⟩
  refine ⟨outcome.1, outcome.2, fun partition member month named late => ?_⟩
  rw [outcome.1, List.mem_filter]
  refine ⟨member, ?_⟩
  have kept : ¬ month < oldestMonth now auditRetentionMonths := by
    unfold oldestMonth
    omega
  simp [Partition.expired, named, kept]

/-- Every retention that the environment may set is readable, at every time since 1970. -/
theorem readable_of_environment (epoch : 0 ≤ now.val) (most : auditRetentionMonths ≤ 120) :
    1200 ≤ oldestMonth now auditRetentionMonths := by
  have month := monthAt_mono msPerDay_pos epoch
  have first : monthAt msPerDay 0 = 23640 := by decide
  unfold oldestMonth
  omega

/-- The retention is kept whenever the oldest month has a year of three digits or more, and the
months in the names are those of the partitions. -/
theorem auditRetention_of_readable (order : DateOrder) (now : Timestamp)
    (auditRetentionMonths : Int) (partitions : List Partition) (positive : 1 ≤ auditRetentionMonths)
    (readable : 1200 ≤ oldestMonth now auditRetentionMonths) :
    KeepsRetention order now auditRetentionMonths partitions ∧ NamesReadBack :=
  ⟨keepsRetention order partitions positive readable, namesReadBack⟩

/-- The first of March 2026, at 04:30. -/
def sampleRun : Timestamp := ⟨1772339400000, by decide, by decide⟩

def january1999 : Partition where
  name := "audit_logs_1999_01".toList
  start := 915148800000000
  stop := 917827200000000

theorem auditRetention_example : KeepsRetention .mdy sampleRun 12 [january1999] ∧ NamesReadBack :=
  auditRetention_of_readable .mdy sampleRun 12 [january1999] (by decide) (by decide)

/-- With a retention that goes back to May of the year 12, the text of the cutoff is read as the fifth
of December 2001, and a partition that is to be kept is dropped. -/
theorem retention_year_of_two_digits : ¬ KeepsRetention .mdy sampleRun 24167 [january1999] := by
  intro keeps
  have dropped : (purgeAuditLogPartitions .mdy sampleRun 24167 [january1999]).partitions = [] := by
    decide
  have kept : [january1999].filter (fun partition =>
      !partition.expired (oldestMonth sampleRun 24167)) = [january1999] := by decide
  exact absurd (dropped.symm.trans (keeps.kept.trans kept)) (by simp)

end NestjsFastify.AuditLog
