import Mathlib.Data.List.Pairwise
import NestjsFastify.DecimalText
import NestjsFastify.GregorianCalendar

/-! # The partitions of `audit_logs`

`ensure_audit_log_partition` creates the partition of a month, and `CleanupTask` calls it every day
for the current month and the next two.  Postgres adds an interval to a `timestamptz` in the
session's time zone.  Instants are microseconds.
-/
namespace NestjsFastify.AuditLog
open GregorianCalendar
open DecimalText (padded)

def usPerSecond : Int := 1000000
def usPerDay : Int := 86400 * usPerSecond

private theorem usPerDay_pos : 0 < usPerDay := by decide

/-! ### The session's time zone -/

/-- The offset from UTC of every instant, in seconds, and the instant that a local time is taken
for.  A local time that the clocks skip is read with one of the offsets around. -/
structure SessionZone where
  offsetAt : Int → Int
  toInstant : Int → Int
  offsetAt_bounds : ∀ instant, -86400 < offsetAt instant ∧ offsetAt instant < 86400
  toInstant_near : ∀ localTime, ∃ offset, -86400 < offset ∧ offset < 86400 ∧
    toInstant localTime = localTime - offset * usPerSecond
  toInstant_reads : ∀ instant, ∃ read,
    toInstant (instant + offsetAt instant * usPerSecond) = read ∧
      read + offsetAt read * usPerSecond = instant + offsetAt instant * usPerSecond

def SessionZone.toLocal (zone : SessionZone) (instant : Int) : Int :=
  instant + zone.offsetAt instant * usPerSecond

/-- `timestamptz + interval` for an interval of months. -/
def SessionZone.plusMonths (zone : SessionZone) (instant months : Int) : Int :=
  if months = 0 then instant
  else zone.toInstant (addMonths usPerDay (zone.toLocal instant) months)

/-- A zone with the same offset all the time. -/
def constantZone (offset : Int) (bounds : -86400 < offset ∧ offset < 86400) : SessionZone where
  offsetAt _ := offset
  toInstant localTime := localTime - offset * usPerSecond
  offsetAt_bounds _ := bounds
  toInstant_near _ := ⟨offset, bounds.1, bounds.2, rfl⟩
  toInstant_reads instant := ⟨instant, Int.add_sub_cancel _ _, rfl⟩

/-! ### Partitions -/

structure Partition where
  name : List Char
  start : Int
  stop : Int
  deriving DecidableEq, Repr

def Partition.overlaps (first second : Partition) : Bool :=
  first.start < second.stop && second.start < first.stop

inductive PartitionError where
  | emptyRange
  | wouldOverlap
  deriving DecidableEq, Repr

/-- `to_char(instant, 'YYYY_MM')`, which writes the year before 1 as 0001. -/
def toCharYearMonth (instant : Int) : List Char :=
  let year := monthAt usPerDay instant / 12
  padded 4 (if year ≤ 0 then 1 - year else year).toNat ++
    '_' :: padded 2 (monthAt usPerDay instant % 12 + 1).toNat

/-- `pname` -/
def partitionName (start : Int) : List Char := "audit_logs_".toList ++ toCharYearMonth start

/-- The partition that `ensure_audit_log_partition` declares: `start_ts`, `end_ts` and `pname`. -/
def monthPartition (zone : SessionZone) (targetMonth : Int) : Partition where
  name := partitionName (beginOf usPerDay (monthAt usPerDay targetMonth))
  start := beginOf usPerDay (monthAt usPerDay targetMonth)
  stop := zone.plusMonths (beginOf usPerDay (monthAt usPerDay targetMonth)) 1

/-- `CREATE TABLE IF NOT EXISTS ... PARTITION OF` -/
def createPartition (partitions : List Partition) (new : Partition) :
    Except PartitionError (List Partition) :=
  if partitions.any (·.name = new.name) then .ok partitions
  else if new.stop ≤ new.start then .error .emptyRange
  else if partitions.any new.overlaps then .error .wouldOverlap
  else .ok (partitions ++ [new])

def ensureAuditLogPartition (zone : SessionZone) (targetMonth : Int)
    (partitions : List Partition) : Except PartitionError (List Partition) :=
  createPartition partitions (monthPartition zone targetMonth)

/-- The loop of `CleanupTask.ensureAuditLogPartitions`; an error ends it and is only logged.  Every
statement has its own `NOW()`. -/
def ensureOffsets (zone : SessionZone) (now : Int → Int) (partitions : List Partition) :
    List Int → List Partition
  | [] => partitions
  | offset :: offsets =>
      match ensureAuditLogPartition zone (zone.plusMonths (now offset) offset) partitions with
      | .ok partitions => ensureOffsets zone now partitions offsets
      | .error _ => partitions

def ensureAuditLogPartitions (zone : SessionZone) (now : Int → Int)
    (partitions : List Partition) : List Partition :=
  ensureOffsets zone now partitions [0, 1, 2]

/-- An audit row is refused when no partition takes its `createdAt`. -/
def acceptsRow (partitions : List Partition) (createdAt : Int) : Bool :=
  partitions.any fun partition => partition.start ≤ createdAt && createdAt < partition.stop

/-- The partitions after any number of calls; a call that fails changes nothing. -/
def ensureEach (zone : SessionZone) (partitions : List Partition) : List Int → List Partition
  | [] => partitions
  | target :: targets =>
      match ensureAuditLogPartition zone target partitions with
      | .ok partitions => ensureEach zone partitions targets
      | .error _ => ensureEach zone partitions targets

/-! ### What the partitions are for -/

/-- The partition of a month, between the first instants of it and of the next. -/
def utcPartition (month : Int) : Partition where
  name := partitionName (beginOf usPerDay month)
  start := beginOf usPerDay month
  stop := beginOf usPerDay (month + 1)

/-- The years from 1 on, which have names of their own. -/
def inCommonEra (instant : Int) : Prop := 12 ≤ monthAt usPerDay instant

instance (instant : Int) : Decidable (inCommonEra instant) := inferInstanceAs (Decidable (_ ≤ _))

/-- The partitions tile the UTC months, and a run of the task at one of the instants `runsAt`
provides for three months. -/
structure PartitionsTile (zone : SessionZone) (runsAt : Int → Prop) : Prop where
  created : ∀ target, ensureAuditLogPartition zone target [] =
    .ok [utcPartition (monthAt usPerDay target)]
  disjoint : ∀ first second, monthAt usPerDay first ≠ monthAt usPerDay second →
    (monthPartition zone first).overlaps (monthPartition zone second) = false
  adjacent : ∀ first second, monthAt usPerDay second = monthAt usPerDay first + 1 →
    (monthPartition zone first).stop = (monthPartition zone second).start
  ensured : ∀ targets, (∀ target ∈ targets, inCommonEra target) → ∀ partition,
    partition ∈ ensureEach zone [] targets ↔
      ∃ target ∈ targets, partition = utcPartition (monthAt usPerDay target)
  covered : ∀ targets, (∀ target ∈ targets, inCommonEra target) → ∀ now month, 12 ≤ month →
    (∀ offset, runsAt (now offset) ∧ monthAt usPerDay (now offset) = month) →
    ∀ createdAt, beginOf usPerDay month ≤ createdAt → createdAt < beginOf usPerDay (month + 3) →
      acceptsRow (ensureAuditLogPartitions zone now (ensureEach zone [] targets)) createdAt = true

/-- In the zone, the first instant of the month is followed by that of the next after one calendar
month: the next has the local time that the clocks show at the first, and no day is lost. -/
def ShiftsMonthStart (zone : SessionZone) (month : Int) : Prop :=
  zone.toInstant (beginOf usPerDay (month + 1) +
      zone.offsetAt (beginOf usPerDay month) * usPerSecond) = beginOf usPerDay (month + 1) ∧
    (0 ≤ zone.offsetAt (beginOf usPerDay month) ∨ daysInMonth month ≤ daysInMonth (month - 1))

/-- One and two calendar months after the instant are in the next two UTC months. -/
def ShiftsInstant (zone : SessionZone) (instant : Int) : Prop :=
  ∀ months, months = 1 ∨ months = 2 → monthAt usPerDay
    (zone.toInstant (addMonths usPerDay (zone.toLocal instant) months)) =
      monthAt usPerDay instant + months

/-! ### The bounds of a partition -/

private theorem offset_bounds (zone : SessionZone) (instant : Int) :
    -usPerDay < zone.offsetAt instant * usPerSecond ∧
      zone.offsetAt instant * usPerSecond < usPerDay := by
  have bounds := zone.offsetAt_bounds instant
  simp only [usPerDay, usPerSecond]
  omega

/-- Reading a local time never moves it by a day. -/
private theorem toInstant_bounds (zone : SessionZone) (localTime : Int) :
    localTime - usPerDay < zone.toInstant localTime ∧
      zone.toInstant localTime < localTime + usPerDay := by
  obtain ⟨offset, above, below, read⟩ := zone.toInstant_near localTime
  simp only [read, usPerDay, usPerSecond]
  omega

private theorem toLocal_bounds (zone : SessionZone) (instant : Int) :
    instant - usPerDay < zone.toLocal instant ∧ zone.toLocal instant < instant + usPerDay := by
  have bounds := offset_bounds zone instant
  simp only [SessionZone.toLocal]
  omega

theorem plusMonths_beginOf_iff (zone : SessionZone) (month : Int) :
    zone.plusMonths (beginOf usPerDay month) 1 = beginOf usPerDay (month + 1) ↔
      ShiftsMonthStart zone month := by
  obtain ⟨above, below⟩ := offset_bounds zone (beginOf usPerDay month)
  rw [SessionZone.plusMonths, if_neg (by decide), SessionZone.toLocal, ShiftsMonthStart]
  rcases lt_or_ge (zone.offsetAt (beginOf usPerDay month)) 0 with west | east
  · have early : zone.offsetAt (beginOf usPerDay month) * usPerSecond < 0 :=
      Int.mul_neg_of_neg_of_pos west (by decide)
    have shifted := addMonths_before_beginOf usPerDay_pos (Int.neg_pos_of_neg early)
      (Int.neg_lt_of_neg_lt above) month
    rw [Int.sub_neg, Int.sub_neg] at shifted
    rw [shifted]
    constructor
    · intro exact
      -- a lost day is more than any offset can make up for
      have lost : daysInMonth month ≤ daysInMonth (month - 1) := by
        by_contra longer
        have day := Int.mul_le_mul_of_nonneg_right
          (show 1 ≤ max 0 (daysInMonth month - daysInMonth (month - 1)) by omega) usPerDay_pos.le
        have near := (toInstant_bounds zone _).2.trans_eq' exact
        omega
      rw [max_eq_left (by omega), Int.zero_mul, Int.sub_zero] at exact
      exact ⟨exact, .inr lost⟩
    · rintro ⟨exact, notWest | days⟩
      · omega
      · rw [max_eq_left (by omega), Int.zero_mul, Int.sub_zero]
        exact exact
  · rw [addMonths_beginOf usPerDay_pos (Int.mul_nonneg east (by decide)) below]
    exact ⟨fun exact => ⟨exact, .inl east⟩, And.left⟩

theorem monthPartition_eq {zone : SessionZone} (exact : ∀ month, ShiftsMonthStart zone month)
    (target : Int) : monthPartition zone target = utcPartition (monthAt usPerDay target) := by
  rw [monthPartition, (plusMonths_beginOf_iff zone _).mpr (exact _), utcPartition]

theorem overlaps_utcPartition {first second : Int} (distinct : first ≠ second) :
    (utcPartition first).overlaps (utcPartition second) = false := by
  have ordered := (beginOf_strictMono usPerDay_pos).monotone
  rw [Partition.overlaps, Bool.and_eq_false_iff, decide_eq_false_iff_not, decide_eq_false_iff_not]
  rcases Int.lt_or_gt_of_ne distinct with before | after
  · exact .inr (ordered (Int.add_one_le_of_lt before)).not_gt
  · exact .inl (ordered (Int.add_one_le_of_lt after)).not_gt

theorem toCharYearMonth_injective {first second : Int} (firstEra : inCommonEra first)
    (secondEra : inCommonEra second) (same : toCharYearMonth first = toCharYearMonth second) :
    monthAt usPerDay first = monthAt usPerDay second := by
  have lengths : ∀ month : Int, (padded 2 (month % 12 + 1).toNat).length = 2 := fun month =>
    DecimalText.length_padded (by omega)
  unfold inCommonEra at firstEra secondEra
  unfold toCharYearMonth at same
  have parts := List.append_inj' same (by simp only [List.length_cons, lengths])
  have year := DecimalText.padded_injective 4 parts.1
  have name := DecimalText.padded_injective 2 (List.cons.inj parts.2).2
  rw [if_neg (by omega), if_neg (by omega)] at year
  omega

theorem utcPartition_name_injective {first second : Int} (firstEra : 12 ≤ first)
    (secondEra : 12 ≤ second) (same : (utcPartition first).name = (utcPartition second).name) :
    first = second := by
  have texts : toCharYearMonth (beginOf usPerDay first) = toCharYearMonth (beginOf usPerDay second) :=
    (List.append_right_inj _).mp same
  have months := toCharYearMonth_injective
    (by rwa [inCommonEra, monthAt_beginOf usPerDay_pos]) (by rwa [inCommonEra, monthAt_beginOf usPerDay_pos]) texts
  rwa [monthAt_beginOf usPerDay_pos, monthAt_beginOf usPerDay_pos] at months

/-! ### Creating partitions -/

/-- Every partition is that of some month. -/
def Tiled (partitions : List Partition) : Prop :=
  ∀ partition ∈ partitions, ∃ month, 12 ≤ month ∧ partition = utcPartition month

theorem createPartition_nil (new : Partition) : createPartition [] new =
    if new.stop ≤ new.start then .error .emptyRange else .ok [new] :=
  rfl

/-- The partition of a month is created, unless it is there. -/
theorem createPartition_utc {partitions : List Partition} (tiled : Tiled partitions) {month : Int}
    (era : 12 ≤ month) : ∃ created, createPartition partitions (utcPartition month) = .ok created ∧
      ∀ partition, partition ∈ created ↔ partition ∈ partitions ∨ partition = utcPartition month := by
  unfold createPartition
  split_ifs with named empty overlapping
  · obtain ⟨partition, member, name⟩ := List.any_eq_true.mp named
    obtain ⟨other, otherEra, rfl⟩ := tiled partition member
    have same := utcPartition_name_injective otherEra era (of_decide_eq_true name)
    subst same
    exact ⟨partitions, rfl, fun partition => ⟨.inl, by rintro (old | rfl) <;> assumption⟩⟩
  · exact absurd (beginOf_strictMono usPerDay_pos (Int.lt_succ month)) (Int.not_lt.mpr empty)
  · obtain ⟨partition, member, overlap⟩ := List.any_eq_true.mp overlapping
    obtain ⟨other, -, rfl⟩ := tiled partition member
    have distinct : month ≠ other := by
      rintro rfl
      exact named (List.any_eq_true.mpr ⟨_, member, decide_eq_true rfl⟩)
    exact absurd overlap (by simp [overlaps_utcPartition distinct])
  · exact ⟨_, rfl, fun partition => by simp⟩

theorem Tiled.of_mem {partitions created : List Partition} (tiled : Tiled partitions) {month : Int}
    (era : 12 ≤ month) (members : ∀ partition, partition ∈ created ↔
      partition ∈ partitions ∨ partition = utcPartition month) : Tiled created := by
  intro partition member
  rcases (members partition).mp member with old | new
  · exact tiled partition old
  · exact ⟨month, era, new⟩

theorem mem_ensureEach {zone : SessionZone} (exact : ∀ month, ShiftsMonthStart zone month)
    {targets : List Int} (era : ∀ target ∈ targets, inCommonEra target)
    {partitions : List Partition} (tiled : Tiled partitions) (partition : Partition) :
    partition ∈ ensureEach zone partitions targets ↔ partition ∈ partitions ∨
      ∃ target ∈ targets, partition = utcPartition (monthAt usPerDay target) := by
  induction targets generalizing partitions with
  | nil => simp [ensureEach]
  | cons target targets ih =>
    obtain ⟨here, others⟩ := List.forall_mem_cons.mp era
    obtain ⟨created, done, members⟩ := createPartition_utc tiled here
    simp only [ensureEach, ensureAuditLogPartition, monthPartition_eq exact, done]
    rw [ih others (tiled.of_mem here members), members]
    simp only [List.mem_cons, exists_eq_or_imp, or_assoc]

theorem mem_ensureOffsets {zone : SessionZone} (exact : ∀ month, ShiftsMonthStart zone month)
    {now : Int → Int} {offsets : List Int}
    (era : ∀ offset ∈ offsets, inCommonEra (zone.plusMonths (now offset) offset))
    {partitions : List Partition} (tiled : Tiled partitions) (partition : Partition) :
    partition ∈ ensureOffsets zone now partitions offsets ↔ partition ∈ partitions ∨
      ∃ offset ∈ offsets,
        partition = utcPartition (monthAt usPerDay (zone.plusMonths (now offset) offset)) := by
  induction offsets generalizing partitions with
  | nil => simp [ensureOffsets]
  | cons offset offsets ih =>
    obtain ⟨here, others⟩ := List.forall_mem_cons.mp era
    obtain ⟨created, done, members⟩ := createPartition_utc tiled here
    simp only [ensureOffsets, ensureAuditLogPartition, monthPartition_eq exact, done]
    rw [ih others (tiled.of_mem here members), members]
    simp only [List.mem_cons, exists_eq_or_imp, or_assoc]

/-! ### A run of the task -/

private theorem plusMonths_gt (zone : SessionZone) {months : Int} (some : months = 1 ∨ months = 2)
    (instant : Int) : instant < zone.plusMonths instant months := by
  have one : _ ≤ addMonths usPerDay (zone.toLocal instant) 1 :=
    addMonths_succ_ge usPerDay_pos (zone.toLocal instant) 0
  have two : _ ≤ addMonths usPerDay (zone.toLocal instant) 2 :=
    addMonths_succ_ge usPerDay_pos (zone.toLocal instant) 1
  have day := usPerDay_pos
  rw [addMonths_zero] at one
  have near := (toLocal_bounds zone instant).1
  rcases some with rfl | rfl
  · have read := (toInstant_bounds zone (addMonths usPerDay (zone.toLocal instant) 1)).1
    rw [SessionZone.plusMonths, if_neg (by decide)]
    omega
  · have read := (toInstant_bounds zone (addMonths usPerDay (zone.toLocal instant) 2)).1
    rw [SessionZone.plusMonths, if_neg (by decide)]
    omega

private theorem plusMonths_one_lt_two (zone : SessionZone) (instant : Int) :
    zone.plusMonths instant 1 < zone.plusMonths instant 2 := by
  have apart : _ ≤ addMonths usPerDay (zone.toLocal instant) 2 :=
    addMonths_succ_ge usPerDay_pos (zone.toLocal instant) 1
  have first := (toInstant_bounds zone (addMonths usPerDay (zone.toLocal instant) 1)).2
  have second := (toInstant_bounds zone (addMonths usPerDay (zone.toLocal instant) 2)).1
  have day := usPerDay_pos
  rw [SessionZone.plusMonths, SessionZone.plusMonths, if_neg (by decide), if_neg (by decide)]
  omega

theorem acceptsRow_iff_of_tiled {partitions : List Partition}
    (tiled : Tiled partitions) (createdAt : Int) : acceptsRow partitions createdAt = true ↔
      utcPartition (monthAt usPerDay createdAt) ∈ partitions := by
  rw [acceptsRow, List.any_eq_true]
  constructor
  · rintro ⟨partition, member, within⟩
    obtain ⟨month, -, rfl⟩ := tiled partition member
    have bounds := Bool.and_eq_true_iff.mp within
    have here : monthAt usPerDay createdAt = month := (monthAt_eq_iff usPerDay_pos).mpr
      ⟨of_decide_eq_true bounds.1, of_decide_eq_true bounds.2⟩
    rwa [here]
  · intro member
    have within := (monthAt_eq_iff usPerDay_pos).mp (rfl : monthAt usPerDay createdAt = _)
    exact ⟨_, member,
      Bool.and_eq_true_iff.mpr ⟨decide_eq_true within.1, decide_eq_true within.2⟩⟩

/-- The partitions that a run adds. -/
theorem mem_ensureAuditLogPartitions {zone : SessionZone}
    (exact : ∀ month, ShiftsMonthStart zone month) {now : Int → Int}
    (era : ∀ offset, inCommonEra (now offset)) {partitions : List Partition}
    (tiled : Tiled partitions) : Tiled (ensureAuditLogPartitions zone now partitions) ∧
      ∀ partition, partition ∈ ensureAuditLogPartitions zone now partitions ↔
        partition ∈ partitions ∨ ∃ offset ∈ [0, 1, 2],
          partition = utcPartition (monthAt usPerDay (zone.plusMonths (now offset) offset)) := by
  have late : ∀ offset ∈ [(0 : Int), 1, 2], inCommonEra (zone.plusMonths (now offset) offset) := by
    intro offset member
    simp only [List.mem_cons, List.not_mem_nil, or_false] at member
    rcases member with rfl | some
    · exact era 0
    · exact (era offset).trans (monthAt_mono usPerDay_pos (plusMonths_gt zone some _).le)
  have members := mem_ensureOffsets exact late tiled
  refine ⟨fun partition member => ?_, members⟩
  rcases (members partition).mp member with old | ⟨offset, own, rfl⟩
  · exact tiled partition old
  · exact ⟨_, late offset own, rfl⟩

private theorem tiled_ensureEach {zone : SessionZone}
    (exact : ∀ month, ShiftsMonthStart zone month) {targets : List Int}
    (era : ∀ target ∈ targets, inCommonEra target) : Tiled (ensureEach zone [] targets) := by
  intro partition member
  rcases (mem_ensureEach exact era (List.forall_mem_nil _) partition).mp member with none |
    ⟨target, own, rfl⟩
  · exact absurd none List.not_mem_nil
  · exact ⟨_, era target own, rfl⟩

/-- A run covers three months when the instants that it calls the function for are in them. -/
theorem covered_of_shiftsInstant {zone : SessionZone}
    (exact : ∀ month, ShiftsMonthStart zone month) {partitions : List Partition}
    (tiled : Tiled partitions) {now : Int → Int} {month : Int} (era : 12 ≤ month)
    (current : ∀ offset, ShiftsInstant zone (now offset) ∧ monthAt usPerDay (now offset) = month)
    {createdAt : Int} (start : beginOf usPerDay month ≤ createdAt)
    (stop : createdAt < beginOf usPerDay (month + 3)) :
    acceptsRow (ensureAuditLogPartitions zone now partitions) createdAt = true := by
  obtain ⟨after, members⟩ := @mem_ensureAuditLogPartitions zone exact now
    (fun offset => era.trans_eq (current offset).2.symm) partitions tiled
  rw [acceptsRow_iff_of_tiled after, members]
  have months : ∀ offset, offset = 0 ∨ offset = 1 ∨ offset = 2 →
      monthAt usPerDay (zone.plusMonths (now offset) offset) = month + offset := by
    rintro offset (rfl | some)
    · rw [Int.add_zero]
      exact (current 0).2
    · rw [SessionZone.plusMonths, if_neg (by omega), (current offset).1 offset some,
        (current offset).2]
  have bounds := (monthAt_eq_iff usPerDay_pos).mp (rfl : monthAt usPerDay createdAt = _)
  have low := (beginOf_strictMono usPerDay_pos).lt_iff_lt.mp (start.trans_lt bounds.2)
  have high := (beginOf_strictMono usPerDay_pos).lt_iff_lt.mp (bounds.1.trans_lt stop)
  have offset : monthAt usPerDay createdAt - month = 0 ∨ monthAt usPerDay createdAt - month = 1 ∨
      monthAt usPerDay createdAt - month = 2 := by omega
  refine .inr ⟨monthAt usPerDay createdAt - month, by simpa using offset, ?_⟩
  rw [months _ offset, add_sub_cancel]

/-- The months of a run that covers three months are these. -/
theorem shiftsInstant_of_covered {zone : SessionZone}
    (exact : ∀ month, ShiftsMonthStart zone month) {now : Int} (era : inCommonEra now)
    (covered : ∀ createdAt, beginOf usPerDay (monthAt usPerDay now) ≤ createdAt →
      createdAt < beginOf usPerDay (monthAt usPerDay now + 3) →
        acceptsRow (ensureAuditLogPartitions zone (fun _ => now) []) createdAt = true) :
    ShiftsInstant zone now := by
  obtain ⟨after, members⟩ := @mem_ensureAuditLogPartitions zone exact (fun _ => now)
    (fun _ => era) [] (List.forall_mem_nil _)
  have begins := beginOf_strictMono usPerDay_pos
  have found : ∀ months, months = 1 ∨ months = 2 → monthAt usPerDay now + months =
      monthAt usPerDay now ∨ monthAt usPerDay now + months =
        monthAt usPerDay (zone.plusMonths now 1) ∨ monthAt usPerDay now + months =
          monthAt usPerDay (zone.plusMonths now 2) := by
    intro months some
    have accepted := covered (beginOf usPerDay (monthAt usPerDay now + months))
      (begins.monotone (by omega)) (begins (by omega))
    rw [acceptsRow_iff_of_tiled after, members, monthAt_beginOf usPerDay_pos] at accepted
    simp only [List.not_mem_nil, false_or] at accepted
    obtain ⟨offset, own, same⟩ := accepted
    have month := begins.injective (congrArg Partition.start same)
    simp only [List.mem_cons, List.not_mem_nil, or_false] at own
    rcases own with rfl | rfl | rfl
    · exact .inl month
    · exact .inr (.inl month)
    · exact .inr (.inr month)
  have ordered := monthAt_mono usPerDay_pos (plusMonths_one_lt_two zone now).le
  have one := found 1 (.inl rfl)
  have two := found 2 (.inr rfl)
  rintro months (rfl | rfl)
  · change monthAt usPerDay (zone.plusMonths now 1) = _
    omega
  · change monthAt usPerDay (zone.plusMonths now 2) = _
    omega

/-- The zones in which partitions tile the UTC months. -/
theorem partitionsTile_iff (zone : SessionZone) (runsAt : Int → Prop) :
    PartitionsTile zone runsAt ↔ (∀ month, ShiftsMonthStart zone month) ∧
      ∀ now, runsAt now → inCommonEra now → ShiftsInstant zone now := by
  constructor
  · intro tile
    have exact : ∀ month, ShiftsMonthStart zone month := by
      intro month
      have created := tile.created (beginOf usPerDay month)
      rw [ensureAuditLogPartition, createPartition_nil, monthAt_beginOf usPerDay_pos] at created
      split_ifs at created
      have declared := congrArg Partition.stop (List.head_eq_of_cons_eq (Except.ok.inj created))
      rwa [monthPartition, monthAt_beginOf usPerDay_pos, utcPartition, plusMonths_beginOf_iff] at declared
    exact ⟨exact, fun now runs era => shiftsInstant_of_covered exact era fun createdAt =>
      tile.covered [] (List.forall_mem_nil _) (fun _ => now) _ era (fun _ => ⟨runs, rfl⟩) createdAt⟩
  · rintro ⟨exact, shifts⟩
    have bounds := monthPartition_eq exact
    constructor
    case created =>
      intro target
      have nonempty := beginOf_strictMono usPerDay_pos (Int.lt_succ (monthAt usPerDay target))
      rw [ensureAuditLogPartition, createPartition_nil, bounds]
      exact if_neg (Int.not_le.mpr nonempty)
    case disjoint =>
      intro first second distinct
      rw [bounds, bounds, overlaps_utcPartition distinct]
    case adjacent =>
      intro first second next
      rw [bounds, bounds, next, utcPartition, utcPartition]
    case ensured =>
      intro targets era partition
      rw [mem_ensureEach exact era (List.forall_mem_nil _) partition]
      simp only [List.not_mem_nil, false_or]
    case covered =>
      intro targets era now month late current createdAt start stop
      refine covered_of_shiftsInstant exact (tiled_ensureEach exact era) late (fun offset => ?_)
        start stop
      obtain ⟨runs, here⟩ := current offset
      exact ⟨shifts _ runs (late.trans_eq here.symm), here⟩

/-- UTC itself, to which the server is set in the compose files. -/
theorem partitionsTile_utc (runsAt : Int → Prop) :
    PartitionsTile (constantZone 0 (by decide)) runsAt := by
  refine (partitionsTile_iff _ runsAt).mpr ⟨fun month => ?_, fun now _ _ months _ => ?_⟩
  · simp [ShiftsMonthStart, constantZone]
  · simp [constantZone, SessionZone.toLocal, monthAt_addMonths usPerDay_pos]

/-- Five hours west of UTC, May 2026 ends before its last day: a run on the 15th leaves that day
without a partition. -/
theorem may_ends_early :
    acceptsRow (ensureAuditLogPartitions (constantZone (-18000) (by decide))
      (fun _ => 1778817600000000) []) 1780228800000000 = false ∧
    ¬ PartitionsTile (constantZone (-18000) (by decide)) fun _ => True := by
  have ends : (monthPartition (constantZone (-18000) (by decide)) 1778817600000000).stop =
      1780185600000000 := by decide
  refine ⟨by decide, fun tile => ?_⟩
  have adjacent := tile.adjacent 1778817600000000 1780315200000000 (by decide)
  exact absurd (ends.symm.trans adjacent) (by decide)

end NestjsFastify.AuditLog
