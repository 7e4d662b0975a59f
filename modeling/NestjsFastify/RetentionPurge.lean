import NestjsFastify.CursorSweep
import NestjsFastify.RecordTable
import NestjsFastify.StoredFileCleanup

/-! # The retention purge

Once a day the rows that were deleted long enough ago are purged, the oldest first, in batches.  A
row whose object cannot be deleted stays, and is among the oldest again in the next batch.
-/
namespace NestjsFastify.RetentionPurge
open Upload (Location RetentionCandidate Retention StoredFileRow Uuid purgeSelects)

/-! ## `purgeSoftDeleted` -/

/-- The instant at which the row was deleted. -/
def deletedInstant (row : StoredFileRow) : Nat := row.deletedAt.getD 0

/-- `ORDER BY "deletedAt"`: rows that were deleted at the same instant come in any order. -/
structure RowOrder where
  sort : List StoredFileRow → List StoredFileRow
  perm : ∀ rows, (sort rows).Perm rows
  sorted : ∀ rows, (sort rows).Pairwise fun first second =>
    deletedInstant first ≤ deletedInstant second

structure PurgeSettings where
  retention : Retention
  batchSize : Nat
  purgeMaxBatches : Nat
  batchSize_pos : 0 < batchSize
  purgeMaxBatches_pos : 0 < purgeMaxBatches

/-- The table of the stored files, which has one row for an id, and the objects of the storage. -/
structure Files where
  rows : List StoredFileRow
  objects : List Location
  unique : (rows.map (·.id)).Nodup

/-- The rows of a batch. -/
def batchRows (settings : PurgeSettings) (now : Nat) (order : RowOrder) (files : Files) :
    List StoredFileRow :=
  (order.sort (files.rows.filter (purgeSelects settings.retention now))).take settings.batchSize

/-- Purge a candidate whose object can be deleted: the object first, the row second. -/
def Files.purge (files : Files) (candidate : RetentionCandidate) : Files where
  rows := RecordTable.deleteMany (fun row => row.id == candidate.id) files.rows
  objects := files.objects.filter (· ≠ candidate.location)
  unique := files.unique.sublist (List.filter_sublist.map _)

/-- `purgeBatch`, with the number of the candidates that were purged. -/
def purgeBatch (fails : RetentionCandidate → Bool) :
    List RetentionCandidate → Files → Files × Nat
  | [], files => (files, 0)
  | candidate :: candidates, files =>
      if fails candidate then purgeBatch fails candidates files
      else
        let (files, purged) := purgeBatch fails candidates (files.purge candidate)
        (files, purged + 1)

/-- What a run leaves behind and logs. -/
structure PurgeRun where
  files : Files
  totalPurged : Nat
  /-- The candidates of the batch that made no progress. -/
  stalled : Option Nat

/-- The loop of `purgeSoftDeleted`, with the batches that are left. -/
def purgeBatches (settings : PurgeSettings) (now : Nat) (orders : Nat → RowOrder)
    (fails : RetentionCandidate → Bool) : Nat → Files → PurgeRun
  | 0, files => { files, totalPurged := 0, stalled := none }
  | batches + 1, files =>
      let candidates :=
        (batchRows settings now (orders batches) files).map (·.retentionCandidate)
      if candidates = [] then { files, totalPurged := 0, stalled := none }
      else
        let (files, purged) := purgeBatch fails candidates files
        if purged = 0 then { files, totalPurged := 0, stalled := some candidates.length }
        else if candidates.length < settings.batchSize then
          { files, totalPurged := purged, stalled := none }
        else
          let rest := purgeBatches settings now orders fails batches files
          { rest with totalPurged := purged + rest.totalPurged }

/-- `purgeSoftDeleted`, on a leader that runs no other purge. -/
def purgeSoftDeleted (settings : PurgeSettings) (now : Nat) (orders : Nat → RowOrder)
    (fails : RetentionCandidate → Bool) (files : Files) : PurgeRun :=
  purgeBatches settings now orders fails settings.purgeMaxBatches files

/-- The runs of several days, each at its time. -/
def purgeDaily (settings : PurgeSettings) (fails : RetentionCandidate → Bool) :
    List (Nat × (Nat → RowOrder)) → Files → Files
  | [], files => files
  | (now, orders) :: days, files =>
      purgeDaily settings fails days (purgeSoftDeleted settings now orders fails files).files

/-! ## What is to hold -/

/-- The object of the row cannot be deleted. -/
def failing (fails : RetentionCandidate → Bool) (row : StoredFileRow) : Bool :=
  fails row.retentionCandidate

/-- The other row was deleted, and not after the given one. -/
def asOld (row other : StoredFileRow) : Bool :=
  other.deletedAt.isSome && decide (deletedInstant other ≤ deletedInstant row)

/-- The rows that cannot be purged and are at least as old as the given one. -/
def blocking (fails : RetentionCandidate → Bool) (files : Files) (row : StoredFileRow) : Nat :=
  files.rows.countP fun other => asOld row other && failing fails other

/-- Only rows that were due have gone, each after its object. -/
structure Purges (due : StoredFileRow → Bool) (fails : RetentionCandidate → Bool)
    (before after : Files) : Prop where
  rows : after.rows.Sublist before.rows
  objects : after.objects.Sublist before.objects
  gone : ∀ row ∈ before.rows, row ∉ after.rows →
    due row = true ∧ failing fails row = false ∧ row.location ∉ after.objects

section
variable {settings : PurgeSettings} {now : Nat} {order : RowOrder} {orders : Nat → RowOrder}
  {fails : RetentionCandidate → Bool} {due : StoredFileRow → Bool}
  {files before after later : Files} {row other : StoredFileRow}
  {batch : List StoredFileRow}

theorem Purges.refl (files : Files) : Purges due fails files files :=
  ⟨.refl _, .refl _, fun _ member gone => absurd member gone⟩

theorem Purges.trans (first : Purges due fails before after)
    (second : Purges due fails after later) :
    Purges due fails before later where
  rows := second.rows.trans first.rows
  objects := second.objects.trans first.objects
  gone row member gone := by
    by_cases there : row ∈ after.rows
    · exact second.gone row there gone
    · obtain ⟨isDue, succeeds, deleted⟩ := first.gone row member there
      exact ⟨isDue, succeeds, fun left => deleted (second.objects.subset left)⟩

/-- A row that fails stays. -/
theorem Purges.keeps (purges : Purges due fails before after) (member : row ∈ before.rows)
    (failed : failing fails row = true) : row ∈ after.rows := by
  by_contra gone
  obtain ⟨-, succeeds, -⟩ := purges.gone row member gone
  rw [failed] at succeeds
  cases succeeds

/-! ## Batches -/

theorem mem_batchRows (member : row ∈ batchRows settings now order files) :
    row ∈ files.rows ∧ purgeSelects settings.retention now row = true :=
  List.mem_filter.mp ((order.perm _).mem_iff.mp (List.mem_of_mem_take member))

/-- Rows with one id are the same row. -/
theorem Files.eq_of_id (files : Files) (first : row ∈ files.rows) (second : other ∈ files.rows)
    (same : row.id = other.id) : row = other :=
  List.inj_on_of_nodup_map files.unique first second same

theorem mem_purge :
    row ∈ (files.purge other.retentionCandidate).rows ↔ row ∈ files.rows ∧ row.id ≠ other.id := by
  simp [Files.purge, RecordTable.mem_deleteMany, StoredFileRow.retentionCandidate]

/-- One candidate is purged. -/
theorem purges_purge (member : row ∈ files.rows) (isDue : due row = true)
    (succeeds : failing fails row = false) :
    Purges due fails files (files.purge row.retentionCandidate) where
  rows := List.filter_sublist
  objects := List.filter_sublist
  gone other present gone := by
    have same : other = row := by
      refine files.eq_of_id present member ?_
      by_contra apart
      exact gone (mem_purge.mpr ⟨present, apart⟩)
    subst same
    exact ⟨isDue, succeeds, fun left => (of_decide_eq_true (List.mem_filter.mp left).2) rfl⟩

/-- What `purgeBatch` does with rows of the table: those that do not fail are purged and counted. -/
theorem purges_purgeBatch (nodup : (batch.map (·.id)).Nodup)
    (present : ∀ row ∈ batch, row ∈ files.rows) (allDue : ∀ row ∈ batch, due row = true) :
    Purges due fails files (purgeBatch fails (batch.map (·.retentionCandidate)) files).1 ∧
      (∀ row ∈ batch, failing fails row = false →
        row ∉ (purgeBatch fails (batch.map (·.retentionCandidate)) files).1.rows) ∧
      (purgeBatch fails (batch.map (·.retentionCandidate)) files).2 =
        batch.countP (fun row => !failing fails row) := by
  induction batch generalizing files with
  | nil => exact ⟨.refl _, by simp, rfl⟩
  | cons row batch ih =>
    obtain ⟨fresh, nodup⟩ := List.nodup_cons.mp nodup
    obtain ⟨rowPresent, present⟩ := List.forall_mem_cons.mp present
    obtain ⟨rowDue, allDue⟩ := List.forall_mem_cons.mp allDue
    have check : fails row.retentionCandidate = failing fails row := rfl
    simp only [List.map_cons, purgeBatch, check]
    cases failed : failing fails row with
    | true =>
      obtain ⟨purges, gone, counted⟩ := ih nodup present allDue
      refine ⟨purges, List.forall_mem_cons.mpr ⟨fun succeeds => ?_, gone⟩, ?_⟩
      · rw [failed] at succeeds
        cases succeeds
      · simp [counted, failed]
    | false =>
      have left : ∀ other ∈ batch, other ∈ (files.purge row.retentionCandidate).rows :=
        fun other member => mem_purge.mpr ⟨present other member,
          fun same => fresh (List.mem_map.mpr ⟨other, member, same⟩)⟩
      obtain ⟨purges, gone, counted⟩ := ih nodup left allDue
      refine ⟨(purges_purge rowPresent rowDue failed).trans purges,
        List.forall_mem_cons.mpr ⟨fun _ there => ?_, gone⟩, ?_⟩
      · exact (mem_purge.mp (purges.rows.subset there)).2 rfl
      · simp [counted, failed]

/-- A batch of rows that fail changes nothing. -/
theorem purgeBatch_failing (blocked : ∀ row ∈ batch, failing fails row = true) :
    purgeBatch fails (batch.map (·.retentionCandidate)) files = (files, 0) := by
  induction batch with
  | nil => rfl
  | cons row batch ih =>
    obtain ⟨first, blocked⟩ := List.forall_mem_cons.mp blocked
    rw [List.map_cons, purgeBatch, if_pos (show fails row.retentionCandidate = true from first),
      ih blocked]

/-- The ids of a batch are those of different rows. -/
theorem nodup_batchRows : ((batchRows settings now order files).map (·.id)).Nodup := by
  refine List.Nodup.sublist ((List.take_sublist _ _).map _) ?_
  refine ((order.perm _).map _).nodup_iff.mpr ?_
  exact files.unique.sublist (List.filter_sublist.map _)

/-- What a batch of the loop does. -/
theorem purges_batch :
    Purges (purgeSelects settings.retention now) fails files
        (purgeBatch fails ((batchRows settings now order files).map (·.retentionCandidate))
          files).1 ∧
      (∀ row ∈ batchRows settings now order files, failing fails row = false →
        row ∉ (purgeBatch fails ((batchRows settings now order files).map
          (·.retentionCandidate)) files).1.rows) ∧
      (purgeBatch fails ((batchRows settings now order files).map (·.retentionCandidate)) files).2 =
        (batchRows settings now order files).countP fun row => !failing fails row :=
  purges_purgeBatch nodup_batchRows (fun _ member => (mem_batchRows member).1)
    fun _ member => (mem_batchRows member).2

/-! ## Runs -/

/-- Every batch of a run purges what is due and can be purged. -/
theorem purges_purgeBatches (batches : Nat) :
    Purges (purgeSelects settings.retention now) fails files
      (purgeBatches settings now orders fails batches files).files := by
  induction batches generalizing files with
  | zero => exact .refl _
  | succ batches ih =>
    obtain ⟨purges, -, -⟩ := @purges_batch settings now (orders batches) fails files
    simp only [purgeBatches]
    split_ifs
    · exact .refl _
    · exact purges
    · exact purges
    · exact purges.trans ih

/-- The first batch of a run. -/
def firstBatch (settings : PurgeSettings) (now : Nat) (orders : Nat → RowOrder) (files : Files) :
    List StoredFileRow :=
  batchRows settings now (orders (settings.purgeMaxBatches - 1)) files

/-- A run that starts with a batch of rows that fail stops there; any other run purges the rows of
its first batch that do not fail. -/
theorem purgeSoftDeleted_first :
    (0 < (purgeSoftDeleted settings now orders fails files).totalPurged ↔
      ∃ row ∈ firstBatch settings now orders files, failing fails row = false) ∧
    (∀ row ∈ firstBatch settings now orders files, failing fails row = false →
      row ∉ (purgeSoftDeleted settings now orders fails files).files.rows) ∧
    ((∀ row ∈ firstBatch settings now orders files, failing fails row = true) →
      (purgeSoftDeleted settings now orders fails files).files = files) := by
  obtain ⟨batches, total⟩ : ∃ batches, settings.purgeMaxBatches = batches + 1 :=
    ⟨settings.purgeMaxBatches - 1, by have := settings.purgeMaxBatches_pos; omega⟩
  simp only [firstBatch, purgeSoftDeleted, total, Nat.add_sub_cancel, purgeBatches]
  obtain ⟨purges, gone, counted⟩ := @purges_batch settings now (orders batches) fails files
  have some : 0 < (batchRows settings now (orders batches) files).countP
      (fun row => !failing fails row) ↔
        ∃ row ∈ batchRows settings now (orders batches) files, failing fails row = false := by
    simp [List.countP_pos_iff]
  rw [← counted] at some
  split_ifs with empty none short
  · rw [List.map_eq_nil_iff] at empty
    simp [empty]
  · rw [none] at some
    have blocked : ∀ row ∈ batchRows settings now (orders batches) files,
        failing fails row = true := fun row member => by
      by_contra succeeds
      exact absurd (some.mpr ⟨row, member, by simpa using succeeds⟩) (Nat.lt_irrefl 0)
    exact ⟨some, gone, fun _ => by rw [purgeBatch_failing blocked]⟩
  · refine ⟨some, gone, fun blocked => absurd ?_ none⟩
    rw [purgeBatch_failing blocked]
  · have later := @purges_purgeBatches settings now orders fails
      (purgeBatch fails ((batchRows settings now (orders batches) files).map
        (·.retentionCandidate)) files).1 batches
    have positive := Nat.pos_of_ne_zero none
    refine ⟨iff_of_true (by simp only; omega) (some.mp positive),
      fun row member succeeds there => gone row member succeeds (later.rows.subset there),
      fun blocked => absurd ?_ none⟩
    rw [purgeBatch_failing blocked]

/-! ## Repeated runs -/

/-- A row that is due and not in a batch has a full batch of rows before it. -/
theorem older_of_not_mem_batchRows (member : row ∈ files.rows)
    (isDue : purgeSelects settings.retention now row = true)
    (absent : row ∉ batchRows settings now order files) :
    (batchRows settings now order files).length = settings.batchSize ∧
      ∀ other ∈ batchRows settings now order files, deletedInstant other ≤ deletedInstant row := by
  have sorted := order.sorted (files.rows.filter (purgeSelects settings.retention now))
  have found : row ∈ order.sort (files.rows.filter (purgeSelects settings.retention now)) :=
    (order.perm _).mem_iff.mpr (List.mem_filter.mpr ⟨member, isDue⟩)
  rw [← List.take_append_drop settings.batchSize (order.sort _)] at found sorted
  have behind := (List.mem_append.mp found).resolve_left absent
  refine ⟨?_, fun other before => (List.pairwise_append.mp sorted).2.2 other before row behind⟩
  have long := List.length_pos_of_mem behind
  rw [List.length_drop] at long
  rw [batchRows, List.length_take]
  omega

theorem isSome_of_due (isDue : purgeSelects settings.retention now row = true) :
    row.deletedAt.isSome = true := by
  obtain ⟨instant, same, -⟩ := (Option.any_eq_true _ _).mp isDue
  rw [same, Option.isSome_some]

/-- If fewer rows than a batch has block the row, its run purges one of the rows that are as old as
it is, or the row itself. -/
theorem exists_purged (member : row ∈ files.rows)
    (isDue : purgeSelects settings.retention now row = true)
    (succeeds : failing fails row = false) (few : blocking fails files row < settings.batchSize) :
    ∃ other ∈ firstBatch settings now orders files, failing fails other = false ∧
      deletedInstant other ≤ deletedInstant row := by
  by_cases there : row ∈ firstBatch settings now orders files
  · exact ⟨row, there, succeeds, le_refl _⟩
  · obtain ⟨full, older⟩ := older_of_not_mem_batchRows member isDue there
    by_contra none
    have blocked : ∀ other ∈ firstBatch settings now orders files, failing fails other = true := by
      intro other member
      by_contra succeeds
      exact none ⟨other, member, by simpa using succeeds, older other member⟩
    have counted : (batchRows settings now (orders (settings.purgeMaxBatches - 1)) files) ⊆
        files.rows.filter fun other => asOld row other && failing fails other := by
      intro other member
      obtain ⟨present, otherDue⟩ := mem_batchRows member
      refine List.mem_filter.mpr ⟨present, ?_⟩
      simp [asOld, isSome_of_due otherDue, blocked other member, older other member]
    have long := (List.subperm_of_subset nodup_batchRows.of_map counted).length_le
    rw [full, ← List.countP_eq_length_filter] at long
    exact absurd few (not_lt.mpr long)

/-- The rows that can be purged and are at least as old as the given one. -/
def reachable (fails : RetentionCandidate → Bool) (files : Files) (row : StoredFileRow) : Nat :=
  files.rows.countP fun other => asOld row other && !failing fails other

/-- Every run brings the row closer to the first batch until it is purged. -/
theorem reachable_lt (member : row ∈ files.rows)
    (isDue : purgeSelects settings.retention now row = true)
    (succeeds : failing fails row = false) (few : blocking fails files row < settings.batchSize) :
    reachable fails (purgeSoftDeleted settings now orders fails files).files row <
      reachable fails files row := by
  obtain ⟨other, first, otherSucceeds, older⟩ :=
    @exists_purged settings now orders fails files row member isDue succeeds few
  obtain ⟨present, otherDue⟩ := mem_batchRows first
  have gone := (@purgeSoftDeleted_first settings now orders fails files).2.1 other first
    otherSucceeds
  have fewer := (@purges_purgeBatches settings now orders fails files
    settings.purgeMaxBatches).rows
  rw [reachable, reachable, List.countP_eq_length_filter, List.countP_eq_length_filter]
  by_contra many
  have same := (fewer.filter _).eq_of_length_le (not_lt.mp many)
  have counted : other ∈ files.rows.filter fun other => asOld row other && !failing fails other :=
    List.mem_filter.mpr ⟨present, by simp [asOld, isSome_of_due otherDue, otherSucceeds, older]⟩
  rw [← same] at counted
  exact gone (List.mem_filter.mp counted).1

theorem sublist_purgeDaily (days : List (Nat × (Nat → RowOrder))) :
    (purgeDaily settings fails days files).rows.Sublist files.rows ∧
      (purgeDaily settings fails days files).objects.Sublist files.objects := by
  induction days generalizing files with
  | nil => exact ⟨.refl _, .refl _⟩
  | cons day days ih =>
    have purges := @purges_purgeBatches settings day.1 day.2 fails files settings.purgeMaxBatches
    obtain ⟨rows, objects⟩ := @ih (purgeSoftDeleted settings day.1 day.2 fails files).files
    exact ⟨rows.trans purges.rows, objects.trans purges.objects⟩

/-- After as many runs as there are rows to be purged before it, a row that fewer rows than a batch
has block is gone, and its object before it. -/
theorem gone_of_purgeDaily {days : List (Nat × (Nat → RowOrder))} (member : row ∈ files.rows)
    (isDue : ∀ day ∈ days, purgeSelects settings.retention day.1 row = true)
    (some : row.deletedAt.isSome = true) (succeeds : failing fails row = false)
    (few : blocking fails files row < settings.batchSize)
    (enough : reachable fails files row ≤ days.length) :
    row ∉ (purgeDaily settings fails days files).rows ∧
      row.location ∉ (purgeDaily settings fails days files).objects := by
  induction days generalizing files with
  | nil =>
    have positive : 0 < reachable fails files row :=
      List.countP_pos_iff.mpr ⟨row, member, by simp [asOld, some, succeeds]⟩
    exact absurd enough (by simpa using positive.ne')
  | cons day days ih =>
    obtain ⟨dueNow, dueLater⟩ := List.forall_mem_cons.mp isDue
    have purges := @purges_purgeBatches settings day.1 day.2 fails files settings.purgeMaxBatches
    by_cases there : row ∈ (purgeSoftDeleted settings day.1 day.2 fails files).files.rows
    · have closer := @reachable_lt settings day.1 day.2 fails files row member dueNow succeeds few
      have fewer : blocking fails (purgeSoftDeleted settings day.1 day.2 fails files).files row ≤
        blocking fails files row := purges.rows.countP_le
      exact ih there dueLater (by omega) (by simp only [List.length_cons] at enough; omega)
    · obtain ⟨-, -, deleted⟩ := purges.gone row member there
      obtain ⟨rows, objects⟩ := @sublist_purgeDaily settings fails
        (purgeSoftDeleted settings day.1 day.2 fails files).files days
      exact ⟨fun left => there (rows.subset left), fun left => deleted (objects.subset left)⟩

/-! ## The purge -/

/-- The laws of a run and of the runs after it. -/
structure PurgeLaws (settings : PurgeSettings) (fails : RetentionCandidate → Bool)
    (now : Nat) (orders : Nat → RowOrder) (files : Files) : Prop where
  safe : Purges (purgeSelects settings.retention now) fails files
    (purgeSoftDeleted settings now orders fails files).files
  keeps : ∀ row ∈ files.rows, failing fails row = true →
    row ∈ (purgeSoftDeleted settings now orders fails files).files.rows
  progress : (∃ row ∈ files.rows, failing fails row = false ∧
      row ∉ (purgeSoftDeleted settings now orders fails files).files.rows) ↔
    ∃ row ∈ firstBatch settings now orders files, failing fails row = false
  unblocked : (∃ row ∈ files.rows, purgeSelects settings.retention now row = true ∧
      failing fails row = false ∧ blocking fails files row < settings.batchSize) →
    ∃ row ∈ firstBatch settings now orders files, failing fails row = false
  daily : ∀ days, ∀ row ∈ files.rows, row.deletedAt.isSome = true → failing fails row = false →
    (∀ day ∈ days, purgeSelects settings.retention day.1 row = true) →
    blocking fails files row < settings.batchSize → reachable fails files row ≤ days.length →
      row ∉ (purgeDaily settings fails days files).rows ∧
        row.location ∉ (purgeDaily settings fails days files).objects

/-- The retention purge deletes no row before its object, and every row that is due and that fewer
rows than a batch has block. -/
theorem retentionPurge_laws (settings : PurgeSettings) (fails : RetentionCandidate → Bool)
    (now : Nat) (orders : Nat → RowOrder) (files : Files) :
    PurgeLaws settings fails now orders files := by
  have purges := @purges_purgeBatches settings now orders fails files settings.purgeMaxBatches
  obtain ⟨-, gone, stalled⟩ := @purgeSoftDeleted_first settings now orders fails files
  exact {
    safe := purges
    keeps := fun row member failed => purges.keeps member failed
    progress := by
      constructor
      · rintro ⟨row, member, succeeds, left⟩
        by_contra none
        refine left ((stalled fun other first => ?_).symm ▸ member)
        by_contra otherSucceeds
        exact none ⟨other, first, by simpa using otherSucceeds⟩
      · rintro ⟨row, first, succeeds⟩
        exact ⟨row, (mem_batchRows first).1, succeeds, gone row first succeeds⟩
    unblocked := by
      rintro ⟨row, member, isDue, succeeds, few⟩
      obtain ⟨other, first, otherSucceeds, -⟩ := exists_purged member isDue succeeds few
      exact ⟨other, first, otherSucceeds⟩
    daily := fun days row member some succeeds isDue few enough =>
      gone_of_purgeDaily member isDue some succeeds few enough }

end

/-! ## A batch of rows that fail -/

/-- Rows of the same instant in the order in which they are in the table. -/
def RowOrder.stable : RowOrder where
  sort := CursorSweep.orderBy deletedInstant
  perm := CursorSweep.perm_orderBy deletedInstant
  sorted := CursorSweep.pairwise_orderBy deletedInstant

def numberedId (number : Nat) : Uuid where
  text := "019a0f6e-3c1b-7d2e-9b7a-5f4e3d2c1b0" ++ String.singleton number.digitChar
  length := by
    rw [String.length_append, String.length_singleton]
    decide +kernel

/-- The row that was deleted at the instant `number`. -/
def numberedRow (number : Nat) : StoredFileRow where
  id := numberedId number
  organizationId := "organization"
  userId := numberedId 15
  sourceKey := "uploads/staged.png"
  key := "files/" ++ (numberedId number).text ++ ".png"
  bucket := "uploads"
  contentType := "image/png"
  size := 1
  etag := "etag"
  status := .ready
  deletedAt := some number
  updatedAt := number

def elevenFiles : Files where
  rows := (List.range 11).map numberedRow
  objects := (List.range 11).map fun number => (numberedRow number).location
  unique := by decide +kernel

def smallBatches : PurgeSettings where
  retention := {}
  batchSize := 10
  purgeMaxBatches := 200
  batchSize_pos := by decide
  purgeMaxBatches_pos := by decide

/-- Ten old rows that fail keep the run from the row behind them. -/
theorem blocked_run :
    ¬∀ settings fails now orders files,
      (∃ row ∈ files.rows, purgeSelects settings.retention now row = true ∧
        failing fails row = false) →
      ∃ row ∈ files.rows, failing fails row = false ∧
        row ∉ (purgeSoftDeleted settings now orders fails files).files.rows := by
  intro all
  have last : numberedRow 10 ∈ elevenFiles.rows :=
    List.mem_map_of_mem (List.mem_range.mpr (by decide))
  obtain ⟨row, member, -, gone⟩ := all smallBatches (fun candidate => candidate.id ≠ numberedId 10)
    (31 * 86400000) (fun _ => .stable) elevenFiles
    ⟨numberedRow 10, last, by decide +kernel, by decide +kernel⟩
  have same : (purgeSoftDeleted smallBatches (31 * 86400000) (fun _ => .stable)
      (fun candidate => candidate.id ≠ numberedId 10) elevenFiles).files.rows = elevenFiles.rows := by
    decide +kernel
  exact gone (same ▸ member)

end NestjsFastify.RetentionPurge
