import Mathlib.Data.List.Dedup
import NestjsFastify.StoredFileStore
import NestjsFastify.TransactionCourse

/-! # Publication of an upload batch

All files of a batch leave the status `FINALIZING` by one statement, and the call fails if the
statement has found fewer of them than there are.  Whether the rows that it did find keep their new
status then depends on the transaction that it ran in.
-/
namespace NestjsFastify.Upload
open Prisma

/-- The rows of `stored_files`; the id is their primary key. -/
structure StoredFileTable where
  rows : List StoredFileRow
  distinct : (rows.map (·.id)).Nodup

/-- The database as a request sees it.  The client of a transaction stands for the rows as the
transaction has left them. -/
structure Session where
  table : StoredFileTable
  contexts : TransactionContexts StoredFileTable
  surroundings : Surroundings
  now : Nat

/-- `'READY' | 'VERIFYING'` -/
inductive PublishedStatus where
  | ready
  | verifying
  deriving DecidableEq, Repr

def PublishedStatus.toStatus : PublishedStatus → StoredFileStatus
  | ready => .ready
  | verifying => .verifying

theorem PublishedStatus.toStatus_ne (status : PublishedStatus) :
    status.toStatus ≠ .finalizing := by
  cases status <;> decide

/-! ## The call -/

def StoredFileTable.updateMany (table : StoredFileTable) (condition : Where) (data : Data)
    (now : Nat) : StoredFileTable where
  rows := RecordTable.updateMany condition.selects (data.apply now) table.rows
  distinct := by
    have same : (RecordTable.updateMany condition.selects (data.apply now) table.rows).map (·.id) =
        table.rows.map (·.id) := by
      rw [RecordTable.updateMany, List.map_map]
      refine List.map_congr_left fun row _ => ?_
      simp only [Function.comp_apply]
      split <;> rfl
    exact same ▸ table.distinct

/-- A function that writes is run as the service decides: a transaction of its own is rolled back
if the function fails, but one that it joined is its owner's. -/
def Session.write (session : Session)
    (body : StoredFileTable → StoredFileTable × Except Failure Unit) :
    Session × Except Failure Unit :=
  match run session.surroundings session.contexts false with
  | .joined client _ =>
      ({ session with contexts.transaction := some (body client).1 }, (body client).2)
  | .opened _ _ =>
      match body session.table with
      | (after, .ok ()) => ({ session with table := after }, .ok ())
      | (_, .error failure) => (session, .error failure)
  | .direct _ => ({ session with table := (body session.table).1 }, (body session.table).2)
  | .refused failure => (session, .error failure)

/-- The `where` of the update. -/
def finalizingIn (ids : List Uuid) : Where :=
  { ids := some ids, status := some .finalizing, live := true }

/-- The function that `publishBatch` hands to `run`. -/
def publishRows (ids : List Uuid) (status : PublishedStatus) (now : Nat)
    (table : StoredFileTable) : StoredFileTable × Except Failure Unit :=
  (table.updateMany (finalizingIn ids) { status := some status.toStatus } now,
    if RecordTable.updatedCount (finalizingIn ids).selects table.rows ≠ ids.length then
      .error (.error "Upload batch changed before publication")
    else .ok ())

def publishBatch (session : Session) (ids : List Uuid) (status : PublishedStatus) :
    Session × Except Failure Unit :=
  if ids.length = 0 ∨ ids.dedup.length ≠ ids.length then
    (session, .error (.error "Upload publication requires a nonempty set of distinct IDs"))
  else session.write (publishRows ids status session.now)

/-! ## All or nothing -/

/-- The rows that the call sees. -/
def Session.view (session : Session) : StoredFileTable :=
  session.contexts.transaction.getD session.table

/-- What the database holds in the end: the owner of a transaction that was joined commits it,
unless there is an error and it does not catch it. -/
def Session.settled (session : Session) (ownerCatches : Bool) : Except Failure Unit →
    StoredFileTable
  | .ok () => session.view
  | .error _ =>
      if session.contexts.transaction.isSome && !ownerCatches then session.table else session.view

def StoredFileTable.statuses (table : StoredFileTable) : List (Uuid × StoredFileStatus) :=
  table.rows.map fun row => (row.id, row.status)

/-- All listed rows are there and have been moved to a status, and no other row. -/
def Moved (ids : List Uuid) (status : PublishedStatus) (before after : StoredFileTable) : Prop :=
  (∀ id ∈ ids, id ∈ before.rows.map (·.id)) ∧
    after.statuses = before.rows.map fun row =>
      (row.id, if row.id ∈ ids then status.toStatus else row.status)

/-- The call moves every listed row, or it throws and leaves the status of every row. -/
def AllOrNothing (session : Session) (ownerCatches : Bool) (ids : List Uuid)
    (status : PublishedStatus) : Prop :=
  match publishBatch session ids status with
  | (after, .ok ()) =>
      Moved ids status (session.settled ownerCatches (.ok ())) (after.settled ownerCatches (.ok ()))
  | (after, .error failure) =>
      (after.settled ownerCatches (.error failure)).statuses =
        (session.settled ownerCatches (.error failure)).statuses

/-- A write that fails is undone: it has a transaction of its own, or the owner of the one that it
joins does not catch the error. -/
def Session.Undoes (session : Session) (ownerCatches : Bool) : Prop :=
  if session.contexts.transaction.isSome then ownerCatches = false
  else session.surroundings.hasTenantContext = true

/-- The row with an id is there, neither published, rejected nor deleted. -/
def StoredFileTable.Publishable (table : StoredFileTable) (id : Uuid) : Prop :=
  ∃ row ∈ table.rows, row.id = id ∧ row.status = .finalizing ∧ row.deletedAt = none

theorem finalizingIn_selects {ids : List Uuid} {row : StoredFileRow} :
    (finalizingIn ids).selects row = true ↔
      row.id ∈ ids ∧ row.status = .finalizing ∧ row.deletedAt = none := by
  simp only [finalizingIn, Where.selects, Option.all_none, Option.all_some, Bool.true_and,
    Bool.and_true, Bool.not_true, Bool.false_or, Bool.and_eq_true, List.contains_iff_mem,
    beq_iff_eq, Option.isNone_iff_eq_none, and_assoc]
  rw [show StoredFileStatus.finalizing = row.status ↔ row.status = .finalizing from eq_comm]

/-- The count is right just if all listed rows can be published. -/
theorem updatedCount_finalizingIn {table : StoredFileTable} {ids : List Uuid}
    (distinct : ids.Nodup) :
    RecordTable.updatedCount (finalizingIn ids).selects table.rows = ids.length ↔
      ∀ id ∈ ids, table.Publishable id := by
  rw [RecordTable.updatedCount_eq_length_iff (·.id) table.distinct distinct fun row chosen =>
    (finalizingIn_selects.mp chosen).1]
  refine forall₂_congr fun id member => exists_congr fun row => and_congr_right fun _ => ?_
  rw [finalizingIn_selects]
  constructor
  · rintro ⟨⟨-, status, live⟩, same⟩
    exact ⟨same, status, live⟩
  · rintro ⟨rfl, status, live⟩
    exact ⟨⟨member, status, live⟩, rfl⟩

theorem statuses_updateMany (table : StoredFileTable) (ids : List Uuid) (status : PublishedStatus)
    (now : Nat) :
    (table.updateMany (finalizingIn ids) { status := some status.toStatus } now).statuses =
      table.rows.map fun row =>
        (row.id, if (finalizingIn ids).selects row then status.toStatus else row.status) := by
  simp only [StoredFileTable.statuses, StoredFileTable.updateMany, RecordTable.updateMany,
    List.map_map]
  refine List.map_congr_left fun row _ => ?_
  simp only [Function.comp_apply]
  split <;> rfl

/-- The update leaves all statuses just if it finds no listed row that can be published. -/
theorem statuses_updateMany_eq_iff {table : StoredFileTable} {ids : List Uuid}
    {status : PublishedStatus} {now : Nat} :
    (table.updateMany (finalizingIn ids) { status := some status.toStatus } now).statuses =
      table.statuses ↔ ∀ id ∈ ids, ¬ table.Publishable id := by
  rw [statuses_updateMany, StoredFileTable.statuses, List.map_inj_left]
  constructor
  · rintro same _ member ⟨row, rowMem, rfl, finalizing, live⟩
    have moved := same row rowMem
    rw [if_pos (finalizingIn_selects.mpr ⟨member, finalizing, live⟩), finalizing] at moved
    exact status.toStatus_ne (Prod.mk.inj moved).2
  · intro none row rowMem
    rw [if_neg]
    intro chosen
    obtain ⟨member, finalizing, live⟩ := finalizingIn_selects.mp chosen
    exact none row.id member ⟨row, rowMem, rfl, finalizing, live⟩

/-- An update that finds all listed rows moves them. -/
theorem moved_of_publishable {table : StoredFileTable} {ids : List Uuid}
    {status : PublishedStatus} {now : Nat} (all : ∀ id ∈ ids, table.Publishable id) :
    Moved ids status table
      (table.updateMany (finalizingIn ids) { status := some status.toStatus } now) := by
  constructor
  · intro id member
    obtain ⟨row, rowMem, same, -⟩ := all id member
    exact List.mem_map.mpr ⟨row, rowMem, same⟩
  · rw [statuses_updateMany]
    refine List.map_congr_left fun row rowMem => ?_
    have selected : (finalizingIn ids).selects row = true ↔ row.id ∈ ids := by
      refine ⟨fun chosen => (finalizingIn_selects.mp chosen).1, fun member => ?_⟩
      obtain ⟨found, foundMem, same, finalizing, live⟩ := all row.id member
      obtain rfl : found = row := List.inj_on_of_nodup_map table.distinct foundMem rowMem same
      exact finalizingIn_selects.mpr ⟨member, finalizing, live⟩
    simp only [selected]

theorem length_dedup_eq_iff {ids : List Uuid} : ids.dedup.length = ids.length ↔ ids.Nodup := by
  rw [← List.dedup_eq_self]
  exact ⟨(List.dedup_sublist ids).eq_of_length, congrArg List.length⟩

/-- What `publishRows` does is all or nothing, if what it has done stays, just if it finds all
listed rows or none. -/
theorem publishRows_cases (table : StoredFileTable) {ids : List Uuid} (status : PublishedStatus)
    (now : Nat) (distinct : ids.Nodup) :
    (∀ id ∈ ids, table.Publishable id) ∧
        (publishRows ids status now table).2 = .ok () ∧
        Moved ids status table (publishRows ids status now table).1 ∨
      (¬ ∀ id ∈ ids, table.Publishable id) ∧
        ∃ failure, (publishRows ids status now table).2 = .error failure ∧
          ((publishRows ids status now table).1.statuses = table.statuses ↔
            ∀ id ∈ ids, ¬ table.Publishable id) := by
  by_cases all : ∀ id ∈ ids, table.Publishable id
  · exact .inl ⟨all, if_neg (not_not.mpr ((updatedCount_finalizingIn distinct).mpr all)),
      moved_of_publishable all⟩
  · exact .inr ⟨all, _, if_pos fun counted => all ((updatedCount_finalizingIn distinct).mp counted),
      statuses_updateMany_eq_iff⟩

/-- Publication is all or nothing just if a write that fails is undone, the ids are refused, or
either all listed rows can be published or none. -/
theorem allOrNothing_iff (session : Session) (ownerCatches : Bool) (ids : List Uuid)
    (status : PublishedStatus) :
    AllOrNothing session ownerCatches ids status ↔
      session.Undoes ownerCatches ∨ ids = [] ∨ ¬ ids.Nodup ∨
        (∀ id ∈ ids, session.view.Publishable id) ∨ ∀ id ∈ ids, ¬ session.view.Publishable id := by
  by_cases refused : ids.length = 0 ∨ ids.dedup.length ≠ ids.length
  · have invalid : ids = [] ∨ ¬ ids.Nodup :=
      refused.imp List.length_eq_zero_iff.mp fun repeated => mt length_dedup_eq_iff.mpr repeated
    have kept : AllOrNothing session ownerCatches ids status := by
      simp only [AllOrNothing, publishBatch, if_pos refused]
    exact iff_of_true kept (.inr (invalid.imp_right .inl))
  · obtain ⟨some, unrepeated⟩ := not_or.mp refused
    have distinct : ids.Nodup := length_dedup_eq_iff.mp (not_not.mp unrepeated)
    have nonempty : ids ≠ [] := mt List.length_eq_zero_iff.mpr some
    have outcome := publishRows_cases session.view status session.now distinct
    have call : publishBatch session ids status =
        session.write (publishRows ids status session.now) := if_neg refused
    have claims : session.Undoes ownerCatches ∨ ids = [] ∨ ¬ ids.Nodup ∨
        (∀ id ∈ ids, session.view.Publishable id) ∨ (∀ id ∈ ids, ¬ session.view.Publishable id) ↔
          session.Undoes ownerCatches ∨ (∀ id ∈ ids, session.view.Publishable id) ∨
            ∀ id ∈ ids, ¬ session.view.Publishable id := by
      simp only [nonempty, distinct, not_true, false_or]
    rw [claims, AllOrNothing, call]
    rcases run_write session.surroundings session.contexts with
      ⟨client, opened, course⟩ | ⟨closed, ⟨carried, course⟩ | ⟨carried, course⟩ |
        ⟨organizationId, carried, course⟩⟩
    · have view : session.view = client := by simp [Session.view, opened]
      have undoes : session.Undoes ownerCatches ↔ ownerCatches = false := by
        simp [Session.Undoes, opened]
      rw [view] at outcome
      rw [view, undoes, Session.write, course]
      rcases outcome with ⟨all, result, moved⟩ | ⟨missing, failure, result, same⟩
      · refine iff_of_true ?_ (.inr (.inl all))
        simpa [result, Session.settled, Session.view, opened] using moved
      · cases ownerCatches with
        | false => exact iff_of_true (by simp [result, Session.settled, opened]) (.inl rfl)
        | true =>
          simp only [missing, Bool.true_eq_false, false_or, ← same]
          simp [result, Session.settled, Session.view, opened]
    · have view : session.view = session.table := by simp [Session.view, closed]
      have undoes : ¬ session.Undoes ownerCatches := by
        simp [Session.Undoes, closed, Surroundings.hasTenantContext, carried]
      rw [view] at outcome
      rw [view, Session.write, course]
      rcases outcome with ⟨all, result, moved⟩ | ⟨missing, failure, result, same⟩
      · refine iff_of_true ?_ (.inr (.inl all))
        simpa [result, Session.settled, Session.view, closed] using moved
      · simp only [undoes, missing, false_or, ← same]
        simp [result, Session.settled, Session.view, closed]
    · refine iff_of_true ?_ (.inl ?_)
      · simp only [Session.write, course]
      · simp [Session.Undoes, closed, Surroundings.hasTenantContext, carried]
    · refine iff_of_true ?_ (.inl ?_)
      · have view : session.view = session.table := by simp [Session.view, closed]
        rw [view] at outcome
        rw [Session.write, course]
        rcases outcome with ⟨all, result, moved⟩ | ⟨missing, failure, result, same⟩
        · rw [← Prod.mk.eta (p := publishRows ids status session.now session.table), result]
          simpa [Session.settled, Session.view, closed] using moved
        · rw [← Prod.mk.eta (p := publishRows ids status session.now session.table), result]
      · simp [Session.Undoes, closed, Surroundings.hasTenantContext, carried]

/-! ## A batch that is published in part -/

def batchIds : List Uuid :=
  [⟨"019a0f6e-3c1b-7d2e-9b7a-5f4e3d2c1b0a", by decide⟩,
   ⟨"019a0f6e-3c1b-7d2e-9b7a-5f4e3d2c1b0b", by decide⟩]

/-- A file of the batch, whose owner may have deleted it. -/
def batchRow (id : Uuid) (name : String) (deletedAt : Option Nat) : StoredFileRow :=
  { id, organizationId := "org-1", userId := id, sourceKey := name, key := name, bucket := "uploads"
    contentType := "image/png", size := 8, etag := "", status := .finalizing, deletedAt
    updatedAt := 1 }

/-- The second file has been deleted, and the request has no tenant context. -/
def changedBatch : Session where
  table := {
    rows := [batchRow batchIds[0] "a.png" none, batchRow batchIds[1] "b.png" (some 2)]
    distinct := by decide }
  contexts := {}
  surroundings := { organizationId := none, hasReplica := false }
  now := 3

/-- The call throws, and the first file stays published. -/
theorem changedBatch_published : ¬ AllOrNothing changedBatch true batchIds .ready := by
  have published : ((publishBatch changedBatch batchIds .ready).1.settled true
      (publishBatch changedBatch batchIds .ready).2).statuses =
        [(batchIds[0], .ready), (batchIds[1], .finalizing)] := by decide
  have before : changedBatch.table.statuses =
      [(batchIds[0], .finalizing), (batchIds[1], .finalizing)] := by decide
  intro whole
  have same : ((publishBatch changedBatch batchIds .ready).1.settled true
      (publishBatch changedBatch batchIds .ready).2).statuses = changedBatch.table.statuses := whole
  rw [published, before] at same
  exact absurd same (by decide)

end NestjsFastify.Upload
