import NestjsFastify.StoredFileChanges
import NestjsFastify.UploadSystem

/-! # What holds of the table and the storage at all times

A row keeps everything but its status and its timestamps, REJECTED and soft-deleted rows stay so
until they are removed, and every published object and every verification job was once the object
and the job of a row.  All of this is kept by any request that is lawful.
-/
namespace NestjsFastify.Upload

/-- What a revision of a row keeps. -/
structure Revises (limits : UploadLimits) (old new : StoredFileRow) : Prop where
  identity : new.identity = old.identity
  rejected : old.status = .rejected → new.status = .rejected
  deleted : old.deletedAt.isSome → new.deletedAt.isSome
  verifying : limits.malwareScanEnabled = false → new.status = .verifying →
    old.status = .verifying

theorem Revises.refl {limits : UploadLimits} (row : StoredFileRow) : Revises limits row row :=
  ⟨rfl, id, id, fun _ => id⟩

/-- The invariant of the store.  `versions` holds all rows that ever were in the table. -/
structure WellFormed (limits : UploadLimits) (store : Store) : Prop where
  unique : RecordTable.Unique conflicts store.rows
  recorded : ∀ row ∈ store.rows, row ∈ store.versions
  issued : ∀ version ∈ store.versions, version.id ∈ store.issued
  keyed : ∀ version ∈ store.versions,
    ∃ extension, version.key = publishedKey version.userId version.id extension
  identity : ∀ first ∈ store.versions, ∀ second ∈ store.versions, first.id = second.id →
    first.identity = second.identity
  rejected : ∀ version ∈ store.versions, version.status = .rejected →
    ∀ row ∈ store.rows, row.id = version.id → row.status = .rejected
  deleted : ∀ version ∈ store.versions, version.deletedAt.isSome →
    ∀ row ∈ store.rows, row.id = version.id → row.deletedAt.isSome
  verifying : limits.malwareScanEnabled = false →
    ∀ version ∈ store.versions, version.status ≠ .verifying
  jobs : ∀ job ∈ store.jobs, ∃ version ∈ store.versions, version.verification = job
  objects : ∀ location, isPublishedKey location.key = true → store.objects location ≠ none →
    ∃ version ∈ store.versions, version.location = location

section
variable {limits : UploadLimits} {store : Store}

theorem conflicts_symm (first second : StoredFileRow) :
    conflicts first second = conflicts second first := by
  simp only [conflicts, Bool.beq_comm]

/-- Rows with one id are one row. -/
theorem WellFormed.row_eq {rows : List StoredFileRow} (unique : RecordTable.Unique conflicts rows)
    {first second : StoredFileRow} (firstMem : first ∈ rows) (secondMem : second ∈ rows)
    (sameId : first.id = second.id) : first = second :=
  unique.eq conflicts_symm firstMem secondMem (by simp [conflicts, sameId])

/-- A published key belongs to one id only. -/
theorem WellFormed.id_of_key (wellFormed : WellFormed limits store) {first second : StoredFileRow}
    (firstMem : first ∈ store.versions) (secondMem : second ∈ store.versions)
    (sameKey : first.key = second.key) : first.id = second.id := by
  obtain ⟨firstExtension, firstKey⟩ := wellFormed.keyed first firstMem
  obtain ⟨secondExtension, secondKey⟩ := wellFormed.keyed second secondMem
  exact publishedKey_fileId (firstKey.symm.trans (sameKey.trans secondKey))

theorem WellFormed.published (wellFormed : WellFormed limits store) {version : StoredFileRow}
    (member : version ∈ store.versions) : isPublishedKey version.key = true := by
  obtain ⟨extension, key⟩ := wellFormed.keyed version member
  rw [key, isPublishedKey_publishedKey]

/-! ## Statements -/

/-- A statement that only revises and removes rows keeps the invariant. -/
theorem WellFormed.commit (wellFormed : WellFormed limits store) {rows : List StoredFileRow}
    (unique : RecordTable.Unique conflicts rows)
    (revised : ∀ row ∈ rows, ∃ old ∈ store.rows, Revises limits old row) :
    WellFormed limits (store.commit rows) := by
  have origin : ∀ version ∈ rows ++ store.versions,
      ∃ old ∈ store.versions, version.identity = old.identity := by
    intro version member
    rcases List.mem_append.mp member with new | old
    · obtain ⟨old, oldMem, revises⟩ := revised version new
      exact ⟨old, wellFormed.recorded old oldMem, revises.identity⟩
    · exact ⟨version, old, rfl⟩
  have keep : ∀ version ∈ store.versions, version ∈ rows ++ store.versions := fun _ member =>
    List.mem_append_right _ member
  refine
    { unique
      recorded := fun row member => List.mem_append_left _ member
      issued := fun version member => ?_
      keyed := fun version member => ?_
      identity := fun first firstMem second secondMem sameId => ?_
      rejected := fun version member isRejected row rowMem sameId => ?_
      deleted := fun version member isDeleted row rowMem sameId => ?_
      verifying := fun disabled version member => ?_
      jobs := fun job member => ?_
      objects := fun location published present => ?_ }
  · obtain ⟨old, oldMem, same⟩ := origin version member
    exact StoredFile.congr_identity (·.id) (fun _ => rfl) same ▸ wellFormed.issued old oldMem
  · obtain ⟨old, oldMem, same⟩ := origin version member
    obtain ⟨extension, key⟩ := wellFormed.keyed old oldMem
    refine ⟨extension, ?_⟩
    have sameKey : version.key = old.key := StoredFile.congr_identity (·.key) (fun _ => rfl) same
    have sameUser : version.userId = old.userId := StoredFile.congr_identity (·.userId) (fun _ => rfl) same
    rw [sameKey, key, sameUser, StoredFile.congr_identity (·.id) (fun _ => rfl) same]
  · obtain ⟨oldFirst, oldFirstMem, sameFirst⟩ := origin first firstMem
    obtain ⟨oldSecond, oldSecondMem, sameSecond⟩ := origin second secondMem
    have sameOld : oldFirst.id = oldSecond.id :=
      (StoredFile.congr_identity (·.id) (fun _ => rfl) sameFirst).symm.trans (sameId.trans (StoredFile.congr_identity (·.id) (fun _ => rfl) sameSecond))
    rw [sameFirst, sameSecond, wellFormed.identity _ oldFirstMem _ oldSecondMem sameOld]
  · rcases List.mem_append.mp member with new | old
    · exact WellFormed.row_eq unique rowMem new sameId ▸ isRejected
    · obtain ⟨before, beforeMem, revises⟩ := revised row rowMem
      exact revises.rejected (wellFormed.rejected version old isRejected before beforeMem
        ((StoredFile.congr_identity (·.id) (fun _ => rfl) revises.identity).symm.trans sameId))
  · rcases List.mem_append.mp member with new | old
    · exact WellFormed.row_eq unique rowMem new sameId ▸ isDeleted
    · obtain ⟨before, beforeMem, revises⟩ := revised row rowMem
      exact revises.deleted (wellFormed.deleted version old isDeleted before beforeMem
        ((StoredFile.congr_identity (·.id) (fun _ => rfl) revises.identity).symm.trans sameId))
  · rcases List.mem_append.mp member with new | old
    · obtain ⟨before, beforeMem, revises⟩ := revised version new
      exact fun isVerifying => wellFormed.verifying disabled before
        (wellFormed.recorded before beforeMem) (revises.verifying disabled isVerifying)
    · exact wellFormed.verifying disabled version old
  · obtain ⟨version, versionMem, same⟩ := wellFormed.jobs job member
    exact ⟨version, keep version versionMem, same⟩
  · obtain ⟨version, versionMem, same⟩ := wellFormed.objects location published present
    exact ⟨version, keep version versionMem, same⟩

/-- A file that may be inserted: its id is generated and not used yet, and its key is the published
key of that id. -/
structure StoredFile.New (store : Store) (file : StoredFile) : Prop where
  status : file.status = .finalizing
  issued : file.id ∈ store.issued
  unused : ∀ version ∈ store.versions, version.id ≠ file.id
  keyed : ∃ extension, file.key = publishedKey file.userId file.id extension

theorem WellFormed.insert (wellFormed : WellFormed limits store) {files : List StoredFile}
    {rows : List StoredFileRow} (new : ∀ file ∈ files, file.New store)
    (inserted : RecordTable.insertMany conflicts (files.map (newRow store.now)) store.rows =
      some rows) : WellFormed limits (store.commit rows) := by
  have unique := wellFormed.unique.insertMany inserted
  have origin : ∀ version ∈ rows ++ store.versions, version ∈ store.versions ∨
      version ∈ rows ∧ ∃ file ∈ files, version = newRow store.now file := by
    intro version member
    rcases List.mem_append.mp member with row | old
    · rcases (RecordTable.mem_insertMany inserted).mp row with old | added
      · exact .inl (wellFormed.recorded version old)
      · obtain ⟨file, fileMem, rfl⟩ := List.mem_map.mp added
        exact .inr ⟨row, file, fileMem, rfl⟩
    · exact .inl old
  have oldRow : ∀ row ∈ rows, ∀ version ∈ store.versions, row.id = version.id →
      row ∈ store.rows := by
    intro row rowMem version versionMem sameId
    rcases (RecordTable.mem_insertMany inserted).mp rowMem with old | added
    · exact old
    · obtain ⟨file, fileMem, rfl⟩ := List.mem_map.mp added
      exact absurd sameId.symm ((new file fileMem).unused version versionMem)
  refine
    { unique
      recorded := fun row member => List.mem_append_left _ member
      issued := fun version member => ?_
      keyed := fun version member => ?_
      identity := fun first firstMem second secondMem sameId => ?_
      rejected := fun version member isRejected row rowMem sameId => ?_
      deleted := fun version member isDeleted row rowMem sameId => ?_
      verifying := fun disabled version member => ?_
      jobs := fun job member => ?_
      objects := fun location published present => ?_ }
  · rcases origin version member with old | ⟨-, file, fileMem, rfl⟩
    · exact wellFormed.issued version old
    · exact (new file fileMem).issued
  · rcases origin version member with old | ⟨-, file, fileMem, rfl⟩
    · exact wellFormed.keyed version old
    · exact (new file fileMem).keyed
  · rcases origin first firstMem with oldFirst | ⟨firstRow, file, fileMem, rfl⟩ <;>
      rcases origin second secondMem with oldSecond | ⟨secondRow, file', fileMem', rfl⟩
    · exact wellFormed.identity _ oldFirst _ oldSecond sameId
    · exact absurd sameId ((new file' fileMem').unused first oldFirst)
    · exact absurd sameId.symm ((new file fileMem).unused second oldSecond)
    · rw [WellFormed.row_eq unique firstRow secondRow sameId]
  · rcases origin version member with old | ⟨-, file, fileMem, rfl⟩
    · exact wellFormed.rejected version old isRejected row (oldRow row rowMem version old sameId)
        sameId
    · have finalizing : (newRow store.now file).status = .finalizing := (new file fileMem).status
      rw [finalizing] at isRejected
      exact StoredFileStatus.noConfusion isRejected
  · rcases origin version member with old | ⟨-, file, fileMem, rfl⟩
    · exact wellFormed.deleted version old isDeleted row (oldRow row rowMem version old sameId)
        sameId
    · exact Bool.noConfusion isDeleted
  · rcases origin version member with old | ⟨-, file, fileMem, rfl⟩
    · exact wellFormed.verifying disabled version old
    · have finalizing : (newRow store.now file).status = .finalizing := (new file fileMem).status
      rw [finalizing]
      exact StoredFileStatus.noConfusion
  · obtain ⟨version, versionMem, same⟩ := wellFormed.jobs job member
    exact ⟨version, List.mem_append_right _ versionMem, same⟩
  · obtain ⟨version, versionMem, same⟩ := wellFormed.objects location published present
    exact ⟨version, List.mem_append_right _ versionMem, same⟩

theorem WellFormed.update (wellFormed : WellFormed limits store) {condition : Where} {data : Data}
    (lawful : ∀ row ∈ store.rows, condition.selects row = true →
      Revises limits row (data.apply store.now row)) :
    WellFormed limits (store.commit
      (RecordTable.updateMany condition.selects (data.apply store.now) store.rows)) := by
  refine wellFormed.commit (wellFormed.unique.updateMany fun first second => ?_)
    fun row member => ?_
  · split <;> split <;> rfl
  · obtain ⟨old, oldMem, rfl⟩ := RecordTable.mem_updateMany.mp member
    refine ⟨old, oldMem, ?_⟩
    split
    · exact lawful old oldMem ‹_›
    · exact .refl old

theorem WellFormed.delete (wellFormed : WellFormed limits store) {condition : Where} :
    WellFormed limits (store.commit
      (RecordTable.deleteMany condition.selects store.rows)) :=
  wellFormed.commit wellFormed.unique.deleteMany fun row member =>
    ⟨row, (RecordTable.mem_deleteMany.mp member).1, .refl row⟩

theorem WellFormed.setObject (wellFormed : WellFormed limits store) {location : Location}
    {object : Option StoredObject}
    (known : isPublishedKey location.key = true → object ≠ none →
      ∃ version ∈ store.versions, version.location = location) :
    WellFormed limits (store.setObject location object) := by
  refine { wellFormed with objects := fun other published present => ?_ }
  by_cases same : other = location
  · subst same
    exact known published (by simpa [Store.setObject] using present)
  · exact wellFormed.objects other published (by simpa [Store.setObject, same] using present)

/-! ## Requests -/

/-- An update that resurrects no rejected row, and that sends rows into verification only where
scanning is enabled. -/
def Data.Lawful (limits : UploadLimits) (condition : Where) (data : Data) : Prop :=
  ∀ target, data.status = some target →
    (target ≠ .rejected → ∃ source, condition.status = some source ∧ source ≠ .rejected) ∧
    (target = .verifying → limits.malwareScanEnabled = true)

/-- What the invariant asks of a request. -/
def Request.Lawful (limits : UploadLimits) (store : Store) : Request → Prop
  | .createMany files => ∀ file ∈ files, file.New store
  | .updateMany condition data => data.Lawful limits condition
  | .publishBatch _ status => status = limits.publishedStatus
  | .uploadStream location _ => ∃ version ∈ store.versions, version.location = location
  | .copyObject _ target _ => ∃ version ∈ store.versions, version.location = target
  | .dispatch job => ∃ version ∈ store.versions, version.verification = job
  | _ => True

theorem Data.Lawful.revises {condition : Where} {data : Data}
    (lawful : data.Lawful limits condition) {row : StoredFileRow}
    (selected : condition.selects row = true) (now : Nat) :
    Revises limits row (data.apply now row) := by
  refine ⟨rfl, fun isRejected => ?_, fun isDeleted => ?_, fun disabled isVerifying => ?_⟩
  · cases target : data.status with
    | none => simpa [Data.apply, target] using isRejected
    | some status =>
      have result : (data.apply now row).status = status := by simp [Data.apply, target]
      by_contra resurrected
      rw [result] at resurrected
      obtain ⟨source, required, live⟩ := (lawful status target).1 resurrected
      exact live ((Where.status_of_selects selected required).symm.trans isRejected)
  · simp only [Data.apply]
    split
    · rfl
    · exact isDeleted
  · cases target : data.status with
    | none => simpa [Data.apply, target] using isVerifying
    | some status =>
      have result : status = .verifying := by simpa [Data.apply, target] using isVerifying
      rw [(lawful status target).2 result] at disabled
      exact Bool.noConfusion disabled

/-- Publishing from FINALIZING is lawful. -/
theorem publication_lawful {condition : Where} (finalizing : condition.status = some .finalizing) :
    ({ status := some limits.publishedStatus } : Data).Lawful limits condition := by
  intro target same
  obtain rfl := Option.some.inj same
  refine ⟨fun _ => ⟨.finalizing, finalizing, StoredFileStatus.noConfusion⟩, fun verifying => ?_⟩
  rw [UploadLimits.publishedStatus] at verifying
  split at verifying
  · assumption
  · exact StoredFileStatus.noConfusion verifying

/-- Rejecting is always lawful. -/
theorem rejection_lawful {condition : Where} {data : Data}
    (rejects : data.status = some .rejected) : data.Lawful limits condition := by
  intro target same
  obtain rfl := Option.some.inj (rejects.symm.trans same)
  exact ⟨fun other => absurd rfl other, StoredFileStatus.noConfusion⟩

/-- A lawful request updates rows lawfully. -/
theorem Request.Lawful.update {request : Request} (lawful : request.Lawful limits store)
    {condition : Where} {data : Data} (updates : request.update = some (condition, data)) :
    data.Lawful limits condition := by
  cases request with
  | updateMany condition data =>
    obtain ⟨rfl, rfl⟩ := Prod.mk.inj (Option.some.inj updates)
    exact lawful
  | publishBatch ids status =>
    obtain rfl : status = limits.publishedStatus := lawful
    obtain ⟨rfl, rfl⟩ := Prod.mk.inj (Option.some.inj updates)
    exact publication_lawful rfl
  | _ => simp [Request.update] at updates

/-- A lawful request puts objects at the locations of rows only. -/
theorem Request.Lawful.target {request : Request} (lawful : request.Lawful limits store)
    {location : Location} (targets : request.target = some location) :
    ∃ version ∈ store.versions, version.location = location := by
  cases request with
  | uploadStream target object =>
    obtain rfl := Option.some.inj targets
    exact lawful
  | copyObject source target expectedEtag =>
    obtain rfl := Option.some.inj targets
    exact lawful
  | _ => simp [Request.target] at targets

/-- A lawful request keeps the invariant. -/
theorem WellFormed.effect (wellFormed : WellFormed limits store) {request : Request}
    (lawful : request.Lawful limits store) {after : Store} (effect : Effect store request after) :
    WellFormed limits after := by
  cases effect with
  | none => exact wellFormed
  | insert creates inserted =>
    subst creates
    exact wellFormed.insert lawful inserted
  | update updates =>
    exact wellFormed.update fun row _ selected => (lawful.update updates).revises selected _
  | delete => exact wellFormed.delete
  | put targets => exact wellFormed.setObject fun _ _ => lawful.target targets
  | remove => exact wellFormed.setObject fun _ present => absurd rfl present
  | dispatch dispatches =>
    subst dispatches
    refine { wellFormed with jobs := fun other member => ?_ }
    rcases List.mem_cons.mp member with rfl | old
    · exact lawful
    · exact wellFormed.jobs other old
  | generate =>
    exact { wellFormed with
      issued := fun version member => List.mem_append_right _ (wellFormed.issued version member) }

/-- What happens beside the handlers keeps the invariant. -/
theorem WellFormed.external (wellFormed : WellFormed limits store) {event : UploadEvent}
    {after : Store} (changed : external store event = some after) :
    WellFormed limits after ∧ store.Extends after := by
  cases event with
  | clientUpload location object =>
    simp only [Upload.external] at changed
    split at changed
    · rename_i staged
      obtain rfl := Option.some.inj changed
      refine ⟨wellFormed.setObject fun published _ => ?_, fun _ => id, fun _ => id, fun _ => id⟩
      exact (not_staged_and_published staged published).elim
    · simp at changed
  | stagingExpiry location =>
    simp only [Upload.external] at changed
    split at changed
    · obtain rfl := Option.some.inj changed
      exact ⟨wellFormed.setObject fun _ present => absurd rfl present, fun _ => id, fun _ => id,
        fun _ => id⟩
    · simp at changed
  | softDelete id =>
    obtain rfl := Option.some.inj changed
    refine ⟨wellFormed.update fun row _ selected => ?_, store.extends_commit _⟩
    have lawful : ({ deletedAt := true } : Data).Lawful limits { id := some id, live := true } :=
      fun target impossible => nomatch impossible
    exact lawful.revises selected _
  | recoverVerification id =>
    obtain ⟨row, found, rfl⟩ := Option.map_eq_some_iff.mp changed
    refine ⟨{ wellFormed with jobs := fun job member => ?_ },
      fun _ member => member, fun _ member => member,
      fun _ member => List.mem_cons_of_mem _ member⟩
    rcases List.mem_cons.mp member with rfl | old
    · exact ⟨row, wellFormed.recorded row (List.mem_of_find?_eq_some found), rfl⟩
    · exact wellFormed.jobs job old
  | elapse milliseconds =>
    obtain rfl := Option.some.inj changed
    exact ⟨{ wellFormed with }, ⟨fun _ => id, fun _ => id, fun _ => id⟩⟩

end

end NestjsFastify.Upload
