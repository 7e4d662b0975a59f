import NestjsFastify.StoredFileStore

/-! # What a request changes

For each part of the store, the ways in which one request can change it.  Later invariants are
derived from these and never from the requests themselves.
-/
namespace NestjsFastify.Upload
open LengthPrefixedFraming (Bytes)

/-- The condition and the data of a request that updates rows. -/
def Request.update : Request → Option (Where × Data)
  | .updateMany condition data => some (condition, data)
  | .publishBatch ids status =>
      some ({ ids := some ids, status := some .finalizing, live := true }, { status := some status })
  | _ => none

/-- The condition of a request that deletes rows. -/
def Request.deletion : Request → Option Where
  | .deleteMany condition => some condition
  | .delete id => some { id := some id }
  | _ => none

/-- The location that a request may put an object at. -/
def Request.target : Request → Option Location
  | .uploadStream location _ => some location
  | .copyObject _ target _ => some target
  | _ => none

/-- A request that may change rows, objects or jobs. -/
def Request.changes : Request → Bool
  | .createMany _ | .updateMany _ _ | .publishBatch _ _ | .deleteMany _ | .delete _ => true
  | .uploadStream _ _ | .copyObject _ _ _ | .deleteObject _ | .dispatch _ => true
  | _ => false

section
variable {condition : Where} {row : StoredFileRow}

theorem Where.id_of_selects {id : Uuid} (selected : condition.selects row = true)
    (required : condition.id = some id) : row.id = id := by
  simp only [Where.selects, Bool.and_eq_true, required, Option.all_some, beq_iff_eq] at selected
  exact selected.1.1.1.1.1.1.symm

theorem Where.ids_of_selects {ids : List Uuid} (selected : condition.selects row = true)
    (required : condition.ids = some ids) : row.id ∈ ids := by
  simp only [Where.selects, Bool.and_eq_true, required, Option.all_some,
    List.contains_iff_mem] at selected
  exact selected.1.1.1.1.1.2

theorem Where.key_of_selects {key : String} (selected : condition.selects row = true)
    (required : condition.key = some key) : row.key = key := by
  simp only [Where.selects, Bool.and_eq_true, required, Option.all_some, beq_iff_eq] at selected
  exact selected.1.1.1.1.2.symm

theorem Where.sourceKey_of_selects {sourceKey : String}
    (selected : condition.selects row = true) (required : condition.sourceKey = some sourceKey) :
    row.sourceKey = sourceKey := by
  simp only [Where.selects, Bool.and_eq_true, required, Option.all_some, beq_iff_eq] at selected
  exact selected.1.1.1.2.symm

theorem Where.live_of_selects (selected : condition.selects row = true)
    (required : condition.live = true) : row.deletedAt = none := by
  simp only [Where.selects, Bool.and_eq_true, required] at selected
  simpa using selected.2

theorem Where.status_of_selects {status : StoredFileStatus}
    (selected : condition.selects row = true) (required : condition.status = some status) :
    row.status = status := by
  simp only [Where.selects, Bool.and_eq_true, required, Option.all_some, beq_iff_eq] at selected
  exact selected.1.1.2.symm

end

/-- Where a row of the table comes from. -/
inductive RowOrigin (store : Store) (request : Request) (row : StoredFileRow) : Prop
  | old (member : row ∈ store.rows)
  | created {files : List StoredFile} {file : StoredFile} (creates : request = .createMany files)
      (member : file ∈ files) (new : row = newRow store.now file)
  | updated {condition : Where} {data : Data} {old : StoredFileRow}
      (updates : request.update = some (condition, data)) (member : old ∈ store.rows)
      (selected : condition.selects old = true) (new : row = data.apply store.now old)

section
variable {store after : Store} {request : Request} {oracle : Oracle} {response : Response}

/-- The effect of a request, apart from its response. -/
inductive Effect (store : Store) (request : Request) : Store → Prop
  | none : Effect store request store
  | insert {files : List StoredFile} {rows : List StoredFileRow}
      (creates : request = .createMany files)
      (inserted : RecordTable.insertMany conflicts (files.map (newRow store.now)) store.rows =
        some rows) : Effect store request (store.commit rows)
  | update {condition : Where} {data : Data} (updates : request.update = some (condition, data)) :
      Effect store request (store.commit
        (RecordTable.updateMany condition.selects (data.apply store.now) store.rows))
  | delete {condition : Where} (deletes : request.deletion = some condition) :
      Effect store request (store.commit
        (RecordTable.deleteMany condition.selects store.rows))
  | put {location : Location} {object : StoredObject} (targets : request.target = some location) :
      Effect store request (store.setObject location (some object))
  | remove {location : Location} (removes : request = .deleteObject location) :
      Effect store request (store.setObject location Option.none)
  | dispatch {job : UploadVerificationRequest} (dispatches : request = .dispatch job) :
      Effect store request { store with jobs := job :: store.jobs }
  | generate {ids : List Uuid} (generates : request = .generateIds ids.length)
      (distinct : ids.Nodup) (new : ∀ id ∈ ids, id ∉ store.issued) :
      Effect store request { store with issued := ids ++ store.issued }

private theorem effect_of_respond (responded : respond store request = some (after, response)) :
    Effect store request after := by
  cases request with
  | createMany files =>
    cases files with
    | nil =>
      obtain ⟨rfl, -⟩ := Prod.mk.inj (Option.some.inj responded)
      exact .none
    | cons file files =>
      simp only [respond] at responded
      split at responded <;> obtain ⟨rfl, -⟩ := Prod.mk.inj (Option.some.inj responded)
      · exact .insert rfl ‹_›
      · exact .none
  | updateMany condition data =>
    obtain ⟨rfl, -⟩ := Prod.mk.inj (Option.some.inj responded)
    exact .update rfl
  | publishBatch ids status =>
    simp only [respond] at responded
    split at responded
    · obtain ⟨rfl, -⟩ := Prod.mk.inj (Option.some.inj responded)
      exact .none
    split at responded <;> obtain ⟨rfl, -⟩ := Prod.mk.inj (Option.some.inj responded)
    · exact .update rfl
    · exact .none
  | deleteMany condition =>
    obtain ⟨rfl, -⟩ := Prod.mk.inj (Option.some.inj responded)
    exact .delete rfl
  | delete id =>
    simp only [respond] at responded
    split at responded <;> obtain ⟨rfl, -⟩ := Prod.mk.inj (Option.some.inj responded)
    · exact .delete rfl
    · exact .none
  | uploadStream location object =>
    obtain ⟨rfl, -⟩ := Prod.mk.inj (Option.some.inj responded)
    exact .put rfl
  | copyObject source target expectedEtag =>
    simp only [respond] at responded
    split at responded
    · split at responded <;> obtain ⟨rfl, -⟩ := Prod.mk.inj (Option.some.inj responded)
      · exact .put rfl
      · exact .none
    · obtain ⟨rfl, -⟩ := Prod.mk.inj (Option.some.inj responded)
      exact .none
  | deleteObject location =>
    obtain ⟨rfl, -⟩ := Prod.mk.inj (Option.some.inj responded)
    exact .remove rfl
  | dispatch job =>
    obtain ⟨rfl, -⟩ := Prod.mk.inj (Option.some.inj responded)
    exact .dispatch rfl
  | generateIds count => simp [respond] at responded
  | scan content sizeBytes => simp [respond] at responded
  | findFirst | head | readRange | readStream | checkSignal | getSignedUrl =>
    obtain ⟨rfl, -⟩ := Prod.mk.inj (Option.some.inj responded)
    exact .none

theorem effect_of_perform (performed : perform store request oracle = some (after, response)) :
    Effect store request after := by
  cases perform_cases performed with
  | responded responded => exact effect_of_respond responded
  | failedApplied responded => exact effect_of_respond responded
  | generated distinct new => exact .generate rfl distinct new
  | publishedPart => exact .update rfl
  | failed | replica | scanned => exact .none

end

namespace Effect
variable {store after : Store} {request : Request}

theorem rowOrigin (effect : Effect store request after) {row : StoredFileRow}
    (member : row ∈ after.rows) : RowOrigin store request row := by
  cases effect with
  | insert creates inserted =>
    rcases (RecordTable.mem_insertMany inserted).mp member with old | added
    · exact .old old
    · obtain ⟨file, fileMem, rfl⟩ := List.mem_map.mp added
      exact .created creates fileMem rfl
  | update updates =>
    obtain ⟨old, oldMem, rfl⟩ := RecordTable.mem_updateMany.mp member
    split
    · exact .updated updates oldMem ‹_› rfl
    · exact .old oldMem
  | delete deletes => exact .old (RecordTable.mem_deleteMany.mp member).1
  | none | put | remove | dispatch | generate => exact .old member

/-- A version is recorded when its row is committed. -/
theorem version (effect : Effect store request after) {version : StoredFileRow}
    (member : version ∈ after.versions) : version ∈ store.versions ∨ version ∈ after.rows := by
  cases effect with
  | insert | update | delete => exact (List.mem_append.mp member).symm
  | none | put | remove | dispatch | generate => exact .inl member

/-- A row stays as it is, or it is updated or deleted. -/
theorem row_fate (effect : Effect store request after) {row : StoredFileRow}
    (member : row ∈ store.rows) :
    row ∈ after.rows ∨
      (∃ condition data, request.update = some (condition, data) ∧
        condition.selects row = true ∧ data.apply store.now row ∈ after.rows) ∨
      ∃ condition, request.deletion = some condition ∧ condition.selects row = true ∧
        ∀ kept ∈ after.rows, kept ∈ store.rows ∧ condition.selects kept = false := by
  cases effect with
  | insert creates inserted => exact .inl ((RecordTable.mem_insertMany inserted).mpr (.inl member))
  | @update condition data updates =>
    have updated : (if condition.selects row then data.apply store.now row else row) ∈
        RecordTable.updateMany condition.selects (data.apply store.now) store.rows :=
      RecordTable.mem_updateMany.mpr ⟨row, member, rfl⟩
    by_cases selected : condition.selects row = true
    · rw [if_pos selected] at updated
      exact .inr (.inl ⟨condition, data, updates, selected, updated⟩)
    · rw [if_neg selected] at updated
      exact .inl updated
  | @delete condition deletes =>
    by_cases selected : condition.selects row = true
    · exact .inr (.inr ⟨condition, deletes, selected, fun kept => RecordTable.mem_deleteMany.mp⟩)
    · exact .inl (RecordTable.mem_deleteMany.mpr ⟨member, by simpa using selected⟩)
  | none | put | remove | dispatch | generate => exact .inl member

/-- What becomes of the object at a location. -/
theorem object (effect : Effect store request after) (location : Location) :
    after.objects location = store.objects location ∨
      request.target = some location ∧ after.objects location ≠ Option.none ∨
        request = .deleteObject location ∧ after.objects location = Option.none := by
  cases effect with
  | @put target object targets =>
    by_cases same : location = target
    · subst same
      exact .inr (.inl ⟨targets, by simp [Store.setObject]⟩)
    · exact .inl (by simp [Store.setObject, same])
  | @remove target removes =>
    by_cases same : location = target
    · subst same
      exact .inr (.inr ⟨removes, by simp [Store.setObject]⟩)
    · exact .inl (by simp [Store.setObject, same])
  | none | insert | update | delete | dispatch | generate => exact .inl rfl

end Effect

/-- What is recorded once stays recorded. -/
structure Store.Extends (store after : Store) : Prop where
  versions : ∀ version ∈ store.versions, version ∈ after.versions
  issued : ∀ id ∈ store.issued, id ∈ after.issued
  jobs : ∀ job ∈ store.jobs, job ∈ after.jobs

theorem Store.Extends.refl (store : Store) : store.Extends store :=
  ⟨fun _ => id, fun _ => id, fun _ => id⟩

theorem Store.extends_commit (store : Store) (rows : List StoredFileRow) :
    store.Extends (store.commit rows) :=
  ⟨fun _ member => List.mem_append_right _ member, fun _ => id, fun _ => id⟩

theorem Effect.extends {store after : Store} {request : Request}
    (effect : Effect store request after) : store.Extends after := by
  cases effect with
  | insert | update | delete => exact store.extends_commit _
  | none => exact .refl store
  | put | remove => exact ⟨fun _ => id, fun _ => id, fun _ => id⟩
  | dispatch => exact ⟨fun _ => id, fun _ => id, fun _ member => List.mem_cons_of_mem _ member⟩
  | generate => exact ⟨fun _ => id, fun _ member => List.mem_append_right _ member, fun _ => id⟩

/-! ## What a response says -/

section
variable {store after : Store} {oracle : Oracle} {response : Response}

/-- A read shows a version of a row that its condition selects. -/
theorem found_of_perform {condition : Where} {record : StoredFile}
    (performed : perform store (.findFirst condition) oracle =
      some (after, .record (some record)))
    (recorded : ∀ row ∈ store.rows, row ∈ store.versions) :
    ∃ version ∈ store.versions, version.toStoredFile = record ∧
      condition.selects version = true := by
  cases oracle with
  | ok =>
    obtain ⟨-, answer⟩ := Prod.mk.inj (Option.some.inj performed)
    obtain ⟨row, found, same⟩ := Option.map_eq_some_iff.mp (Response.record.inj answer)
    exact ⟨row, recorded row (List.mem_of_find?_eq_some found), same, List.find?_some found⟩
  | replica shown =>
    simp only [perform] at performed
    split at performed
    · rename_i allowed
      obtain ⟨-, answer⟩ := Prod.mk.inj (Option.some.inj performed)
      obtain ⟨row, rfl, same⟩ := Option.map_eq_some_iff.mp (Response.record.inj answer)
      simp only [Option.all_some, Bool.and_eq_true, List.contains_iff_mem] at allowed
      exact ⟨row, allowed.1, same, allowed.2⟩
    · simp at performed
  | _ => simp [perform] at performed

/-- An update that counts a row has recorded its new version. -/
theorem updated_of_perform {condition : Where} {data : Data} {count : Nat}
    (performed : perform store (.updateMany condition data) oracle = some (after, .count count))
    (positive : 0 < count) :
    ∃ row ∈ store.rows, condition.selects row = true ∧
      data.apply store.now row ∈ after.versions := by
  cases oracle with
  | ok =>
    obtain ⟨rfl, answer⟩ := Prod.mk.inj (Option.some.inj performed)
    obtain rfl := Response.count.inj answer
    obtain ⟨row, member, selected⟩ := RecordTable.updatedCount_pos_iff.mp positive
    refine ⟨row, member, selected, List.mem_append_left _ ?_⟩
    exact RecordTable.mem_updateMany.mpr ⟨row, member, if_pos selected⟩
  | _ => simp [perform] at performed

/-- A creation inserts and records the new rows, or it does not report success. -/
theorem created_of_perform {files : List StoredFile}
    (performed : perform store (.createMany files) oracle = some (after, response)) :
    (response = .done ∧ ∀ file ∈ files, newRow store.now file ∈ after.rows ∧
        newRow store.now file ∈ after.versions) ∨
      response = .duplicate ∨ ∃ failure, response = .failed failure := by
  cases perform_cases performed with
  | responded responded =>
    cases files with
    | nil =>
      obtain ⟨-, rfl⟩ := Prod.mk.inj (Option.some.inj responded)
      exact .inr (.inr ⟨_, rfl⟩)
    | cons first files =>
      simp only [respond] at responded
      split at responded
      · rename_i rows inserted
        obtain ⟨rfl, rfl⟩ := Prod.mk.inj (Option.some.inj responded)
        refine .inl ⟨rfl, fun file member => ?_⟩
        have row : newRow store.now file ∈ rows :=
          (RecordTable.mem_insertMany inserted).mpr (.inr (List.mem_map_of_mem member))
        exact ⟨row, List.mem_append_left _ row⟩
      · obtain ⟨-, rfl⟩ := Prod.mk.inj (Option.some.inj responded)
        exact .inr (.inl rfl)
  | failed => exact .inr (.inr ⟨_, rfl⟩)
  | failedApplied => exact .inr (.inr ⟨_, rfl⟩)

/-- A deletion counts the rows or fails. -/
theorem deleted_of_perform {request : Request} {condition : Where}
    (performed : perform store request oracle = some (after, response))
    (deletes : request.deletion = some condition) :
    (∃ count, response = .count count) ∨ ∃ failure, response = .failed failure := by
  cases request with
  | deleteMany condition =>
    cases perform_cases performed with
    | responded responded =>
      obtain ⟨-, rfl⟩ := Prod.mk.inj (Option.some.inj responded)
      exact .inl ⟨_, rfl⟩
    | failed | failedApplied => exact .inr ⟨_, rfl⟩
  | delete id =>
    cases perform_cases performed with
    | responded responded =>
      simp only [respond] at responded
      split at responded <;> obtain ⟨-, rfl⟩ := Prod.mk.inj (Option.some.inj responded)
      · exact .inl ⟨_, rfl⟩
      · exact .inr ⟨_, rfl⟩
    | failed | failedApplied => exact .inr ⟨_, rfl⟩
  | _ => exact nomatch deletes

/-- A removal that reports success leaves nothing at its location. -/
theorem removed_of_perform {location : Location}
    (performed : perform store (.deleteObject location) oracle = some (after, .done)) :
    after.objects location = none := by
  cases oracle with
  | ok =>
    obtain ⟨rfl, -⟩ := Prod.mk.inj (Option.some.inj performed)
    simp [Store.setObject]
  | _ => simp [perform] at performed

/-- The publication of a batch succeeds or fails. -/
theorem published_of_perform {ids : List Uuid} {status : StoredFileStatus}
    (performed : perform store (.publishBatch ids status) oracle = some (after, response)) :
    response = .done ∨ ∃ failure, response = .failed failure := by
  cases perform_cases performed with
  | responded responded =>
    simp only [respond] at responded
    split at responded
    · obtain ⟨-, rfl⟩ := Prod.mk.inj (Option.some.inj responded)
      exact .inr ⟨_, rfl⟩
    split at responded <;> obtain ⟨-, rfl⟩ := Prod.mk.inj (Option.some.inj responded)
    · exact .inl rfl
    · exact .inr ⟨_, rfl⟩
  | failed | failedApplied | publishedPart => exact .inr ⟨_, rfl⟩

/-- A write that reports success has put an object at its location. -/
theorem written_of_perform {request : Request} {location : Location}
    (performed : perform store request oracle = some (after, response))
    (targets : request.target = some location) :
    response = .done ∧ after.objects location ≠ none ∨ ∃ failure, response = .failed failure := by
  cases request with
  | uploadStream target object =>
    obtain rfl := Option.some.inj targets
    cases perform_cases performed with
    | responded responded =>
      obtain ⟨rfl, rfl⟩ := Prod.mk.inj (Option.some.inj responded)
      exact .inl ⟨rfl, by simp [Store.setObject]⟩
    | failed | failedApplied => exact .inr ⟨_, rfl⟩
  | copyObject source target expectedEtag =>
    obtain rfl := Option.some.inj targets
    cases perform_cases performed with
    | responded responded =>
      simp only [respond] at responded
      split at responded
      · split at responded <;> obtain ⟨rfl, rfl⟩ := Prod.mk.inj (Option.some.inj responded)
        · exact .inl ⟨rfl, by simp [Store.setObject]⟩
        · exact .inr ⟨_, rfl⟩
      · obtain ⟨rfl, rfl⟩ := Prod.mk.inj (Option.some.inj responded)
        exact .inr ⟨_, rfl⟩
    | failed | failedApplied => exact .inr ⟨_, rfl⟩
  | _ => exact nomatch targets

/-- A HEAD that reports metadata has seen the object. -/
theorem present_of_head {location : Location} {metadata : ObjectMetadata}
    (performed : perform store (.head location) oracle = some (after, .metadata (some metadata))) :
    store.objects location ≠ none := by
  cases oracle with
  | ok =>
    obtain ⟨-, answer⟩ := Prod.mk.inj (Option.some.inj performed)
    obtain ⟨object, present, -⟩ := Option.map_eq_some_iff.mp (Response.metadata.inj answer)
    exact present ▸ Option.some_ne_none object
  | _ => simp [perform] at performed

/-- A range read shows the first bytes of the object. -/
theorem object_of_readRange {location : Location} {byteCount : Nat} {head : Bytes}
    (performed : perform store (.readRange location byteCount) oracle =
      some (after, .bytes head)) :
    ∃ object, store.objects location = some object ∧ head = object.bytes.take byteCount := by
  cases oracle with
  | ok =>
    obtain ⟨-, answer⟩ := Prod.mk.inj (Option.some.inj performed)
    cases present : store.objects location with
    | none => simp [present] at answer
    | some object => exact ⟨object, rfl, by simpa [present] using answer.symm⟩
  | _ => simp [perform] at performed

/-- A stream shows the object. -/
theorem object_of_readStream {location : Location} {content : StoredObject}
    (performed : perform store (.readStream location) oracle = some (after, .content content)) :
    store.objects location = some content := by
  cases oracle with
  | ok =>
    obtain ⟨-, answer⟩ := Prod.mk.inj (Option.some.inj performed)
    cases present : store.objects location with
    | none => simp [present] at answer
    | some object => simpa [present] using answer
  | _ => simp [perform] at performed

/-- Generated ids are distinct and new. -/
theorem generated_of_perform {count : Nat} {ids : List Uuid}
    (performed : perform store (.generateIds count) oracle = some (after, .ids ids)) :
    ids.Nodup ∧ (∀ id ∈ ids, id ∉ store.issued) ∧ (∀ id ∈ ids, id ∈ after.issued) ∧
      after.versions = store.versions := by
  cases oracle with
  | generated generated =>
    simp only [perform] at performed
    split at performed
    · rename_i fresh
      obtain ⟨rfl, answer⟩ := Prod.mk.inj (Option.some.inj performed)
      obtain rfl := Response.ids.inj answer
      exact ⟨fresh.2.1, fresh.2.2, fun id member => List.mem_append_left _ member, rfl⟩
    · simp at performed
  | _ => simp [perform, respond] at performed

end

end NestjsFastify.Upload
