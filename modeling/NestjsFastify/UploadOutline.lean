import NestjsFastify.StoredFileHistory
import NestjsFastify.UploadRequests

/-! # An outline of the upload subsystem

Each handler is annotated with what it knows of the store: which rows there have been, which rows
it alone is to create, and which rows have been rejected or soft-deleted.  The annotations survive
whatever the other handlers do, since ids are generated once and records never change.
-/
namespace NestjsFastify.Upload

/-- A version of the file's row has been recorded. -/
def Known (store : Store) (file : StoredFile) : Prop :=
  ∃ version ∈ store.versions, version.identity = file.identity

namespace Handler

/-- The ids that the handler has generated and still owns. -/
def owned : Handler → List Uuid
  | confirm handler => handler.phase.owned
  | uploadFiles handler => handler.phase.unpublished.map (·.id)
  | _ => []

/-- The verification jobs that the handler works on. -/
def verifies : Handler → List UploadVerificationRequest
  | verify handler => [handler.command]
  | _ => []

/-- The ids and locations of candidates that lifecycle tasks have read. -/
def candidates : Handler → List (Uuid × Location)
  | reclaim handler => [(handler.candidate.id, handler.candidate.location)]
  | purge handler => [(handler.candidate.id, handler.candidate.location)]
  | _ => []

/-- The keys of rows that have been rejected, whose objects the handler is to delete. -/
def condemned : Handler → List String
  | confirm handler => handler.phase.condemned
  | verify handler => if handler.phase = .deleting then [handler.command.key] else []
  | reclaim handler =>
      if handler.phase = .deletingObject ∨ handler.phase = .deletingRow
      then [handler.candidate.key] else []
  | _ => []

/-- The keys of soft-deleted rows, whose objects the handler is to delete. -/
def expired : Handler → List String
  | purge handler => [handler.candidate.key]
  | _ => []

/-- Confirmed files come from the staged key of the command, multipart files have no other key. -/
def SourceKeys : Handler → Prop
  | confirm ⟨command, phase⟩ =>
      ((∀ failure, phase ≠ .threw failure) →
        assertOwnsSourceKey command.sourceKey command.userId = .ok ()) ∧
      ∀ file ∈ (confirm ⟨command, phase⟩).known ++ (confirm ⟨command, phase⟩).unborn,
        file.sourceKey = command.sourceKey
  | uploadFiles handler =>
      ∀ file ∈ handler.phase.known ++ handler.phase.unborn, file.sourceKey = file.key
  | _ => True

/-- What a handler knows. -/
structure Assertion (store : Store) (handler : Handler) : Prop where
  known : ∀ file ∈ handler.known, Known store file
  unborn : ∀ file ∈ handler.unborn, file.New store
  pending : handler.pending.Sublist handler.known
  distinct : handler.owned.Nodup
  owned : ∀ id ∈ handler.owned, id ∈ store.issued
  verifies : ∀ command ∈ handler.verifies,
    ∃ version ∈ store.versions, version.verification = command
  candidates : ∀ candidate ∈ handler.candidates,
    ∃ version ∈ store.versions, version.id = candidate.1 ∧ version.location = candidate.2
  condemned : ∀ key ∈ handler.condemned,
    ∃ version ∈ store.versions, version.key = key ∧ version.status = .rejected
  expired : ∀ key ∈ handler.expired,
    ∃ version ∈ store.versions, version.key = key ∧ version.deletedAt.isSome
  sourceKeys : handler.SourceKeys

end Handler

/-- What is known stays known; only rows to be created must still be new. -/
theorem Handler.Assertion.mono {store after : Store} {handler : Handler}
    (assertion : handler.Assertion store) (grows : store.Extends after)
    (new : ∀ file ∈ handler.unborn, ∀ version ∈ after.versions, version.id ≠ file.id) :
    handler.Assertion after where
  known file member := by
    obtain ⟨version, versionMem, same⟩ := assertion.known file member
    exact ⟨version, grows.versions version versionMem, same⟩
  unborn file member :=
    { assertion.unborn file member with
      issued := grows.issued _ (assertion.unborn file member).issued
      unused := new file member }
  pending := assertion.pending
  distinct := assertion.distinct
  owned id member := grows.issued id (assertion.owned id member)
  verifies command member := by
    obtain ⟨version, versionMem, same⟩ := assertion.verifies command member
    exact ⟨version, grows.versions version versionMem, same⟩
  candidates candidate member := by
    obtain ⟨version, versionMem, same⟩ := assertion.candidates candidate member
    exact ⟨version, grows.versions version versionMem, same⟩
  condemned key member := by
    obtain ⟨version, versionMem, same⟩ := assertion.condemned key member
    exact ⟨version, grows.versions version versionMem, same⟩
  expired key member := by
    obtain ⟨version, versionMem, same⟩ := assertion.expired key member
    exact ⟨version, grows.versions version versionMem, same⟩
  sourceKeys := assertion.sourceKeys

section
variable {deployment : Deployment} {store : Store}

theorem Known.verification {file : StoredFile} (known : Known store file) :
    ∃ version ∈ store.versions, version.verification = file.verification := by
  obtain ⟨version, member, same⟩ := known
  exact ⟨version, member, StoredFile.congr_identity (·.verification) (fun _ => rfl) same⟩

theorem Known.location {file : StoredFile} (known : Known store file) :
    ∃ version ∈ store.versions, version.location = file.location := by
  obtain ⟨version, member, same⟩ := known
  exact ⟨version, member, StoredFile.congr_identity (·.location) (fun _ => rfl) same⟩

/-- The request of a handler is lawful. -/
theorem Handler.Assertion.lawful {handler : Handler} (assertion : handler.Assertion store)
    {request : Request} (requested : handler.request deployment = some request) :
    request.Lawful deployment.limits store := by
  have known : ∀ {file rest}, handler.pending = file :: rest → Known store file :=
    fun {file rest} pending => assertion.known file <| assertion.pending.mem <| by
      rw [pending]
      exact List.mem_cons_self
  cases handler.asks_of_request requested with
  | createMany => exact assertion.unborn
  | updateMany updates =>
    cases updates with
    | verified =>
      intro target same
      obtain rfl := Option.some.inj same
      exact ⟨fun _ => ⟨.verifying, rfl, StoredFileStatus.noConfusion⟩,
        StoredFileStatus.noConfusion⟩
    | confirmed | published => exact publication_lawful rfl
    | rejected rejects | claimed rejects => exact rejection_lawful rejects
  | publishBatch => rfl
  | uploadStream pending => exact (known pending).location
  | copyObject pending => exact (known pending).location
  | dispatch member => exact (assertion.known _ member).verification
  | read silent => cases request <;> trivial
  | deleteMany | delete | deleteObject => trivial

/-! ## The next phase -/

theorem Known.mono {after : Store} {file : StoredFile} (known : Known store file)
    (grows : store.Extends after) : Known after file := by
  obtain ⟨version, member, same⟩ := known
  exact ⟨version, grows.versions version member, same⟩

theorem Known.of_identity {file old : StoredFile} (known : Known store old)
    (same : file.identity = old.identity) : Known store file := by
  obtain ⟨version, member, sameVersion⟩ := known
  exact ⟨version, member, sameVersion.trans same.symm⟩

/-- Two known files of one id are one file. -/
theorem Known.identity {limits : UploadLimits} (wellFormed : WellFormed limits store)
    {first second : StoredFile} (firstKnown : Known store first) (secondKnown : Known store second)
    (sameId : first.id = second.id) : first.identity = second.identity := by
  obtain ⟨version, member, same⟩ := firstKnown
  obtain ⟨version', member', same'⟩ := secondKnown
  have ids : version.id = version'.id :=
    (StoredFile.congr_identity (·.id) (fun _ => rfl) same).trans
      (sameId.trans (StoredFile.congr_identity (·.id) (fun _ => rfl) same').symm)
  rw [← same, ← same', wellFormed.identity _ member _ member' ids]

theorem Known.issued {limits : UploadLimits} (wellFormed : WellFormed limits store)
    {file : StoredFile} (known : Known store file) : file.id ∈ store.issued := by
  obtain ⟨version, member, same⟩ := known
  exact StoredFile.congr_identity (·.id) (fun _ => rfl) same ▸ wellFormed.issued version member

private theorem eq_creating_of_unborn {phase : ConfirmPhase} {file : StoredFile}
    (member : file ∈ phase.unborn) : phase = .creating file := by
  cases phase <;> simp [ConfirmPhase.unborn] at member
  subst member
  rfl

private theorem eq_discarding_of_condemned {phase : ConfirmPhase} {key : String}
    (member : key ∈ phase.condemned) :
    ∃ record failure, phase = .discardingFinal record failure ∧ key = record.key := by
  cases phase <;> simp [ConfirmPhase.condemned] at member
  exact ⟨_, _, rfl, member⟩

/-- The ids that a confirm owns are those of the file it creates and finalises. -/
private theorem file_of_owned {phase : ConfirmPhase} {id : Uuid} (member : id ∈ phase.owned) :
    ∃ file, id = file.id ∧ (file ∈ phase.unborn ∨ phase.record = some file) := by
  cases phase <;> simp [ConfirmPhase.owned] at member
  · exact ⟨_, member, .inl List.mem_cons_self⟩
  · exact ⟨_, member, .inr rfl⟩
  · exact ⟨_, member, .inr rfl⟩

section Confirm
variable {command : ConfirmUploadCommand} {phase : ConfirmPhase} {request : Request}
  {oracle : Oracle} {after : Store} {response : Response}

/-- A record that a confirm reads or creates is known, and has the staged key of the command. -/
private theorem confirm_record (wellFormed : WellFormed deployment.limits store)
    (assertion : Handler.Assertion store (.confirm ⟨command, phase⟩))
    (requested : ConfirmUpload.request deployment.limits ⟨command, phase⟩ = some request)
    (performed : perform store request oracle = some (after, response))
    {record : StoredFile}
    (concerns : (ConfirmUpload.next deployment.limits command phase response).record =
      some record) :
    Known after record ∧ record.sourceKey = command.sourceKey := by
  have grows := (effect_of_perform performed).extends
  have knownBefore : ∀ {file}, phase.record = some file →
      Known store file ∧ file.sourceKey = command.sourceKey := fun {file} same =>
    have member : file ∈ Handler.known (.confirm ⟨command, phase⟩) := by simp [Handler.known, same]
    ⟨assertion.known file member, assertion.sourceKeys.2 file (List.mem_append_left _ member)⟩
  have shown : ∀ {condition : Where}, request = .findFirst condition →
      response = .record (some record) →
      ∃ version ∈ store.versions, version.toStoredFile = record ∧
        condition.selects version = true := by
    rintro condition rfl rfl
    exact found_of_perform performed wellFormed.recorded
  cases recordOrigin_of_next concerns with
  | kept before same =>
    obtain ⟨known, sourceKey⟩ := knownBefore before
    exact ⟨(known.mono grows).of_identity same,
      (StoredFile.congr_identity (·.sourceKey) (fun _ => rfl) same).trans sourceKey⟩
  | created before answer =>
    subst before answer
    obtain rfl := Option.some.inj requested
    rcases created_of_perform performed with ⟨-, recorded⟩ | impossible | ⟨failure, impossible⟩
    · exact ⟨⟨_, (recorded record List.mem_cons_self).2, rfl⟩,
        assertion.sourceKeys.2 record (List.mem_append_right _ List.mem_cons_self)⟩
    · exact nomatch impossible
    · exact nomatch impossible
  | existing before answer =>
    subst before
    obtain ⟨version, member, rfl, selected⟩ := shown (Option.some.inj requested).symm answer
    exact ⟨⟨version, grows.versions version member, rfl⟩,
      Where.sourceKey_of_selects selected rfl⟩
  | concurrent before answer =>
    subst before
    obtain ⟨version, member, rfl, selected⟩ := shown (Option.some.inj requested).symm answer
    exact ⟨⟨version, grows.versions version member, rfl⟩,
      Where.sourceKey_of_selects selected rfl⟩
  | @reloaded old before answer =>
    subst before
    obtain ⟨known, sourceKey⟩ := knownBefore rfl
    obtain ⟨version, member, rfl, selected⟩ := shown (Option.some.inj requested).symm answer
    have same := Known.identity wellFormed ⟨version, member, rfl⟩ known
      (Where.id_of_selects selected rfl)
    exact ⟨⟨version, grows.versions version member, rfl⟩,
      (StoredFile.congr_identity (·.sourceKey) (fun _ => rfl) same).trans sourceKey⟩

/-- The file that a confirm is to create has an id of its own. -/
private theorem confirm_unborn (wellFormed : WellFormed deployment.limits store)
    (requested : ConfirmUpload.request deployment.limits ⟨command, phase⟩ = some request)
    (performed : perform store request oracle = some (after, response)) {file : StoredFile}
    (creates : ConfirmUpload.next deployment.limits command phase response = .creating file) :
    file.New after ∧ file.sourceKey = command.sourceKey := by
  rcases creating_of_next creates with rfl | ⟨metadata, fileId, rfl, rfl, rfl⟩
  · obtain rfl := Option.some.inj requested
    rcases created_of_perform performed with ⟨rfl, -⟩ | rfl | ⟨failure, rfl⟩ <;>
      exact nomatch creates
  · obtain rfl := Option.some.inj requested
    obtain ⟨-, new, issued, versions⟩ := generated_of_perform performed
    refine ⟨⟨rfl, issued fileId List.mem_cons_self, fun version member sameId => ?_, _, rfl⟩, rfl⟩
    have same : version.id = fileId := sameId
    rw [versions] at member
    exact new fileId List.mem_cons_self (same ▸ wellFormed.issued version member)

private theorem confirm_condemned (wellFormed : WellFormed deployment.limits store)
    (assertion : Handler.Assertion store (.confirm ⟨command, phase⟩))
    (requested : ConfirmUpload.request deployment.limits ⟨command, phase⟩ = some request)
    (performed : perform store request oracle = some (after, response)) {record : StoredFile}
    {failure : Failure}
    (discards : ConfirmUpload.next deployment.limits command phase response =
      .discardingFinal record failure) :
    ∃ version ∈ after.versions, version.key = record.key ∧ version.status = .rejected := by
  have grows := (effect_of_perform performed).extends
  rcases discarding_of_next discards with rfl | ⟨rfl, count, positive, rfl⟩
  · obtain ⟨version, member, same⟩ := assertion.condemned record.key List.mem_cons_self
    exact ⟨version, grows.versions version member, same⟩
  · obtain rfl := Option.some.inj requested
    obtain ⟨row, rowMem, selected, recorded⟩ := updated_of_perform performed positive
    have known : Known store record := assertion.known record List.mem_cons_self
    have same := Known.identity wellFormed ⟨row, wellFormed.recorded row rowMem, rfl⟩ known
      (Where.id_of_selects selected rfl)
    exact ⟨_, recorded, StoredFile.congr_identity (·.key) (fun _ => rfl) same, rfl⟩

private theorem confirm_resume (wellFormed : WellFormed deployment.limits store)
    (wellFormedAfter : WellFormed deployment.limits after)
    (assertion : Handler.Assertion store (.confirm ⟨command, phase⟩))
    (requested : ConfirmUpload.request deployment.limits ⟨command, phase⟩ = some request)
    (performed : perform store request oracle = some (after, response)) :
    Handler.Assertion after
      (.confirm ⟨command, ConfirmUpload.next deployment.limits command phase response⟩) := by
  have record : ∀ {file}, file ∈ Handler.known
      (.confirm ⟨command, ConfirmUpload.next deployment.limits command phase response⟩) →
      Known after file ∧ file.sourceKey = command.sourceKey := fun {file} member =>
    confirm_record wellFormed assertion requested performed (by simpa [Handler.known] using member)
  have unborn : ∀ {file}, file ∈ Handler.unborn
      (.confirm ⟨command, ConfirmUpload.next deployment.limits command phase response⟩) →
      file.New after ∧ file.sourceKey = command.sourceKey := fun {file} member =>
    confirm_unborn wellFormed requested performed (eq_creating_of_unborn member)
  refine
    { known := fun file member => (record member).1
      unborn := fun file member => (unborn member).1
      pending := ?_
      distinct := ?_
      owned := fun id member => ?_
      verifies := fun _ impossible => by cases impossible
      candidates := fun _ impossible => by cases impossible
      condemned := fun key member => ?_
      expired := fun _ impossible => by cases impossible
      sourceKeys := ⟨fun _ => assertion.sourceKeys.1 fun failure threw => ?_, fun file member => ?_⟩ }
  · cases ConfirmUpload.next deployment.limits command phase response <;>
      simp [Handler.pending, Handler.known, ConfirmPhase.pending, ConfirmPhase.record]
  · cases ConfirmUpload.next deployment.limits command phase response <;>
      simp [Handler.owned, ConfirmPhase.owned]
  · obtain ⟨file, rfl, creates | concerns⟩ := file_of_owned member
    · exact (unborn creates).1.issued
    · exact (record (by simp [Handler.known, concerns])).1.issued wellFormedAfter
  · obtain ⟨record, failure, discards, rfl⟩ := eq_discarding_of_condemned member
    exact confirm_condemned wellFormed assertion requested performed discards
  · subst threw
    cases requested
  · rcases List.mem_append.mp member with known | new
    · exact (record known).2
    · exact (unborn new).2

end Confirm

section UploadFiles
variable {options : UploadFilesOptions} {phase : UploadFilesPhase} {request : Request}
  {oracle : Oracle} {after : Store} {response : Response}

/-- A file of a batch is known from before, or its row has just been created. -/
private theorem uploadFiles_known
    (assertion : Handler.Assertion store (.uploadFiles ⟨options, phase⟩))
    (requested : UploadFiles.request deployment.limits deployment.etagOf ⟨options, phase⟩ =
      some request)
    (performed : perform store request oracle = some (after, response)) {file : StoredFile}
    (concerns : file ∈ (UploadFiles.next deployment.limits options phase response).known) :
    Known after file ∧ file.sourceKey = file.key := by
  rcases known_of_next concerns with ⟨old, member, same⟩ | ⟨prepared, rfl, rfl, member⟩
  · have sourceKey : old.sourceKey = old.key :=
      assertion.sourceKeys old (List.mem_append_left _ member)
    exact ⟨((assertion.known old member).mono (effect_of_perform performed).extends).of_identity
        same,
      (StoredFile.congr_identity (·.sourceKey) (fun _ => rfl) same).trans
        (sourceKey.trans (StoredFile.congr_identity (·.key) (fun _ => rfl) same).symm)⟩
  · obtain rfl := Option.some.inj requested
    rcases created_of_perform performed with ⟨-, recorded⟩ | impossible | ⟨failure, impossible⟩
    · exact ⟨⟨_, (recorded file member).2, rfl⟩,
        assertion.sourceKeys file (List.mem_append_right _ member)⟩
    · exact nomatch impossible
    · exact nomatch impossible

/-- The ids that a batch owns after a response were its own or have just been generated. -/
private theorem uploadFiles_owned
    (assertion : Handler.Assertion store (.uploadFiles ⟨options, phase⟩))
    (requested : UploadFiles.request deployment.limits deployment.etagOf ⟨options, phase⟩ =
      some request)
    (performed : perform store request oracle = some (after, response)) :
    ((UploadFiles.next deployment.limits options phase response).unpublished.map (·.id)).Nodup ∧
      ∀ file ∈ (UploadFiles.next deployment.limits options phase response).unpublished,
        file.id ∈ after.issued := by
  rcases unpublished_of_next deployment.limits options phase response with sublist | ⟨ids, rfl, rfl, sublist, -⟩
  · exact ⟨(sublist.map _).nodup assertion.distinct, fun file member =>
      (effect_of_perform performed).extends.issued _
        (assertion.owned file.id (List.mem_map_of_mem (sublist.mem member)))⟩
  · obtain rfl := Option.some.inj requested
    obtain ⟨distinct, -, issued, -⟩ := generated_of_perform performed
    exact ⟨sublist.nodup distinct, fun file member =>
      issued _ (sublist.mem (List.mem_map_of_mem member))⟩

/-- The files that a batch is to create have ids of their own. -/
private theorem uploadFiles_unborn (wellFormed : WellFormed deployment.limits store)
    (requested : UploadFiles.request deployment.limits deployment.etagOf ⟨options, phase⟩ =
      some request)
    (performed : perform store request oracle = some (after, response)) {file : StoredFile}
    (creates : file ∈ (UploadFiles.next deployment.limits options phase response).unborn) :
    file.New after ∧ file.sourceKey = file.key := by
  rcases unborn_of_next creates with ⟨ids, rfl, rfl⟩ | ⟨prepared, rfl, notDone, notDuplicate,
      notFailed⟩
  · have member := mem_unpublished_of_unborn creates
    rcases unpublished_of_next deployment.limits options .generatingIds (.ids ids) with
      sublist | ⟨ids', -, same, sublist, prepared⟩
    · exact nomatch sublist.mem member
    · obtain rfl := Response.ids.inj same
      obtain rfl := Option.some.inj requested
      obtain ⟨-, new, issued, versions⟩ := generated_of_perform performed
      have generated : file.id ∈ ids := sublist.mem (List.mem_map_of_mem member)
      refine ⟨⟨(prepared file member).status, issued _ generated, fun version old sameId => ?_,
        (prepared file member).keyed⟩, (prepared file member).source⟩
      rw [versions] at old
      exact new _ generated (sameId ▸ wellFormed.issued version old)
  · obtain rfl := Option.some.inj requested
    rcases created_of_perform performed with ⟨done, -⟩ | duplicate | ⟨failure, failed⟩
    · exact absurd done notDone
    · exact absurd duplicate notDuplicate
    · exact absurd failed (notFailed failure)

private theorem uploadFiles_resume (wellFormed : WellFormed deployment.limits store)
    (assertion : Handler.Assertion store (.uploadFiles ⟨options, phase⟩))
    (requested : UploadFiles.request deployment.limits deployment.etagOf ⟨options, phase⟩ =
      some request)
    (performed : perform store request oracle = some (after, response)) :
    Handler.Assertion after
      (.uploadFiles ⟨options, UploadFiles.next deployment.limits options phase response⟩) where
  known file member := (uploadFiles_known assertion requested performed member).1
  unborn file member := (uploadFiles_unborn wellFormed requested performed member).1
  pending := pending_sublist_of_next assertion.pending
  distinct := (uploadFiles_owned assertion requested performed).1
  owned id member := by
    obtain ⟨file, fileMem, rfl⟩ := List.mem_map.mp member
    exact (uploadFiles_owned assertion requested performed).2 file fileMem
  verifies _ impossible := nomatch impossible
  candidates _ impossible := nomatch impossible
  condemned _ impossible := nomatch impossible
  expired _ impossible := nomatch impossible
  sourceKeys file member := by
    rcases List.mem_append.mp member with known | new
    · exact (uploadFiles_known assertion requested performed known).2
    · exact (uploadFiles_unborn wellFormed requested performed new).2

end UploadFiles

/-! ## Verification and the lifecycle tasks -/

section Others
variable {request : Request} {oracle : Oracle} {after : Store} {response : Response}

private theorem verify_resume {command : UploadVerificationRequest} {phase : VerifyPhase}
    (wellFormed : WellFormed deployment.limits store)
    (assertion : Handler.Assertion store (.verify ⟨command, phase⟩))
    (requested : VerifyUpload.request deployment.limits ⟨command, phase⟩ = some request)
    (performed : perform store request oracle = some (after, response)) :
    Handler.Assertion after (.verify ⟨command, VerifyUpload.next command phase response⟩) := by
  have grows := (effect_of_perform performed).extends
  have kept := assertion.mono grows fun _ impossible => nomatch impossible
  refine { kept with condemned := fun key member => ?_ }
  obtain ⟨deletes, rfl⟩ : VerifyUpload.next command phase response = .deleting ∧
      key = command.key := by
    cases deletes : VerifyUpload.next command phase response <;>
      simp [Handler.condemned, deletes] at member
    exact ⟨rfl, member⟩
  rcases VerifyUpload.origin_of_next deletes with
    rfl | ⟨reason, count, rfl, positive, rfl⟩ | ⟨rfl, record, rfl, rejected⟩
  · exact kept.condemned _ List.mem_cons_self
  · obtain rfl := Option.some.inj requested
    obtain ⟨row, -, selected, recorded⟩ := updated_of_perform performed positive
    have sameKey : row.key = command.key := Where.key_of_selects selected rfl
    exact ⟨_, recorded, sameKey, rfl⟩
  · obtain rfl := Option.some.inj requested
    obtain ⟨version, shown, rfl, selected⟩ := found_of_perform performed wellFormed.recorded
    have sameKey : version.key = command.key := Where.key_of_selects selected rfl
    exact ⟨version, grows.versions version shown, sameKey, rejected⟩

private theorem reclaim_resume {candidate : CleanupCandidate} {phase : ReclaimPhase}
    (wellFormed : WellFormed deployment.limits store)
    (assertion : Handler.Assertion store (.reclaim ⟨candidate, phase⟩))
    (requested : Reclaim.request ⟨candidate, phase⟩ = some request)
    (performed : perform store request oracle = some (after, response)) :
    Handler.Assertion after (.reclaim ⟨candidate, Reclaim.next phase response⟩) := by
  have kept := assertion.mono (effect_of_perform performed).extends
    fun _ impossible => nomatch impossible
  refine { kept with condemned := fun key member => ?_ }
  obtain ⟨deletes, rfl⟩ : (Reclaim.next phase response = .deletingObject ∨
      Reclaim.next phase response = .deletingRow) ∧ key = candidate.key := by
    cases deletes : Reclaim.next phase response <;>
      simp [Handler.condemned, deletes] at member <;> simp [member]
  rcases Reclaim.deleting_of_next deletes with (rfl | rfl) | ⟨rfl, count, positive, rfl⟩
  · exact kept.condemned _ List.mem_cons_self
  · exact kept.condemned _ List.mem_cons_self
  · obtain rfl := Option.some.inj requested
    obtain ⟨row, rowMem, selected, recorded⟩ := updated_of_perform performed positive
    obtain ⟨version, member, sameId, sameLocation⟩ :=
      assertion.candidates (candidate.id, candidate.location) List.mem_cons_self
    have same := wellFormed.identity row (wellFormed.recorded row rowMem) version member
      ((Where.id_of_selects selected rfl).trans sameId.symm)
    have sameKey : version.key = candidate.key := congrArg Location.key sameLocation
    exact ⟨_, recorded, (StoredFile.congr_identity (·.key) (fun _ => rfl) same).trans sameKey, rfl⟩

end Others

/-- A response keeps what the handler knows. -/
theorem Handler.Assertion.resume {handler : Handler} {request : Request} {oracle : Oracle}
    {after : Store} {response : Response} (wellFormed : WellFormed deployment.limits store)
    (wellFormedAfter : WellFormed deployment.limits after) (assertion : handler.Assertion store)
    (requested : handler.request deployment = some request)
    (performed : perform store request oracle = some (after, response)) :
    (handler.resume deployment response).Assertion after := by
  cases handler with
  | confirm handler =>
    exact confirm_resume wellFormed wellFormedAfter assertion requested performed
  | uploadFiles handler => exact uploadFiles_resume wellFormed assertion requested performed
  | verify handler => exact verify_resume wellFormed assertion requested performed
  | reclaim handler => exact reclaim_resume wellFormed assertion requested performed
  | purge handler =>
    exact { assertion.mono (effect_of_perform performed).extends
      fun _ impossible => nomatch impossible with }

/-! ## The outline -/

/-- Two handlers own different ids. -/
def Handler.Apart (handler other : Handler) : Prop :=
  ∀ id ∈ handler.owned, id ∉ other.owned

/-- The ids of the files to be created are owned. -/
theorem Handler.owned_of_unborn {handler : Handler} {file : StoredFile}
    (member : file ∈ handler.unborn) : file.id ∈ handler.owned := by
  cases handler with
  | confirm handler =>
    obtain ⟨command, phase⟩ := handler
    obtain rfl := eq_creating_of_unborn member
    exact List.mem_cons_self
  | uploadFiles handler => exact List.mem_map_of_mem (mem_unpublished_of_unborn member)
  | verify | reclaim | purge => exact nomatch member

/-- Where the ids come from that a handler owns after a response. -/
theorem Handler.owned_of_resume {handler : Handler} {request : Request} {oracle : Oracle}
    {after : Store} {response : Response} (requested : handler.request deployment = some request)
    (performed : perform store request oracle = some (after, response)) {id : Uuid}
    (member : id ∈ (handler.resume deployment response).owned) :
    id ∈ handler.owned ∨ id ∉ store.issued := by
  cases handler with
  | confirm handler =>
    obtain ⟨command, phase⟩ := handler
    rcases owned_of_next member with old | ⟨metadata, rfl, rfl⟩
    · exact .inl old
    · obtain rfl := Option.some.inj requested
      exact .inr ((generated_of_perform performed).2.1 id List.mem_cons_self)
  | uploadFiles handler =>
    obtain ⟨options, phase⟩ := handler
    rcases unpublished_of_next deployment.limits options phase response with sublist | ⟨ids, rfl, rfl, sublist, -⟩
    · exact .inl ((sublist.map _).mem member)
    · obtain rfl := Option.some.inj requested
      exact .inr ((generated_of_perform performed).2.1 id (sublist.mem member))
  | verify | reclaim | purge => exact nomatch member

/-- A version that a request adds belongs to a row that was there, or that it creates. -/
theorem Effect.version_id {limits : UploadLimits} {request : Request} {after : Store}
    (wellFormed : WellFormed limits store) (effect : Effect store request after)
    {version : StoredFileRow} (member : version ∈ after.versions) :
    (∃ old ∈ store.versions, old.id = version.id) ∨
      ∃ files, request = .createMany files ∧ ∃ file ∈ files, version.id = file.id := by
  rcases effect.version member with recorded | row
  · exact .inl ⟨version, recorded, rfl⟩
  · cases effect.rowOrigin row with
    | old rowMem => exact .inl ⟨version, wellFormed.recorded version rowMem, rfl⟩
    | @created files file creates fileMem new =>
      subst new
      exact .inr ⟨files, creates, file, fileMem, rfl⟩
    | @updated condition data old updates oldMem selected new =>
      subst new
      exact .inl ⟨old, wellFormed.recorded old oldMem, rfl⟩

/-! ## The start of a handler -/

/-- A handler that has read no row yet knows as much as its command and its candidate say. -/
private theorem assertion_of_start {handler : Handler} (known : handler.known = [])
    (unborn : handler.unborn = []) (owned : handler.owned = []) (pending : handler.pending = [])
    (condemned : handler.condemned = [])
    (verifies : ∀ command ∈ handler.verifies,
      ∃ version ∈ store.versions, version.verification = command)
    (candidates : ∀ candidate ∈ handler.candidates,
      ∃ version ∈ store.versions, version.id = candidate.1 ∧ version.location = candidate.2)
    (expired : ∀ key ∈ handler.expired,
      ∃ version ∈ store.versions, version.key = key ∧ version.deletedAt.isSome)
    (sourceKeys : handler.SourceKeys) : handler.Assertion store where
  known file member := by simp [known] at member
  unborn file member := by simp [unborn] at member
  pending := by simp [pending]
  distinct := by simp [owned]
  owned id member := by simp [owned] at member
  verifies := verifies
  candidates := candidates
  condemned key member := by simp [condemned] at member
  expired := expired
  sourceKeys := sourceKeys

private theorem confirm_start (command : ConfirmUploadCommand) :
    Handler.Assertion store (.confirm (ConfirmUpload.start command)) := by
  unfold ConfirmUpload.start
  split
  · rename_i owns
    refine assertion_of_start rfl rfl rfl rfl rfl (fun _ impossible => by cases impossible)
      (fun _ impossible => by cases impossible) (fun _ impossible => by cases impossible)
      ⟨fun _ => owns, fun _ impossible => by cases impossible⟩
  · rename_i exception _
    exact assertion_of_start rfl rfl rfl rfl rfl (fun _ impossible => by cases impossible)
      (fun _ impossible => by cases impossible) (fun _ impossible => by cases impossible)
      ⟨fun running => absurd rfl (running (.domain exception)), fun _ impossible => by cases impossible⟩

/-- A confirm starts by looking for its row, unless its caller does not own the source key. -/
theorem phase_of_admits {command : ConfirmUploadCommand} {phase : ConfirmPhase}
    (admitted : admits deployment store (.confirm ⟨command, phase⟩) = true) :
    phase = .findingExisting ∨ ∃ failure, phase = .threw failure := by
  have started : phase = (ConfirmUpload.start command).phase :=
    congrArg ConfirmUpload.phase (of_decide_eq_true admitted)
  rw [started, ConfirmUpload.start]
  split
  · exact .inl rfl
  · exact .inr ⟨_, rfl⟩

/-- Every handler starts out knowing nothing but what its command or candidate says. -/
theorem Handler.assertion_of_admits {limits : UploadLimits} (wellFormed : WellFormed limits store)
    {handler : Handler} (admitted : admits deployment store handler = true) :
    handler.Assertion store ∧ handler.owned = [] ∧ handler.known = [] := by
  cases handler with
  | confirm handler =>
    obtain ⟨command, phase⟩ := handler
    have same := of_decide_eq_true admitted
    rw [same]
    refine ⟨confirm_start command, ?_⟩
    unfold ConfirmUpload.start
    split <;> exact ⟨rfl, rfl⟩
  | uploadFiles handler =>
    obtain ⟨options, phase⟩ := handler
    have same := of_decide_eq_true admitted
    rw [same]
    exact ⟨assertion_of_start rfl rfl rfl rfl rfl (fun _ impossible => by cases impossible)
      (fun _ impossible => by cases impossible) (fun _ impossible => by cases impossible)
      (fun _ impossible => by cases impossible), rfl, rfl⟩
  | verify handler =>
    obtain ⟨command, phase⟩ := handler
    simp only [admits, Bool.and_eq_true, decide_eq_true_eq, List.contains_iff_mem] at admitted
    obtain ⟨same, enqueued⟩ := admitted
    rw [same]
    refine ⟨assertion_of_start rfl rfl rfl rfl rfl (fun job member => ?_)
      (fun _ impossible => by cases impossible) (fun _ impossible => by cases impossible) trivial, rfl,
      rfl⟩
    obtain rfl := List.mem_singleton.mp member
    exact wellFormed.jobs _ enqueued
  | reclaim handler =>
    obtain ⟨candidate, phase⟩ := handler
    simp only [admits, Bool.and_eq_true, decide_eq_true_eq, List.any_eq_true] at admitted
    obtain ⟨same, row, rowMem, rfl, -⟩ := admitted
    rw [same]
    refine ⟨assertion_of_start rfl rfl rfl rfl ?_ (fun _ impossible => by cases impossible)
      (fun other member => ?_) (fun _ impossible => by cases impossible) trivial, rfl,
      rfl⟩
    · simp only [Reclaim.start, Handler.condemned]
      split <;> rfl
    · obtain rfl := List.mem_singleton.mp member
      exact ⟨row, wellFormed.recorded row rowMem, rfl, rfl⟩
  | purge handler =>
    obtain ⟨candidate, phase⟩ := handler
    simp only [admits, Bool.and_eq_true, decide_eq_true_eq, List.any_eq_true] at admitted
    obtain ⟨same, row, rowMem, rfl, selected⟩ := admitted
    rw [same]
    refine ⟨assertion_of_start rfl rfl rfl rfl rfl (fun _ impossible => by cases impossible)
      (fun other member => ?_) (fun key member => ?_) trivial, rfl,
      rfl⟩
    · obtain rfl := List.mem_singleton.mp member
      exact ⟨row, wellFormed.recorded row rowMem, rfl, rfl⟩
    · obtain rfl := List.mem_singleton.mp member
      refine ⟨row, wellFormed.recorded row rowMem, rfl, ?_⟩
      cases deleted : row.deletedAt with
      | none => simp [purgeSelects, deleted] at selected
      | some time => rfl

theorem WellFormed.initial {limits : UploadLimits} (initial : Initial store) :
    WellFormed limits store := by
  obtain ⟨rows, versions, jobs, issued, objects⟩ := initial
  refine
    { unique := by simp [rows, RecordTable.Unique]
      recorded := by simp [rows]
      issued := by simp [versions]
      keyed := by simp [versions]
      identity := by simp [versions]
      rejected := by simp [versions]
      deleted := by simp [versions]
      verifying := by simp [versions]
      jobs := by simp [jobs]
      objects := fun location published present => absurd (objects location published) present }

/-- What happens beside the handlers creates no row and changes no status. -/
theorem external_row {event : UploadEvent} {after : Store}
    (changed : external store event = some after) {row : StoredFileRow}
    (member : row ∈ after.rows) :
    ∃ old ∈ store.rows, row.toStoredFile = old.toStoredFile ∧
      row.scanOutcome = old.scanOutcome ∧ (row.deletedAt = none → old.deletedAt = none) := by
  cases event with
  | softDelete target =>
    obtain rfl := Option.some.inj changed
    obtain ⟨old, oldMem, rfl⟩ := RecordTable.mem_updateMany.mp member
    refine ⟨old, oldMem, ?_⟩
    split
    · exact ⟨rfl, rfl, fun impossible => nomatch impossible⟩
    · exact ⟨rfl, rfl, id⟩
  | recoverVerification target =>
    obtain ⟨_, _, rfl⟩ := Option.map_eq_some_iff.mp changed
    exact ⟨row, member, rfl, rfl, id⟩
  | elapse milliseconds =>
    obtain rfl := Option.some.inj changed
    exact ⟨row, member, rfl, rfl, id⟩
  | clientUpload location object | stagingExpiry location =>
    simp only [external] at changed
    split at changed
    · obtain rfl := Option.some.inj changed
      exact ⟨row, member, rfl, rfl, id⟩
    · simp at changed

theorem external_kept {event : UploadEvent} {after : Store}
    (changed : external store event = some after) {row : StoredFileRow} (member : row ∈ store.rows) :
    ∃ kept ∈ after.rows, kept.toStoredFile = row.toStoredFile := by
  cases event with
  | softDelete target =>
    obtain rfl := Option.some.inj changed
    refine ⟨_, RecordTable.mem_updateMany.mpr ⟨row, member, rfl⟩, ?_⟩
    split <;> rfl
  | recoverVerification target =>
    obtain ⟨_, _, rfl⟩ := Option.map_eq_some_iff.mp changed
    exact ⟨row, member, rfl⟩
  | elapse milliseconds =>
    obtain rfl := Option.some.inj changed
    exact ⟨row, member, rfl⟩
  | clientUpload location object | stagingExpiry location =>
    simp only [external] at changed
    split at changed
    · obtain rfl := Option.some.inj changed
      exact ⟨row, member, rfl⟩
    · simp at changed

theorem external_version {limits : UploadLimits} (wellFormed : WellFormed limits store)
    {event : UploadEvent} {after : Store} (changed : external store event = some after)
    {version : StoredFileRow} (member : version ∈ after.versions) :
    ∃ old ∈ store.versions, version.toStoredFile = old.toStoredFile := by
  have recorded : version ∈ store.versions ∨ version ∈ after.rows := by
    cases event with
    | softDelete id =>
      obtain rfl := Option.some.inj changed
      exact (List.mem_append.mp member).symm
    | recoverVerification id =>
      obtain ⟨_, _, rfl⟩ := Option.map_eq_some_iff.mp changed
      exact .inl member
    | elapse milliseconds =>
      obtain rfl := Option.some.inj changed
      exact .inl member
    | clientUpload location object | stagingExpiry location =>
      simp only [external] at changed
      split at changed
      · obtain rfl := Option.some.inj changed
        exact .inl member
      · simp at changed
  rcases recorded with old | row
  · exact ⟨version, old, rfl⟩
  · obtain ⟨old, oldMem, same, -⟩ := external_row changed row
    exact ⟨old, wellFormed.recorded old oldMem, same⟩

/-- Published objects are changed by handlers only. -/
theorem external_object {event : UploadEvent} {after : Store}
    (changed : external store event = some after) {location : Location}
    (published : isPublishedKey location.key = true) :
    after.objects location = store.objects location := by
  have staged : ∀ target : Location, startsWith target.key stagingRoot = true →
      location ≠ target := by
    rintro target staged rfl
    exact not_staged_and_published staged published
  cases event with
  | softDelete id =>
    obtain rfl := Option.some.inj changed
    rfl
  | recoverVerification id =>
    obtain ⟨_, _, rfl⟩ := Option.map_eq_some_iff.mp changed
    rfl
  | elapse milliseconds =>
    obtain rfl := Option.some.inj changed
    rfl
  | clientUpload target object | stagingExpiry target =>
    simp only [external] at changed
    split at changed
    · obtain rfl := Option.some.inj changed
      simp [Store.setObject, staged target ‹_›]
    · simp at changed

/-! ## The outline itself -/

def uploadOutline (deployment : Deployment) : SharedService.Outline Store Handler where
  invariant := WellFormed deployment.limits
  assertion store handler := handler.Assertion store
  apart := Handler.Apart

theorem uploadOutline_sound (deployment : Deployment) :
    SharedService.Outline.Sound (uploadService deployment) .trivial .none
      (uploadOutline deployment) where
  initial store initial := .initial initial
  symmetric handler other apart id member owned := apart id owned member
  spawned store handler _ wellFormed admitted := by
    obtain ⟨assertion, owned, -⟩ := Handler.assertion_of_admits wellFormed admitted
    exact ⟨assertion, fun other _ _ id member => by simp [owned] at member⟩
  performed store handler request oracle after response _ _ _ _ wellFormed assertion requested
      performed _ := by
    have wellFormedAfter := wellFormed.effect (assertion.lawful requested)
      (effect_of_perform performed)
    exact ⟨wellFormedAfter, assertion.resume wellFormed wellFormedAfter requested performed⟩
  undisturbed store handler request oracle after response other _ _ _ _ _ wellFormed assertion
      otherAssertion apart requested performed _ _ := by
    have effect := effect_of_perform performed
    refine ⟨otherAssertion.mono effect.extends fun file member version recorded sameId => ?_,
      fun id owned otherOwned => ?_⟩
    · rcases effect.version_id wellFormed recorded with ⟨old, oldMem, same⟩ | ⟨files, rfl, created,
        createdMem, same⟩
      · exact (otherAssertion.unborn file member).unused old oldMem (same.trans sameId)
      · obtain rfl := Handler.unborn_of_request requested
        refine apart file.id ?_ (Handler.owned_of_unborn member)
        exact sameId ▸ same ▸ Handler.owned_of_unborn createdMem
    · rcases Handler.owned_of_resume requested performed owned with own | new
      · exact apart id own otherOwned
      · exact new (otherAssertion.owned id otherOwned)
  external store event after _ wellFormed changed := by
    obtain ⟨wellFormedAfter, grows⟩ := wellFormed.external changed
    refine ⟨wellFormedAfter, fun handler _ assertion => assertion.mono grows
      fun file member version recorded sameId => ?_⟩
    obtain ⟨old, oldMem, same⟩ := external_version wellFormed changed recorded
    exact (assertion.unborn file member).unused old oldMem
      ((congrArg StoredFile.id same).symm.trans sameId)

/-- The outline holds in every reachable world. -/
theorem uploadOutline_holds {deployment : Deployment} {world : UploadWorld}
    (reachable : (uploadService deployment).system.Reachable world) :
    (uploadOutline deployment).Holds world :=
  (uploadOutline_sound deployment).reachable (fun world _ => SharedService.Outline.trivial_holds world)
    reachable

/-- No step forgets a version, a generated id or a job. -/
theorem extends_of_step {world final : UploadWorld} {event : UploadStep}
    (reachable : (uploadService deployment).system.Reachable world)
    (taken : (uploadService deployment).system.step world event = some final) :
    world.shared.Extends final.shared := by
  cases SharedService.step_cases taken with
  | spawn | crash => exact .refl _
  | advance running requested performed => exact (effect_of_perform performed).extends
  | external changed => exact ((uploadOutline_holds reachable).invariant.external changed).2

/-- Every row that was in the table of a run is among the versions. -/
theorem recorded_of_run {history : List (UploadWorld × UploadStep)} {world : UploadWorld}
    (run : (uploadService deployment).system.Run history world) {entry : UploadWorld × UploadStep}
    (member : entry ∈ history) {row : StoredFileRow} (rowMem : row ∈ entry.1.shared.rows) :
    row ∈ world.shared.versions :=
  run.stable (fun world => row ∈ world.shared.versions)
    (fun _ _ _ reachable recorded taken => (extends_of_step reachable taken).versions row recorded)
    member ((uploadOutline_holds (run.reachable_of_mem member)).invariant.recorded row rowMem)

end

end NestjsFastify.Upload
