import NestjsFastify.PublishedObjects

/-! # Rows and their objects

Only its own upload publishes a row of a batch, so that the cleanup of a failed batch never removes
the object of a published row.  Neither does anything else while the row is live.
-/
namespace NestjsFastify.Upload

section
variable {deployment : Deployment} {store after : Store} {handler other : Handler}
  {request : Request} {oracle : Oracle} {response : Response}

/-- The files of a multipart upload until it has published them. -/
def Handler.batch : Handler → List StoredFile
  | .uploadFiles handler => handler.phase.unpublished
  | _ => []

theorem Handler.owned_of_batch {file : StoredFile} (member : file ∈ handler.batch) :
    file.id ∈ handler.owned := by
  cases handler with
  | uploadFiles handler => exact List.mem_map_of_mem member
  | _ => exact nomatch member

private theorem unpublished_cases {phase : UploadFilesPhase} {file : StoredFile}
    (member : file ∈ phase.unpublished) : file ∈ phase.unborn ∨ file ∈ phase.known := by
  cases phase with
  | answering => exact nomatch member
  | _ => exact List.mem_append.mp member

/-- A file of a batch that has a version is known, and has no staged key. -/
theorem Handler.Assertion.batch {limits : UploadLimits} (wellFormed : WellFormed limits store)
    (assertion : handler.Assertion store) {file : StoredFile} (member : file ∈ handler.batch)
    {version : StoredFileRow} (recorded : version ∈ store.versions) (sameId : version.id = file.id) :
    version.identity = file.identity ∧ isPublishedKey version.sourceKey = true := by
  cases handler with
  | uploadFiles handler =>
    rcases unpublished_cases member with unborn | known
    · exact absurd sameId ((assertion.unborn file unborn).unused version recorded)
    · have same := Known.identity wellFormed ⟨version, recorded, rfl⟩ (assertion.known file known)
        sameId
      have source : file.sourceKey = file.key :=
        assertion.sourceKeys file (List.mem_append_left _ known)
      refine ⟨same, ?_⟩
      have key : version.sourceKey = version.key :=
        (StoredFile.congr_identity (·.sourceKey) (fun _ => rfl) same).trans
          (source.trans (StoredFile.congr_identity (·.key) (fun _ => rfl) same).symm)
      exact key ▸ wellFormed.published recorded
  | _ => exact nomatch member

/-- The record of a confirm has a staged key. -/
theorem Handler.Assertion.staged {limits : UploadLimits} (wellFormed : WellFormed limits store)
    {command : ConfirmUploadCommand} {phase : ConfirmPhase}
    (assertion : Handler.Assertion store (.confirm ⟨command, phase⟩))
    (running : ∀ failure, phase ≠ .threw failure) {record : StoredFile}
    (concerns : phase.record = some record) {version : StoredFileRow}
    (recorded : version ∈ store.versions) (sameId : version.id = record.id) :
    version.identity = record.identity ∧ startsWith version.sourceKey stagingRoot = true := by
  have known : record ∈ Handler.known (.confirm ⟨command, phase⟩) := by
    simp [Handler.known, concerns]
  have same := Known.identity wellFormed ⟨version, recorded, rfl⟩ (assertion.known record known)
    sameId
  have source : version.sourceKey = command.sourceKey :=
    (StoredFile.congr_identity (·.sourceKey) (fun _ => rfl) same).trans
      (assertion.sourceKeys.2 record (List.mem_append_left _ known))
  exact ⟨same, source ▸ staged_of_owns (assertion.sourceKeys.1 running)⟩

/-! ## The rows of a batch -/

/-- The row of a file that is not published yet. -/
def StoredFileRow.Unpublished (row : StoredFileRow) : Prop :=
  row.status = .finalizing ∨ row.status = .rejected

def batchOutline : SharedService.Outline Store Handler where
  invariant _ := True
  assertion store handler := ∀ file ∈ handler.batch, ∀ row ∈ store.rows, row.id = file.id →
    row.Unpublished
  apart _ _ := True

/-- An update leaves a row unpublished unless it publishes the row. -/
private theorem unpublished_of_updates {limits : UploadLimits} {condition : Where} {data : Data}
    (updates : handler.Updates limits condition data) {row : StoredFileRow} {now : Nat}
    (unpublished : row.Unpublished) (selected : condition.selects row = true) :
    (data.apply now row).Unpublished ∨
      (∃ command record, handler = .confirm ⟨command, .flipping record⟩ ∧ row.id = record.id) ∨
      ∃ options prepared, handler = .uploadFiles ⟨options, .publishingBatch prepared⟩ ∧
        row.id ∈ prepared.map (·.props.id) := by
  cases updates with
  | verified =>
    have verifying : row.status = .verifying := Where.status_of_selects selected rfl
    rcases unpublished with finalizing | rejected
    · exact nomatch finalizing.symm.trans verifying
    · exact nomatch rejected.symm.trans verifying
  | confirmed => exact .inr (.inl ⟨_, _, rfl, Where.id_of_selects selected rfl⟩)
  | published => exact .inr (.inr ⟨_, _, rfl, Where.ids_of_selects selected rfl⟩)
  | rejected rejects | claimed rejects => exact .inl (.inr (by simp [Data.apply, rejects]))

/-- A file that still is to be published has just been prepared, or was to be published before and
its batch has not been submitted. -/
private theorem batch_of_resume (requested : handler.request deployment = some request)
    (performed : perform store request oracle = some (after, response)) {file : StoredFile}
    (member : file ∈ (handler.resume deployment response).batch) :
    file.id ∉ store.issued ∨ file ∈ handler.batch ∧
      ∀ options prepared, handler ≠ .uploadFiles ⟨options, .publishingBatch prepared⟩ := by
  cases handler with
  | uploadFiles handler =>
    obtain ⟨options, phase⟩ := handler
    rcases unpublished_of_next deployment.limits options phase response with sublist | ⟨ids, rfl, rfl, sublist, -⟩
    · refine .inr ⟨sublist.mem member, ?_⟩
      rintro options' prepared same
      obtain ⟨rfl, rfl⟩ := UploadFiles.mk.inj (Handler.uploadFiles.inj same)
      obtain rfl := Option.some.inj requested
      rcases published_of_perform performed with rfl | ⟨failure, rfl⟩
      · change file ∈ (answerNext [] _).unpublished at member
        rw [answerNext_unpublished] at member
        exact nomatch member
      · exact nomatch member
    · obtain rfl := Option.some.inj requested
      exact .inl ((generated_of_perform performed).2.1 _
        (sublist.mem (List.mem_map_of_mem member)))
  | _ => exact nomatch member

theorem batchOutline_sound (deployment : Deployment) :
    SharedService.Outline.Sound (uploadService deployment) (uploadOutline deployment) .none
      batchOutline where
  initial _ _ := trivial
  symmetric _ _ _ := trivial
  spawned store handler wellFormed _ admitted := by
    refine ⟨fun file member => ?_, fun _ _ _ => trivial⟩
    have own := Handler.owned_of_batch member
    simp [(Handler.assertion_of_admits wellFormed admitted).2.1] at own
  performed store handler request oracle after response wellFormed assertion wellFormedAfter
      assertionAfter _ batch requested performed _ := by
    refine ⟨trivial, fun file member row rowMem sameId => ?_⟩
    rcases batch_of_resume requested performed member with new | ⟨old, notPublishing⟩
    · refine absurd ?_ new
      rcases (effect_of_perform performed).version_id wellFormed
          (wellFormedAfter.recorded row rowMem) with ⟨old, oldMem, same⟩ |
          ⟨files, rfl, created, createdMem, same⟩
      · exact (same.trans sameId) ▸ wellFormed.issued old oldMem
      · obtain rfl := Handler.unborn_of_request requested
        exact (same.symm.trans sameId) ▸ (assertion.unborn created createdMem).issued
    · cases (effect_of_perform performed).rowOrigin rowMem with
      | old oldMem => exact batch file old row oldMem sameId
      | @created files created creates createdMem same =>
        subst same creates
        obtain rfl := Handler.unborn_of_request requested
        exact .inl (assertion.unborn created createdMem).status
      | @updated condition data before updates beforeMem selected same =>
        subst same
        have unpublished := batch file old before beforeMem sameId
        rcases unpublished_of_updates (Handler.updates_of_request requested updates) unpublished
          selected with still | ⟨command, record, rfl, -⟩ | ⟨options, prepared, rfl, -⟩
        · exact still
        · exact nomatch old
        · exact absurd rfl (notPublishing options prepared)
  undisturbed store handler request oracle after response other wellFormed assertion otherAssertion
      apart _ _ _ batch _ requested performed _ _ := by
    refine ⟨fun file member row rowMem sameId => ?_, trivial⟩
    cases (effect_of_perform performed).rowOrigin rowMem with
    | old oldMem => exact batch file member row oldMem sameId
    | @created files created creates createdMem same =>
      subst same creates
      obtain rfl := Handler.unborn_of_request requested
      exact .inl (assertion.unborn created createdMem).status
    | @updated condition data before updates beforeMem selected same =>
      subst same
      have recorded := wellFormed.recorded before beforeMem
      have unpublished := batch file member before beforeMem sameId
      rcases unpublished_of_updates (Handler.updates_of_request requested updates) unpublished
        selected with still | ⟨command, record, rfl, sameRecord⟩ | ⟨options, prepared, rfl, published⟩
      · exact still
      · -- a confirm publishes rows with staged keys only
        have staged := (assertion.staged wellFormed (fun _ => ConfirmPhase.noConfusion) rfl recorded
          sameRecord).2
        have key := (otherAssertion.batch wellFormed member recorded sameId).2
        exact (not_staged_and_published staged key).elim
      · obtain ⟨source, sourceMem, same⟩ := List.mem_map.mp published
        have own : before.id ∈ Handler.owned (.uploadFiles ⟨options, .publishingBatch prepared⟩) :=
          same ▸ List.mem_map_of_mem (List.mem_map_of_mem sourceMem)
        have others : before.id ∈ other.owned := sameId ▸ Handler.owned_of_batch member
        exact absurd others (apart _ own)
  external store event after _ _ changed := by
    refine ⟨trivial, fun handler _ batch file member row rowMem sameId => ?_⟩
    obtain ⟨old, oldMem, same, -⟩ := external_row changed rowMem
    have unpublished := batch file member old oldMem ((congrArg StoredFile.id same).symm.trans sameId)
    rwa [StoredFileRow.Unpublished, congrArg StoredFile.status same]

theorem batchOutline_holds {world : UploadWorld}
    (reachable : (uploadService deployment).system.Reachable world) : batchOutline.Holds world :=
  (batchOutline_sound deployment).reachable (fun _ => uploadOutline_holds) reachable

/-! ## Removed objects -/

/-- Why a handler may remove the object of a row. -/
inductive Handler.MayRemove (handler : Handler) (row : StoredFileRow) : Prop
  | rejected (rejected : row.status = .rejected)
  | softDeleted (deleted : row.deletedAt.isSome)
  | unpublished {options : UploadFilesOptions} {file : StoredFile} {todo : List StoredFile}
      {failure : Failure} (cleans : handler = .uploadFiles ⟨options, .deletingObject (file :: todo) failure⟩)
      (same : file.id = row.id) (finalizing : row.status = .finalizing)

/-- The object of a row is removed once the row is rejected or soft-deleted, or by the upload of the
row before it publishes the row. -/
theorem Handler.Removes.mayRemove {limits : UploadLimits} (wellFormed : WellFormed limits store)
    (assertion : handler.Assertion store) (batch : batchOutline.assertion store handler)
    {row : StoredFileRow} (removes : handler.Removes row.location) (member : row ∈ store.rows) :
    handler.MayRemove row := by
  have condemned : ∀ {key}, key ∈ handler.condemned → row.key = key → row.status = .rejected := by
    intro key condemned same
    obtain ⟨version, recorded, versionKey, rejected⟩ := assertion.condemned key condemned
    exact wellFormed.rejected version recorded rejected row member
      (wellFormed.id_of_key (wellFormed.recorded row member) recorded (same.trans versionKey.symm))
  generalize located : row.location = location at removes
  have key : row.key = location.key := congrArg Location.key located
  cases removes with
  | staged running =>
    have published := wellFormed.published (wellFormed.recorded row member)
    rw [key] at published
    exact (not_staged_and_published (staged_of_owns (assertion.sourceKeys.1 running)) published).elim
  | discarded => exact .rejected (condemned List.mem_cons_self key)
  | @cleaned options file todo failure =>
    have fileMem : file ∈ Handler.batch (.uploadFiles ⟨options, .deletingObject (file :: todo) failure⟩) :=
      List.mem_cons_self
    have known : Known store file := assertion.known file List.mem_cons_self
    have sameId : row.id = file.id :=
      Known.id_of_location wellFormed ⟨row, wellFormed.recorded row member, rfl⟩ known located
    rcases batch file fileMem row member sameId with finalizing | rejected
    · exact .unpublished rfl sameId.symm finalizing
    · exact .rejected rejected
  | rejected => exact .rejected (condemned List.mem_cons_self key)
  | reclaimed => exact .rejected (condemned List.mem_cons_self key)
  | purged =>
    obtain ⟨version, recorded, versionKey, deleted⟩ := assertion.expired _ List.mem_cons_self
    exact .softDeleted (wellFormed.deleted version recorded deleted row member
      (wellFormed.id_of_key (wellFormed.recorded row member) recorded (key.trans versionKey.symm)))

/-! ## Published rows have their objects -/

/-- The files whose objects the handler has written or seen, and whose rows it may publish. -/
def Handler.placed : Handler → List StoredFile
  | .confirm handler => handler.phase.placed
  | .uploadFiles handler => handler.phase.placed
  | _ => []

/-- The row is published and has not been soft-deleted. -/
def StoredFileRow.Published (row : StoredFileRow) : Prop :=
  (row.status = .verifying ∨ row.status = .ready) ∧ row.deletedAt = none

theorem StoredFileRow.Published.not_mayRemove {row : StoredFileRow} (published : row.Published) :
    ¬handler.MayRemove row := by
  obtain ⟨status, live⟩ := published
  rintro (rejected | deleted | ⟨-, -, finalizing⟩)
  · rcases status with verifying | ready
    · exact nomatch rejected.symm.trans verifying
    · exact nomatch rejected.symm.trans ready
  · simp [live] at deleted
  · rcases status with verifying | ready
    · exact nomatch finalizing.symm.trans verifying
    · exact nomatch finalizing.symm.trans ready

def placedOutline : SharedService.Outline Store Handler where
  invariant store := ∀ row ∈ store.rows, row.Published → store.objects row.location ≠ none
  assertion store handler := ∀ file ∈ handler.placed, ∀ row ∈ store.rows, row.id = file.id →
    row.status = .finalizing → row.deletedAt = none → store.objects file.location ≠ none
  apart _ _ := True

theorem Handler.known_of_placed {file : StoredFile} (member : file ∈ handler.placed) :
    file ∈ handler.known := by
  cases handler with
  | confirm handler =>
    obtain ⟨command, phase⟩ := handler
    cases phase <;> simp_all [Handler.placed, Handler.known, ConfirmPhase.placed, ConfirmPhase.record]
  | uploadFiles handler =>
    obtain ⟨options, phase⟩ := handler
    cases phase with
    | streaming prepared todo => exact List.map_subset _ (List.filter_subset_self _) member
    | checkingSignal | publishingBatch => exact member
    | _ => cases member
  | verify | reclaim | purge => cases member

/-- A handler that may still publish a row does not remove the object of the row. -/
theorem Handler.Assertion.keeps_placed {limits : UploadLimits} (wellFormed : WellFormed limits store)
    (assertion : handler.Assertion store) {file : StoredFile} (member : file ∈ handler.placed) :
    ¬handler.Removes file.location := by
  intro removes
  have published := (assertion.known file (Handler.known_of_placed member)).published wellFormed
  generalize file.location = location at removes published
  cases removes with
  | staged running =>
    exact not_staged_and_published (staged_of_owns (assertion.sourceKeys.1 running)) published
  | discarded | cleaned | rejected | reclaimed | purged => exact nomatch member

/-- An object is in place once its storage call says so, and stays so for its handler. -/
private theorem placed_of_resume (requested : handler.request deployment = some request)
    (performed : perform store request oracle = some (after, response)) {file : StoredFile}
    (member : file ∈ (handler.resume deployment response).placed) :
    file ∈ handler.placed ∨ after.objects file.location ≠ none := by
  cases handler with
  | confirm handler =>
    obtain ⟨command, phase⟩ := handler
    rcases placed_of_next member with old | ⟨rfl, rfl⟩ | ⟨metadata, rfl, rfl⟩
    · exact .inl old
    · obtain rfl := Option.some.inj requested
      rcases written_of_perform performed rfl with ⟨-, present⟩ | ⟨failure, impossible⟩
      · exact .inr present
      · exact nomatch impossible
    · obtain rfl := Option.some.inj requested
      rcases (effect_of_perform performed).object file.location with same | ⟨impossible, -⟩ |
          ⟨impossible, -⟩
      · exact .inr (same ▸ present_of_head performed)
      · exact nomatch impossible
      · exact nomatch impossible
  | uploadFiles handler =>
    obtain ⟨options, phase⟩ := handler
    rcases streamed_of_next member with old | ⟨rest, pending, rfl⟩
    · exact .inl old
    · cases phase with
      | streaming prepared todo =>
        cases todo with
        | nil => exact nomatch pending
        | cons first todo =>
          obtain ⟨rfl, -⟩ := List.cons.inj pending
          obtain rfl := Option.some.inj requested
          rcases written_of_perform performed rfl with ⟨-, present⟩ | ⟨failure, impossible⟩
          · exact .inr present
          · exact nomatch impossible
      | _ => exact nomatch pending
  | verify | reclaim | purge => exact nomatch member

/-- The object of a row stays where it is unless the handler may remove it. -/
private theorem object_kept (wellFormed : WellFormed deployment.limits store)
    (assertion : handler.Assertion store) (batch : batchOutline.assertion store handler)
    (requested : handler.request deployment = some request)
    (performed : perform store request oracle = some (after, response)) {row : StoredFileRow}
    (member : row ∈ store.rows) (present : store.objects row.location ≠ none) :
    after.objects row.location ≠ none ∨ handler.Removes row.location ∧ handler.MayRemove row := by
  rcases (effect_of_perform performed).object row.location with same | ⟨-, present⟩ | ⟨rfl, -⟩
  · exact .inl (same ▸ present)
  · exact .inl present
  · have removes := Handler.removes_of_request requested
    exact .inr ⟨removes, removes.mayRemove wellFormed assertion batch member⟩

/-- A row is published from FINALIZING by the handler that put its object in place. -/
private theorem published_of_updates {limits : UploadLimits} {condition : Where} {data : Data}
    (updates : handler.Updates limits condition data) {row : StoredFileRow} {now : Nat}
    (selected : condition.selects row = true) (published : (data.apply now row).Published) :
    row.Published ∨ row.status = .finalizing ∧ row.deletedAt = none ∧
      ∃ file ∈ handler.placed, row.id = file.id := by
  cases updates with
  | verified =>
    exact .inl ⟨.inl (Where.status_of_selects selected rfl), Where.live_of_selects selected rfl⟩
  | confirmed =>
    exact .inr ⟨Where.status_of_selects selected rfl, Where.live_of_selects selected rfl,
      _, List.mem_cons_self, Where.id_of_selects selected rfl⟩
  | published =>
    obtain ⟨file, fileMem, same⟩ := List.mem_map.mp (Where.ids_of_selects selected rfl)
    exact .inr ⟨Where.status_of_selects selected rfl, Where.live_of_selects selected rfl,
      _, List.mem_map_of_mem fileMem, same.symm⟩
  | rejected rejects | claimed rejects =>
    simp [StoredFileRow.Published, Data.apply, rejects] at published

private theorem status_of_updates {limits : UploadLimits} {condition : Where} {data : Data}
    (updates : handler.Updates limits condition data) (row : StoredFileRow) (now : Nat) :
    (data.apply now row).status ≠ .finalizing := by
  cases updates with
  | verified => exact StoredFileStatus.noConfusion
  | confirmed | published =>
    simp only [Data.apply, Option.getD_some, UploadLimits.publishedStatus]
    split <;> exact StoredFileStatus.noConfusion
  | rejected rejects | claimed rejects => simp [Data.apply, rejects]

/-- A row whose object a handler has put in place still has the object while it can be published. -/
private theorem placed_kept (wellFormed : WellFormed deployment.limits store)
    (assertion : handler.Assertion store) (otherAssertion : other.Assertion store)
    (batch : batchOutline.assertion store handler)
    (kept : ∀ file ∈ other.placed, handler.Removes file.location →
      ∀ row ∈ store.rows, row.id = file.id → row.status = .finalizing → row.deletedAt = none →
        ¬handler.MayRemove row)
    (placed : placedOutline.assertion store other)
    (requested : handler.request deployment = some request)
    (performed : perform store request oracle = some (after, response)) :
    ∀ file ∈ other.placed, ∀ row ∈ after.rows, row.id = file.id → row.status = .finalizing →
      row.deletedAt = none → after.objects file.location ≠ none := by
  intro file member row rowMem sameId finalizing live
  have known := otherAssertion.known file (Handler.known_of_placed member)
  cases (effect_of_perform performed).rowOrigin rowMem with
  | old oldMem =>
    have located : row.location = file.location := StoredFile.congr_identity (·.location) (fun _ => rfl)
      (Known.identity wellFormed ⟨row, wellFormed.recorded row oldMem, rfl⟩ known sameId)
    have present := placed file member row oldMem sameId finalizing live
    rw [← located] at present ⊢
    rcases object_kept wellFormed assertion batch requested performed oldMem present with
      still | ⟨removes, mayRemove⟩
    · exact still
    · exact absurd mayRemove
        (kept file member (located ▸ removes) row oldMem sameId finalizing live)
  | @created files created creates createdMem same =>
    subst same creates
    obtain rfl := Handler.unborn_of_request requested
    obtain ⟨version, recorded, same⟩ := known
    exact absurd ((StoredFile.congr_identity (·.id) (fun _ => rfl) same).trans sameId.symm)
      ((assertion.unborn created createdMem).unused version recorded)
  | updated updates beforeMem selected same =>
    subst same
    exact absurd finalizing
      (status_of_updates (Handler.updates_of_request requested updates) _ _)

theorem placedOutline_sound (deployment : Deployment) :
    SharedService.Outline.Sound (uploadService deployment)
      ((uploadOutline deployment).and batchOutline) .none placedOutline where
  initial store initial row member := by simp [initial.1] at member
  symmetric _ _ _ := trivial
  spawned store handler known _ admitted := by
    refine ⟨fun file member => ?_, fun _ _ _ => trivial⟩
    have started := Handler.known_of_placed member
    simp [(Handler.assertion_of_admits known.1 admitted).2.2] at started
  performed store handler request oracle after response known ownKnown _ _ published placed
      requested performed _ := by
    obtain ⟨wellFormed, -⟩ := known
    obtain ⟨assertion, batch⟩ := ownKnown
    refine ⟨fun row rowMem isPublished => ?_, fun file member row rowMem sameId finalizing live => ?_⟩
    · cases (effect_of_perform performed).rowOrigin rowMem with
      | old oldMem =>
        rcases object_kept wellFormed assertion batch requested performed oldMem
          (published row oldMem isPublished) with present | ⟨-, mayRemove⟩
        · exact present
        · exact absurd mayRemove isPublished.not_mayRemove
      | @created files created creates createdMem same =>
        subst same creates
        obtain rfl := Handler.unborn_of_request requested
        have finalizing := (assertion.unborn created createdMem).status
        rcases isPublished.1 with verifying | ready
        · cases finalizing.symm.trans verifying
        · cases finalizing.symm.trans ready
      | @updated condition data before updates beforeMem selected same =>
        subst same
        have present : store.objects before.location ≠ none := by
          rcases published_of_updates (Handler.updates_of_request requested updates) selected
            isPublished with was | ⟨finalizing, live, file, fileMem, sameId⟩
          · exact published before beforeMem was
          · have located : before.location = file.location := StoredFile.congr_identity (·.location) (fun _ => rfl)
              (Known.identity wellFormed ⟨before, wellFormed.recorded before beforeMem, rfl⟩
                (assertion.known file (Handler.known_of_placed fileMem)) sameId)
            exact located ▸ placed file fileMem before beforeMem sameId finalizing live
        change after.objects before.location ≠ none
        rcases (effect_of_perform performed).object before.location with same | ⟨-, still⟩ |
            ⟨rfl, -⟩
        · exact same ▸ present
        · exact still
        · cases updates
    · rcases placed_of_resume requested performed member with old | present
      · refine placed_kept wellFormed assertion assertion batch (fun file member removes => ?_)
          placed requested performed file old row rowMem sameId finalizing live
        exact absurd removes (assertion.keeps_placed wellFormed member)
      · exact present
  undisturbed store handler request oracle after response other known ownKnown otherKnown apart _
      _ _ placed _ requested performed _ _ := by
    obtain ⟨wellFormed, -⟩ := known
    obtain ⟨assertion, batch⟩ := ownKnown
    obtain ⟨otherAssertion, -⟩ := otherKnown
    refine ⟨placed_kept wellFormed assertion otherAssertion batch ?_ placed requested performed,
      trivial⟩
    intro file member removes row rowMem sameId finalizing live mayRemove
    have recorded := wellFormed.recorded row rowMem
    cases mayRemove with
    | rejected rejected => cases finalizing.symm.trans rejected
    | softDeleted deleted => simp [live] at deleted
    | @unpublished options source todo failure cleans same =>
      subst cleans
      have sourceMem :
          source ∈ Handler.batch (.uploadFiles ⟨options, .deletingObject (source :: todo) failure⟩) :=
        List.mem_cons_self
      cases other with
      | confirm confirm =>
        obtain ⟨command, phase⟩ := confirm
        -- the batch has published keys for its sources, the confirm a staged one
        have concerns : phase.record = some file := by
          cases phase <;> simp_all [Handler.placed, ConfirmPhase.placed, ConfirmPhase.record]
        have running : ∀ failure, phase ≠ .threw failure := by
          rintro failure rfl
          cases member
        have staged := (otherAssertion.staged wellFormed running concerns recorded sameId).2
        have key := (assertion.batch wellFormed sourceMem recorded same.symm).2
        exact (not_staged_and_published staged key).elim
      | uploadFiles upload =>
        obtain ⟨options, phase⟩ := upload
        have others : file ∈ Handler.batch (.uploadFiles ⟨options, phase⟩) := by
          have known := Handler.known_of_placed member
          cases phase with
          | answering => cases member
          | _ => exact List.mem_append_right _ known
        refine apart.1 source.id (Handler.owned_of_batch sourceMem) ?_
        rw [same, sameId]
        exact Handler.owned_of_batch others
      | verify | reclaim | purge => cases member
  external store event after known published changed := by
    obtain ⟨wellFormed, -⟩ := known
    refine ⟨fun row rowMem isPublished => ?_, fun handler ownKnown placed file member row rowMem
      sameId finalizing live => ?_⟩
    · obtain ⟨old, oldMem, same, -, undeleted⟩ := external_row changed rowMem
      have located : row.location = old.location := congrArg StoredFile.location same
      have was : old.Published := ⟨congrArg StoredFile.status same ▸ isPublished.1,
        undeleted isPublished.2⟩
      rw [located, external_object changed (wellFormed.published (wellFormed.recorded old oldMem))]
      exact published old oldMem was
    · obtain ⟨old, oldMem, same, -, undeleted⟩ := external_row changed rowMem
      have known := ownKnown.1.known file (Handler.known_of_placed member)
      rw [external_object changed (known.published wellFormed)]
      exact placed file member old oldMem ((congrArg StoredFile.id same).symm.trans sameId)
        ((congrArg StoredFile.status same).symm.trans finalizing) (undeleted live)

/-- A row that is published and not soft-deleted has its object. -/
theorem placedOutline_holds {world : UploadWorld}
    (reachable : (uploadService deployment).system.Reachable world) : placedOutline.Holds world :=
  (placedOutline_sound deployment).reachable
    (fun _ reachable => (uploadOutline_holds reachable).and (batchOutline_holds reachable)) reachable

end

end NestjsFastify.Upload
