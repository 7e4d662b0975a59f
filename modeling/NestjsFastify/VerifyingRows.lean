import NestjsFastify.PublishedRows

/-! # Rows that have been VERIFYING

A verification is enqueued only for a row that has been VERIFYING.  The object of such a row was in
place by then, so no handler is to write it any more.
-/
namespace NestjsFastify.Upload

/-- The row at the location has been VERIFYING. -/
def Entered (store : Store) (location : Location) : Prop :=
  ∃ version ∈ store.versions, version.location = location ∧ version.status = .verifying

theorem Entered.mono {store after : Store} {location : Location} (entered : Entered store location)
    (grows : store.Extends after) : Entered after location := by
  obtain ⟨version, member, located, verifying⟩ := entered
  exact ⟨version, grows.versions version member, located, verifying⟩

section
variable {deployment : Deployment} {store after : Store} {handler : Handler} {request : Request}
  {oracle : Oracle} {response : Response} {location : Location}

/-- The key of an entered location is a published one. -/
theorem Entered.published {limits : UploadLimits} (entered : Entered store location)
    (wellFormed : WellFormed limits store) : isPublishedKey location.key = true := by
  obtain ⟨version, member, rfl, -⟩ := entered
  exact wellFormed.published member

/-- Rows at one location have one id. -/
theorem WellFormed.id_of_location {limits : UploadLimits} (wellFormed : WellFormed limits store)
    {first second : StoredFileRow} (firstMem : first ∈ store.versions)
    (secondMem : second ∈ store.versions) (same : first.location = second.location) :
    first.id = second.id :=
  wellFormed.id_of_key firstMem secondMem (congrArg Location.key same)

/-- A row enters VERIFYING from FINALIZING, and only while it is live. -/
theorem entered_of_perform (wellFormed : WellFormed deployment.limits store)
    (assertion : handler.Assertion store)
    (requested : handler.request deployment = some request)
    (performed : perform store request oracle = some (after, response))
    (entered : Entered after location) :
    Entered store location ∨ ∃ row ∈ after.rows, row.location = location ∧
      row.status = .verifying ∧ row.deletedAt = none := by
  obtain ⟨version, recorded, rfl, verifying⟩ := entered
  have effect := effect_of_perform performed
  rcases effect.version recorded with old | member
  · exact .inl ⟨version, old, rfl, verifying⟩
  cases effect.rowOrigin member with
  | old oldMem => exact .inl ⟨version, wellFormed.recorded version oldMem, rfl, verifying⟩
  | @created files file creates fileMem new =>
    subst new creates
    obtain rfl := Handler.unborn_of_request requested
    exact nomatch verifying.symm.trans (assertion.unborn file fileMem).status
  | updated updates oldMem selected new =>
    subst new
    cases Handler.updates_of_request requested updates with
    | verified => exact nomatch verifying
    | confirmed | published =>
      have live := Where.live_of_selects selected rfl
      exact .inr ⟨_, member, rfl, verifying, live⟩
    | rejected rejects | claimed rejects => simp [Data.apply, rejects] at verifying

theorem entered_of_external {limits : UploadLimits} {event : UploadEvent}
    (wellFormed : WellFormed limits store) (changed : external store event = some after)
    (entered : Entered after location) : Entered store location := by
  obtain ⟨version, recorded, rfl, verifying⟩ := entered
  obtain ⟨old, oldMem, same⟩ := external_version wellFormed changed recorded
  exact ⟨old, oldMem, (congrArg StoredFile.location same).symm,
    (congrArg StoredFile.status same).symm.trans verifying⟩

/-! ## Settled locations -/

/-- No handler is to write the object of a row that has been VERIFYING. -/
theorem settled_of_entered {world : UploadWorld}
    (reachable : (uploadService deployment).system.Reachable world)
    (entered : Entered world.shared location) : Settled location world := by
  obtain ⟨history, run⟩ := reachable
  induction run with
  | start initial =>
    obtain ⟨version, recorded, -⟩ := entered
    simp [initial.1.2.1] at recorded
  | @step history before final event run taken ih =>
    have holds := uploadOutline_holds ⟨history, run⟩
    have entering : Entered before.shared location ∨ ∃ row ∈ final.shared.rows,
        row.location = location ∧ row.status = .verifying ∧ row.deletedAt = none := by
      cases SharedService.step_cases taken with
      | spawn | crash => exact .inl entered
      | external changed => exact .inl (entered_of_external holds.invariant changed entered)
      | advance running requested performed =>
        exact entered_of_perform holds.invariant (holds.assertion _ _ running) requested performed
          entered
    rcases entering with was | ⟨row, member, rfl, verifying, live⟩
    · exact (ih was).step ⟨history, run⟩ taken
    · have reached : (uploadService deployment).system.Reachable final := ⟨_, run.step taken⟩
      have wellFormed := (uploadOutline_holds reached).invariant
      exact settled_of_present reached (entered.published wellFormed)
        ((placedOutline_holds reached).invariant row member ⟨.inl verifying, live⟩)

/-- The handlers write no object of a row that has been VERIFYING. -/
def settledOutline : SharedService.Outline Store Handler where
  invariant _ := True
  assertion store handler := ∀ file ∈ handler.pending, ¬Entered store file.location
  apart _ _ := True

theorem settledOutline_holds {world : UploadWorld}
    (reachable : (uploadService deployment).system.Reachable world) :
    settledOutline.Holds world where
  invariant := trivial
  assertion process handler running file member entered :=
    (settled_of_entered reachable entered).written process handler running file member rfl
  apart _ _ _ _ _ _ _ := trivial

/-- Once a row has been VERIFYING, an object that is removed does not come back. -/
theorem absent_of_perform (settled : settledOutline.assertion store handler)
    (entered : Entered store location) (absent : store.objects location = none)
    (requested : handler.request deployment = some request)
    (performed : perform store request oracle = some (after, response)) :
    after.objects location = none := by
  rcases (effect_of_perform performed).object location with same | ⟨targets, -⟩ | ⟨-, gone⟩
  · rw [same, absent]
  · obtain ⟨file, rest, pending, rfl⟩ := Handler.pending_of_request requested targets
    exact absurd entered (settled file (pending ▸ List.mem_cons_self))
  · exact gone

/-- Nor is a row created again at its location. -/
theorem revised_of_perform (wellFormed : WellFormed deployment.limits store)
    (assertion : handler.Assertion store) (entered : Entered store location)
    (requested : handler.request deployment = some request)
    (performed : perform store request oracle = some (after, response)) {row : StoredFileRow}
    (member : row ∈ after.rows) (located : row.location = location) :
    row ∈ store.rows ∨ ∃ old condition data, old ∈ store.rows ∧ old.location = location ∧
      handler.Updates deployment.limits condition data ∧ condition.selects old = true ∧
      row = data.apply store.now old := by
  cases (effect_of_perform performed).rowOrigin member with
  | old oldMem => exact .inl oldMem
  | @created files file creates fileMem new =>
    subst new creates
    obtain rfl := Handler.unborn_of_request requested
    have new := assertion.unborn file fileMem
    obtain ⟨version, recorded, same, -⟩ := entered
    obtain ⟨extension, key⟩ := new.keyed
    obtain ⟨extension', key'⟩ := wellFormed.keyed version recorded
    have keys : version.key = file.key := congrArg Location.key (same.trans located.symm)
    exact absurd (publishedKey_fileId (key'.symm.trans (keys.trans key))) (new.unused version recorded)
  | @updated condition data old updates oldMem selected new =>
    exact .inr ⟨old, condition, data, oldMem, by rw [← located, new]; rfl,
      Handler.updates_of_request requested updates, selected, new⟩

end

/-! ## Enqueued verifications -/

/-- The file whose verification is to be enqueued. -/
def Publication.dispatched : Publication → Option StoredFile
  | dispatching file => some file
  | _ => none

def ConfirmPhase.dispatching : ConfirmPhase → List StoredFile
  | publishing publication => publication.dispatched.toList
  | _ => []

def UploadFilesPhase.dispatching : UploadFilesPhase → List StoredFile
  | answering publications _ => publications.filterMap (·.dispatched)
  | _ => []

/-- The files whose verifications the handler is to enqueue. -/
def Handler.dispatching : Handler → List StoredFile
  | .confirm handler => handler.phase.dispatching
  | .uploadFiles handler => handler.phase.dispatching
  | _ => []

theorem publicationResult_dispatched {file dispatched : StoredFile}
    (dispatches : (publicationResult file).dispatched = some dispatched) :
    dispatched = file ∧ file.status = .verifying := by
  unfold publicationResult at dispatches
  split at dispatches <;> simp_all [Publication.dispatched]

/-- Each verification is enqueued once. -/
theorem Publication.dispatched_resume (publication : Publication) (response : Response) :
    (publication.resume response).dispatched = none := by
  fun_cases Publication.resume publication response <;> simp_all [Publication.dispatched]

private theorem completeFinalizing_dispatching (limits : UploadLimits) (record : StoredFile) :
    (completeFinalizing limits record).dispatching = [] := by
  unfold completeFinalizing
  split <;> rfl

private theorem validateStagedObject_dispatching (limits : UploadLimits)
    (metadata : ObjectMetadata) : (validateStagedObject limits metadata).dispatching = [] := by
  simp only [validateStagedObject]
  split
  · rfl
  · split <;> rfl

private theorem recoverExisting_dispatching {existing file : StoredFile}
    (member : file ∈ (recoverExisting existing).dispatching) :
    file = existing ∧ existing.status = .verifying := by
  unfold recoverExisting at member
  split at member
  · exact nomatch member
  · exact nomatch member
  · exact publicationResult_dispatched (Option.mem_toList.mp member)

/-- A confirm enqueues the verification of a row that it has published, or that it has found to be
VERIFYING. -/
theorem ConfirmUpload.dispatching_of_next {limits : UploadLimits} {command : ConfirmUploadCommand}
    {phase : ConfirmPhase} {response : Response} {file : StoredFile}
    (member : file ∈ (ConfirmUpload.next limits command phase response).dispatching) :
    (∃ record count, phase = .flipping record ∧ response = .count count ∧ 0 < count ∧
        file = record.withStatus limits.publishedStatus ∧ limits.publishedStatus = .verifying) ∨
      (phase = .findingExisting ∨ phase = .findingConcurrent ∨
          ∃ record, phase = .reloading record) ∧
        response = .record (some file) ∧ file.status = .verifying := by
  revert member
  fun_cases ConfirmUpload.next limits command phase response <;> intro member
  case case3 existing _ =>
    obtain ⟨rfl, verifying⟩ := recoverExisting_dispatching member
    exact .inr ⟨.inl rfl, rfl, verifying⟩
  case case10 concurrent =>
    obtain ⟨rfl, verifying⟩ := recoverExisting_dispatching member
    exact .inr ⟨.inr (.inl rfl), rfl, verifying⟩
  case case26 record count positive =>
    obtain ⟨rfl, verifying⟩ := publicationResult_dispatched (Option.mem_toList.mp member)
    exact .inl ⟨record, count, rfl, rfl, positive, rfl, verifying⟩
  case case29 record current _ =>
    obtain ⟨rfl, verifying⟩ := publicationResult_dispatched (Option.mem_toList.mp member)
    exact .inr ⟨.inr (.inr ⟨record, rfl⟩), rfl, verifying⟩
  case case31 publication =>
    exact nomatch (publication.dispatched_resume response).symm.trans (Option.mem_toList.mp member)
  case case33 => cases phase <;> simp_all [ConfirmPhase.dispatching]
  case case5 => simp [validateStagedObject_dispatching] at member
  case case14 | case17 => simp [completeFinalizing_dispatching] at member
  all_goals exact absurd member List.not_mem_nil

private theorem streamNext_dispatching (prepared todo : List PreparedFile) :
    (streamNext prepared todo).dispatching = [] := by
  cases todo <;> rfl

private theorem cleanupFiles_dispatching (failure : Failure) (todo : List StoredFile) :
    (cleanupFiles failure todo).dispatching = [] := by
  cases todo <;> rfl

private theorem mem_answerNext_dispatching {results : List StoredFileResult}
    {publications : List Publication} {file : StoredFile}
    (member : file ∈ (answerNext results publications).dispatching) :
    file ∈ publications.filterMap (·.dispatched) := by
  induction publications generalizing results with
  | nil => exact nomatch member
  | cons publication publications ih =>
    cases publication with
    | returned => exact ih member
    | threw => exact nomatch member
    | dispatching | signing => exact member

/-- A batch upload enqueues the verifications of the rows that it has published. -/
theorem UploadFiles.dispatching_of_next {limits : UploadLimits} {options : UploadFilesOptions}
    {phase : UploadFilesPhase} {response : Response} {file : StoredFile}
    (member : file ∈ (UploadFiles.next limits options phase response).dispatching) :
    file ∈ phase.dispatching ∨ ∃ prepared source, phase = .publishingBatch prepared ∧
      response = .done ∧ source ∈ prepared ∧
      file = source.props.withStatus limits.publishedStatus ∧
      limits.publishedStatus = .verifying := by
  revert member
  fun_cases UploadFiles.next limits options phase response <;> intro member
  case case12 prepared =>
    obtain ⟨publication, publicationMem, dispatches⟩ :=
      List.mem_filterMap.mp (mem_answerNext_dispatching member)
    obtain ⟨source, sourceMem, rfl⟩ := List.mem_map.mp publicationMem
    obtain ⟨rfl, verifying⟩ := publicationResult_dispatched dispatches
    exact .inr ⟨prepared, source, rfl, rfl, sourceMem, rfl, verifying⟩
  case case13 publication publications results =>
    obtain ⟨answered, answeredMem, dispatches⟩ :=
      List.mem_filterMap.mp (mem_answerNext_dispatching member)
    rcases List.mem_cons.mp answeredMem with rfl | later
    · exact nomatch (publication.dispatched_resume response).symm.trans dispatches
    · exact .inl (List.mem_filterMap.mpr ⟨answered, List.mem_cons_of_mem _ later, dispatches⟩)
  case case15 => exact .inl member
  all_goals first
    | exact absurd member List.not_mem_nil
    | simp [streamNext_dispatching, cleanupFiles_dispatching] at member

section
variable {deployment : Deployment} {store after : Store} {handler : Handler} {request : Request}
  {oracle : Oracle} {response : Response}

/-- A handler enqueues the verifications that it is to enqueue. -/
theorem Handler.dispatching_of_request {job : UploadVerificationRequest}
    (requested : handler.request deployment = some (.dispatch job)) :
    ∃ file ∈ handler.dispatching, file.verification = job := by
  have dispatched : ∀ publication : Publication, publication.request = some (.dispatch job) →
      ∃ file, publication.dispatched = some file ∧ file.verification = job := by
    intro publication asked
    cases publication with
    | dispatching file => exact ⟨file, rfl, Request.dispatch.inj (Option.some.inj asked)⟩
    | signing => exact nomatch asked
    | returned | threw => exact nomatch asked
  cases handler with
  | confirm handler =>
    obtain ⟨command, phase⟩ := handler
    cases phase with
    | publishing publication =>
      obtain ⟨file, dispatches, same⟩ := dispatched publication requested
      exact ⟨file, Option.mem_toList.mpr dispatches, same⟩
    | _ => exact nomatch requested
  | uploadFiles handler =>
    obtain ⟨options, phase⟩ := handler
    cases phase with
    | answering publications results =>
      cases publications with
      | nil => exact nomatch requested
      | cons publication publications =>
        obtain ⟨file, dispatches, same⟩ := dispatched publication requested
        exact ⟨file, List.mem_filterMap.mpr ⟨publication, List.mem_cons_self, dispatches⟩, same⟩
    | streaming prepared todo => cases todo <;> exact nomatch requested
    | deletingObject todo failure => cases todo <;> exact nomatch requested
    | _ => exact nomatch requested
  | verify handler =>
    obtain ⟨command, phase⟩ := handler
    cases phase <;> exact nomatch requested
  | reclaim handler =>
    obtain ⟨candidate, phase⟩ := handler
    cases phase <;> exact nomatch requested
  | purge handler =>
    obtain ⟨candidate, phase⟩ := handler
    cases phase <;> exact nomatch requested

/-- A batch that is published as a whole has every one of its rows updated. -/
theorem batch_of_perform {ids : List Uuid} {status : StoredFileStatus}
    (unique : RecordTable.Unique conflicts store.rows)
    (performed : perform store (.publishBatch ids status) oracle = some (after, .done)) {id : Uuid}
    (member : id ∈ ids) :
    ∃ row ∈ store.rows, row.id = id ∧
      ({ status := some status } : Data).apply store.now row ∈ after.versions := by
  have published : store.rows.Pairwise fun first second => first.id ≠ second.id :=
    unique.imp fun free same => by simp [conflicts, same] at free
  cases oracle with
  | ok =>
    simp only [perform, respond] at performed
    split at performed
    · simp at performed
    split at performed
    · rename_i counted
      obtain ⟨rfl, -⟩ := Prod.mk.inj (Option.some.inj performed)
      obtain ⟨row, rowMem, selected, same⟩ := RecordTable.selected_of_updatedCount (·.id) published
        (fun _ selected => Where.ids_of_selects selected rfl) counted.ge member
      refine ⟨row, rowMem, same, List.mem_append_left _ ?_⟩
      exact RecordTable.mem_updateMany.mpr ⟨row, rowMem, if_pos selected⟩
    · simp at performed
  | withoutTransaction =>
    simp only [perform] at performed
    split at performed <;> simp at performed
  | _ => simp [perform] at performed

/-! ## The outline -/

theorem jobs_of_perform (performed : perform store request oracle = some (after, response))
    {job : UploadVerificationRequest} (member : job ∈ after.jobs) :
    job ∈ store.jobs ∨ request = .dispatch job := by
  cases effect_of_perform performed with
  | dispatch dispatches =>
    rcases List.mem_cons.mp member with rfl | old
    · exact .inr dispatches
    · exact .inl old
  | none | insert | update | delete | put | remove | generate => exact .inl member

/-- What a handler is to enqueue after a response has been VERIFYING, or was to be enqueued
before. -/
private theorem entered_of_resume (wellFormed : WellFormed deployment.limits store)
    (assertion : handler.Assertion store)
    (requested : handler.request deployment = some request)
    (performed : perform store request oracle = some (after, response)) {file : StoredFile}
    (member : file ∈ (handler.resume deployment response).dispatching) :
    file ∈ handler.dispatching ∨ Entered after file.location := by
  -- the update that published the row recorded it as VERIFYING
  have updated : ∀ {row : StoredFileRow} {props : StoredFile}, row ∈ store.rows →
      row.id = props.id → Known store props →
      deployment.limits.publishedStatus = .verifying →
      ({ status := some deployment.limits.publishedStatus } : Data).apply store.now row ∈
        after.versions → Entered after props.location := by
    intro row props rowMem sameId known verifying recorded
    have same := Known.identity wellFormed ⟨row, wellFormed.recorded row rowMem, rfl⟩ known sameId
    exact ⟨_, recorded, StoredFile.congr_identity (·.location) (fun _ => rfl) same, verifying⟩
  cases handler with
  | confirm handler =>
    obtain ⟨command, phase⟩ := handler
    rcases ConfirmUpload.dispatching_of_next member with
      ⟨record, count, rfl, rfl, positive, rfl, verifying⟩ | ⟨finds, rfl, verifying⟩
    · obtain rfl := Option.some.inj requested
      obtain ⟨row, rowMem, selected, recorded⟩ := updated_of_perform performed positive
      exact .inr (updated rowMem (Where.id_of_selects selected rfl)
        (assertion.known record List.mem_cons_self) verifying recorded)
    · obtain ⟨condition, rfl⟩ : ∃ condition, request = .findFirst condition := by
        rcases finds with rfl | rfl | ⟨record, rfl⟩ <;>
          exact ⟨_, (Option.some.inj requested).symm⟩
      obtain ⟨version, recorded, rfl, -⟩ := found_of_perform performed wellFormed.recorded
      exact .inr ⟨version, (effect_of_perform performed).extends.versions version recorded, rfl,
        verifying⟩
  | uploadFiles handler =>
    obtain ⟨options, phase⟩ := handler
    rcases UploadFiles.dispatching_of_next member with old |
      ⟨prepared, source, rfl, rfl, sourceMem, rfl, verifying⟩
    · exact .inl old
    · obtain rfl := Option.some.inj requested
      obtain ⟨row, rowMem, sameId, recorded⟩ := batch_of_perform wellFormed.unique performed
        (List.mem_map_of_mem sourceMem)
      exact .inr (updated rowMem sameId (assertion.known source.props (List.mem_map_of_mem sourceMem))
        verifying recorded)
  | verify | reclaim | purge => exact nomatch member

/-- Verifications are enqueued for rows that have been VERIFYING. -/
def dispatchedOutline : SharedService.Outline Store Handler where
  invariant store := ∀ job ∈ store.jobs, Entered store job.location
  assertion store handler := (∀ command ∈ handler.verifies, Entered store command.location) ∧
    ∀ file ∈ handler.dispatching, Entered store file.location
  apart _ _ := True

theorem dispatchedOutline_sound (deployment : Deployment) :
    SharedService.Outline.Sound (uploadService deployment) (uploadOutline deployment) .none
      dispatchedOutline where
  initial store initial job member := by simp [initial.2.2.1] at member
  symmetric _ _ _ := trivial
  spawned store handler _ enqueued admitted := by
    refine ⟨⟨fun command member => ?_, fun file member => ?_⟩, fun _ _ _ => trivial⟩
    · cases handler with
      | verify handler =>
        obtain rfl := List.mem_singleton.mp member
        simp only [uploadService, admits, Bool.and_eq_true, List.contains_iff_mem] at admitted
        exact enqueued _ admitted.2
      | _ => cases member
    · cases handler with
      | confirm handler =>
        rw [of_decide_eq_true admitted] at member
        unfold ConfirmUpload.start at member
        split at member <;> cases member
      | uploadFiles handler =>
        rw [of_decide_eq_true admitted] at member
        cases member
      | _ => cases member
  performed store handler request oracle after response wellFormed assertion _ _ enqueued dispatched
      requested performed _ := by
    have grows := (effect_of_perform performed).extends
    refine ⟨fun job member => ?_, fun command member => ?_, fun file member => ?_⟩
    · rcases jobs_of_perform performed member with old | rfl
      · exact (enqueued job old).mono grows
      · obtain ⟨file, fileMem, rfl⟩ := Handler.dispatching_of_request requested
        exact (dispatched.2 file fileMem).mono grows
    · refine (dispatched.1 command ?_).mono grows
      cases handler <;> exact member
    · rcases entered_of_resume wellFormed assertion requested performed member with old | entered
      · exact (dispatched.2 file old).mono grows
      · exact entered
  undisturbed store handler request oracle after response other _ _ _ _ _ _ _ dispatched _ _
      performed _ _ := by
    have grows := (effect_of_perform performed).extends
    exact ⟨⟨fun command member => (dispatched.1 command member).mono grows,
      fun file member => (dispatched.2 file member).mono grows⟩, trivial⟩
  external store event after wellFormed enqueued changed := by
    have grows := (wellFormed.external changed).2
    change external store event = some after at changed
    refine ⟨fun job member => ?_, fun handler _ dispatched =>
      ⟨fun command member => (dispatched.1 command member).mono grows,
        fun file member => (dispatched.2 file member).mono grows⟩⟩
    cases event with
    | recoverVerification id =>
      obtain ⟨row, found, rfl⟩ := Option.map_eq_some_iff.mp changed
      rcases List.mem_cons.mp member with rfl | old
      · exact ⟨row, wellFormed.recorded row (List.mem_of_find?_eq_some found), rfl,
          Where.status_of_selects (List.find?_some found) rfl⟩
      · exact enqueued job old
    | softDelete id =>
      obtain rfl := Option.some.inj changed
      exact (enqueued job member).mono grows
    | elapse milliseconds =>
      obtain rfl := Option.some.inj changed
      exact (enqueued job member).mono grows
    | clientUpload location object | stagingExpiry location =>
      simp only [external] at changed
      split at changed
      · obtain rfl := Option.some.inj changed
        exact (enqueued job member).mono grows
      · simp at changed

theorem dispatchedOutline_holds {world : UploadWorld}
    (reachable : (uploadService deployment).system.Reachable world) :
    dispatchedOutline.Holds world :=
  (dispatchedOutline_sound deployment).reachable (fun _ => uploadOutline_holds) reachable

end

end NestjsFastify.Upload
