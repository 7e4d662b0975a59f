import NestjsFastify.ConfirmUpload
import NestjsFastify.MultipartUpload

/-! # The files that upload handlers work on

Which stored files a phase is about, which rows it is to create and which objects it is to write,
and where these come from when a handler goes on to its next phase.
-/
namespace NestjsFastify.Upload

-- the case analyses that the lemmas below share
alias ConfirmUpload.next_cases := ConfirmUpload.next.fun_cases_unfolding
alias UploadFiles.next_cases := UploadFiles.next.fun_cases_unfolding

/-! ## Confirming -/

def Publication.file : Publication → Option StoredFile
  | dispatching file => some file
  | signing file => some file
  | returned file _ => some file
  | threw _ => none

/-- The stored file that the handler works on once it has a row. -/
def ConfirmPhase.record : ConfirmPhase → Option StoredFile
  | copying file => some file
  | removingSource file => some file
  | compensating file => some file
  | headingFinal record => some record
  | readingHead record => some record
  | rejecting record _ => some record
  | discardingFinal record _ => some record
  | flipping record => some record
  | reloading record => some record
  | publishing publication => publication.file
  | _ => none

namespace ConfirmPhase

/-- The stored file whose row is to be created. -/
def unborn : ConfirmPhase → List StoredFile
  | creating file => [file]
  | _ => []

/-- The stored file whose object is to be written. -/
def pending : ConfirmPhase → List StoredFile
  | copying file => [file]
  | _ => []

/-- The id that the handler has generated, until its row is finalised. -/
def owned : ConfirmPhase → List Uuid
  | creating file => [file.id]
  | copying file => [file.id]
  | compensating file => [file.id]
  | _ => []

/-- The stored file whose object the handler has written or seen, and whose row it may publish. -/
def placed : ConfirmPhase → List StoredFile
  | removingSource file => [file]
  | readingHead record => [record]
  | flipping record => [record]
  | _ => []

/-- The key of the row that the handler has rejected. -/
def condemned : ConfirmPhase → List String
  | discardingFinal record _ => [record.key]
  | _ => []

end ConfirmPhase

@[simp] theorem publicationResult_file (file : StoredFile) :
    (publicationResult file).file = some file := by
  rw [publicationResult]
  cases file.status <;> rfl

theorem Publication.file_resume {publication : Publication} {response : Response}
    {file : StoredFile} (concerns : (publication.resume response).file = some file) :
    publication.file = some file := by
  cases publication with
  | signing other =>
    cases response <;> first
      | exact concerns
      | exact nomatch concerns
  | dispatching | returned | threw => exact concerns

@[simp] theorem completeFinalizing_record (limits : UploadLimits) (record : StoredFile) :
    (completeFinalizing limits record).record = some record := by
  rw [completeFinalizing]
  split <;> rfl

theorem validateStagedObject_record (limits : UploadLimits) (metadata : ObjectMetadata) :
    (validateStagedObject limits metadata).record = none := by
  rw [validateStagedObject]
  split
  · rfl
  · split <;> rfl

theorem recoverExisting_record {existing record : StoredFile}
    (recovered : (recoverExisting existing).record = some record) : record = existing := by
  rw [recoverExisting] at recovered
  cases status : existing.status <;> simp [status, ConfirmPhase.record] at recovered <;>
    exact recovered.symm

/-- Where the record of the next phase comes from. -/
inductive RecordOrigin (command : ConfirmUploadCommand) (phase : ConfirmPhase)
    (response : Response) (record : StoredFile) : Prop
  | kept {old : StoredFile} (before : phase.record = some old)
      (same : record.identity = old.identity)
  | created (before : phase = .creating record) (answer : response = .done)
  | existing (before : phase = .findingExisting) (answer : response = .record (some record))
      (sameOrganization : record.organizationId = command.organizationId)
      (sameUser : record.userId = command.userId)
  | concurrent (before : phase = .findingConcurrent) (answer : response = .record (some record))
  | reloaded {old : StoredFile} (before : phase = .reloading old)
      (answer : response = .record (some record))

theorem recordOrigin_of_next {limits : UploadLimits} {command : ConfirmUploadCommand}
    {phase : ConfirmPhase} {response : Response} {record : StoredFile}
    (concerns : (ConfirmUpload.next limits command phase response).record = some record) :
    RecordOrigin command phase response record := by
  have keep : ∀ {old : StoredFile}, phase.record = some old → some old = some record →
      RecordOrigin command phase response record := fun before same =>
    .kept before (congrArg StoredFile.identity (Option.some.inj same).symm)
  have none_of_threw : ∀ failure, (ConfirmPhase.threw failure).record ≠ some record :=
    fun _ impossible => nomatch impossible
  cases phase with
  | findingExisting =>
    cases response with
    | record found =>
      cases found with
      | none => exact nomatch concerns
      | some existing =>
        simp only [ConfirmUpload.next] at concerns
        split at concerns
        · exact absurd concerns (none_of_threw _)
        · rename_i owned
          simp only [not_or, ne_eq, not_not] at owned
          obtain rfl := recoverExisting_record concerns
          exact .existing rfl rfl owned.1 owned.2
    | _ => exact nomatch concerns
  | headingSource =>
    cases response with
    | metadata found =>
      cases found with
      | none => exact nomatch concerns
      | some metadata => simp [ConfirmUpload.next, validateStagedObject_record] at concerns
    | _ => exact nomatch concerns
  | generatingId metadata =>
    cases response with
    | ids ids =>
      match ids with
      | [] => exact nomatch concerns
      | [fileId] => exact nomatch concerns
      | _ :: _ :: _ => exact nomatch concerns
    | _ => exact nomatch concerns
  | creating file =>
    cases response with
    | done =>
      obtain rfl := Option.some.inj concerns
      exact .created rfl rfl
    | _ => exact nomatch concerns
  | findingConcurrent =>
    cases response with
    | record found =>
      cases found with
      | none => exact nomatch concerns
      | some existing =>
        obtain rfl := recoverExisting_record concerns
        exact .concurrent rfl rfl
    | _ => exact nomatch concerns
  | copying file => cases response <;> exact keep rfl concerns
  | removingSource file =>
    exact keep rfl ((completeFinalizing_record _ file).symm.trans concerns)
  | headingFinal old =>
    cases response with
    | metadata found =>
      cases found with
      | none => exact nomatch concerns
      | some metadata =>
        exact keep rfl ((completeFinalizing_record _ old).symm.trans concerns)
    | failed failure => exact nomatch concerns
    | _ => exact keep rfl concerns
  | readingHead old =>
    cases response with
    | bytes head =>
      simp only [ConfirmUpload.next] at concerns
      split at concerns
      · exact keep rfl concerns
      · split at concerns
        · exact keep rfl concerns
        · exact absurd concerns (none_of_threw _)
    | failed failure =>
      simp only [ConfirmUpload.next] at concerns
      split at concerns
      · exact keep rfl concerns
      · exact absurd concerns (none_of_threw _)
    | _ => exact keep rfl concerns
  | rejecting old failure =>
    cases response with
    | count count =>
      simp only [ConfirmUpload.next] at concerns
      split at concerns
      · exact keep rfl concerns
      · exact absurd concerns (none_of_threw _)
    | failed failure => exact nomatch concerns
    | _ => exact keep rfl concerns
  | discardingFinal old failure =>
    cases response <;> first
      | exact keep rfl concerns
      | exact nomatch concerns
  | flipping old =>
    cases response with
    | count count =>
      simp only [ConfirmUpload.next] at concerns
      split at concerns
      · simp only [ConfirmPhase.record, publicationResult_file] at concerns
        obtain rfl := Option.some.inj concerns
        exact .kept rfl (StoredFile.identity_withStatus _ _)
      · exact keep rfl concerns
    | failed failure => exact nomatch concerns
    | _ => exact keep rfl concerns
  | reloading old =>
    cases response with
    | record found =>
      cases found with
      | none => exact nomatch concerns
      | some current =>
        simp only [ConfirmUpload.next] at concerns
        split at concerns
        · exact absurd concerns (none_of_threw _)
        · simp only [ConfirmPhase.record, publicationResult_file] at concerns
          obtain rfl := Option.some.inj concerns
          exact .reloaded rfl rfl
    | failed failure => exact nomatch concerns
    | _ => exact keep rfl concerns
  | publishing publication =>
    exact .kept (Publication.file_resume concerns) rfl
  | discardingSource | compensating | threw => cases response <;> exact nomatch concerns

/-- A row is prepared from the id that was generated for it. -/
theorem creating_of_next {limits : UploadLimits} {command : ConfirmUploadCommand}
    {phase : ConfirmPhase} {response : Response} {file : StoredFile}
    (creates : ConfirmUpload.next limits command phase response = .creating file) :
    phase = .creating file ∨ ∃ metadata fileId, phase = .generatingId metadata ∧
      response = .ids [fileId] ∧ file = confirmedFile command metadata fileId := by
  revert creates
  fun_cases ConfirmUpload.next limits command phase response <;> intro creates <;>
    grind [recoverExisting, validateStagedObject, completeFinalizing]

/-- The final object is discarded once its row is rejected. -/
theorem discarding_of_next {limits : UploadLimits} {command : ConfirmUploadCommand}
    {phase : ConfirmPhase} {response : Response} {record : StoredFile} {failure : Failure}
    (discards : ConfirmUpload.next limits command phase response =
      .discardingFinal record failure) :
    phase = .discardingFinal record failure ∨
      phase = .rejecting record failure ∧ ∃ count, 0 < count ∧ response = .count count := by
  revert discards
  fun_cases ConfirmUpload.next limits command phase response <;> intro discards <;>
    grind [recoverExisting, validateStagedObject, completeFinalizing]

theorem recoverExisting_owned (existing : StoredFile) : (recoverExisting existing).owned = [] := by
  rw [recoverExisting]
  cases existing.status <;> rfl

theorem completeFinalizing_owned (limits : UploadLimits) (record : StoredFile) :
    (completeFinalizing limits record).owned = [] := by
  rw [completeFinalizing]
  split <;> rfl

theorem validateStagedObject_owned (limits : UploadLimits) (metadata : ObjectMetadata) :
    (validateStagedObject limits metadata).owned = [] := by
  rw [validateStagedObject]
  split
  · rfl
  · split <;> rfl

/-- A confirm only ever owns the id that it generated. -/
theorem owned_of_next {limits : UploadLimits} {command : ConfirmUploadCommand}
    {phase : ConfirmPhase} {response : Response} {id : Uuid}
    (member : id ∈ (ConfirmUpload.next limits command phase response).owned) :
    id ∈ phase.owned ∨ ∃ metadata, phase = .generatingId metadata ∧ response = .ids [id] := by
  revert member
  fun_cases ConfirmUpload.next limits command phase response <;> intro member <;>
    grind [ConfirmPhase.owned, recoverExisting_owned, completeFinalizing_owned,
      validateStagedObject_owned, confirmedFile]

/-- An object is copied once its row is created, and until the copy answers. -/
theorem copying_of_next {limits : UploadLimits} {command : ConfirmUploadCommand}
    {phase : ConfirmPhase} {response : Response} {file : StoredFile}
    (copies : ConfirmUpload.next limits command phase response = .copying file) :
    phase = .creating file ∧ response = .done ∨
      phase = .copying file ∧ response ≠ .done ∧ ∀ failure, response ≠ .failed failure := by
  revert copies
  fun_cases ConfirmUpload.next limits command phase response <;> intro copies <;>
    grind [recoverExisting, validateStagedObject, completeFinalizing]

theorem mem_completeFinalizing_placed {limits : UploadLimits} {record file : StoredFile}
    (member : file ∈ (completeFinalizing limits record).placed) : file = record := by
  rw [completeFinalizing] at member
  split at member <;> exact List.mem_singleton.mp member

theorem recoverExisting_placed (existing : StoredFile) : (recoverExisting existing).placed = [] := by
  rw [recoverExisting]
  cases existing.status <;> rfl

theorem validateStagedObject_placed (limits : UploadLimits) (metadata : ObjectMetadata) :
    (validateStagedObject limits metadata).placed = [] := by
  rw [validateStagedObject]
  split
  · rfl
  · split <;> rfl

/-- An object is in place once the copy or a HEAD says so. -/
theorem placed_of_next {limits : UploadLimits} {command : ConfirmUploadCommand}
    {phase : ConfirmPhase} {response : Response} {file : StoredFile}
    (member : file ∈ (ConfirmUpload.next limits command phase response).placed) :
    file ∈ phase.placed ∨ phase = .copying file ∧ response = .done ∨
      ∃ metadata, phase = .headingFinal file ∧ response = .metadata (some metadata) := by
  revert member
  fun_cases ConfirmUpload.next limits command phase response <;> intro member <;>
    grind [ConfirmPhase.placed, mem_completeFinalizing_placed, recoverExisting_placed,
      validateStagedObject_placed]

/-- Without scanning a confirm publishes a record after a matching head only. -/
theorem flipping_of_next {limits : UploadLimits} {command : ConfirmUploadCommand}
    {phase : ConfirmPhase} {response : Response} {record : StoredFile}
    (flips : ConfirmUpload.next limits command phase response = .flipping record) :
    phase = .flipping record ∨ limits.malwareScanEnabled = true ∨
      phase = .readingHead record ∧ ∃ head, response = .bytes head ∧
        assertMagicBytesMatch head record.contentType record.key = .ok () := by
  revert flips
  fun_cases ConfirmUpload.next limits command phase response <;> intro flips <;>
    grind [recoverExisting, validateStagedObject, completeFinalizing]

/-- The row of a copy that reports an error is deleted. -/
theorem compensating_of_next {limits : UploadLimits} {command : ConfirmUploadCommand}
    {phase : ConfirmPhase} {response : Response} {file : StoredFile}
    (compensates : ConfirmUpload.next limits command phase response = .compensating file) :
    phase = .copying file ∧ ∃ failure, response = .failed failure := by
  revert compensates
  fun_cases ConfirmUpload.next limits command phase response <;> intro compensates <;>
    grind [recoverExisting, validateStagedObject, completeFinalizing]

/-- A publication goes on, or it starts with a record. -/
theorem publishing_of_next {limits : UploadLimits} {command : ConfirmUploadCommand}
    {phase : ConfirmPhase} {response : Response} {publication : Publication}
    (publishes : ConfirmUpload.next limits command phase response = .publishing publication) :
    (∃ earlier, phase = .publishing earlier ∧ publication = earlier.resume response) ∨
      ∃ file, publication = publicationResult file := by
  revert publishes
  fun_cases ConfirmUpload.next limits command phase response <;> intro publishes <;>
    grind [recoverExisting, validateStagedObject, completeFinalizing]

/-! ## Multipart uploads -/

namespace UploadFilesPhase

/-- The stored files whose rows the handler has created. -/
def known : UploadFilesPhase → List StoredFile
  | streaming prepared _ => prepared.map (·.props)
  | checkingSignal prepared => prepared.map (·.props)
  | publishingBatch prepared => prepared.map (·.props)
  | deletingObject todo _ => todo
  | deletingRow file todo _ => file :: todo
  | answering publications _ => publications.filterMap (·.file)
  | _ => []

/-- The stored files whose rows are to be created. -/
def unborn : UploadFilesPhase → List StoredFile
  | creatingBatch prepared => prepared.map (·.props)
  | _ => []

/-- The stored files whose objects are to be written. -/
def pending : UploadFilesPhase → List StoredFile
  | streaming _ todo => todo.map (·.props)
  | _ => []

end UploadFilesPhase

theorem streamNext_known (prepared todo : List PreparedFile) :
    (streamNext prepared todo).known = prepared.map (·.props) := by
  cases todo <;> rfl

theorem streamNext_pending (prepared todo : List PreparedFile) :
    (streamNext prepared todo).pending = todo.map (·.props) := by
  cases todo <;> rfl

theorem cleanupFiles_known (failure : Failure) (todo : List StoredFile) :
    (cleanupFiles failure todo).known = todo := by
  cases todo <;> rfl

theorem cleanupFiles_pending (failure : Failure) (todo : List StoredFile) :
    (cleanupFiles failure todo).pending = [] := by
  cases todo <;> rfl

theorem answerNext_pending (results : List StoredFileResult) (publications : List Publication) :
    (answerNext results publications).pending = [] := by
  induction publications generalizing results with
  | nil => rfl
  | cons publication publications ih =>
    cases publication with
    | returned => exact ih _
    | threw | dispatching | signing => rfl

theorem mem_answerNext_known {results : List StoredFileResult} {publications : List Publication}
    {file : StoredFile} (concerns : file ∈ (answerNext results publications).known) :
    file ∈ publications.filterMap (·.file) := by
  induction publications generalizing results with
  | nil => simp [answerNext, UploadFilesPhase.known] at concerns
  | cons publication publications ih =>
    cases publication with
    | returned other result =>
      exact List.mem_filterMap.mpr <| by
        obtain ⟨publication, member, same⟩ := List.mem_filterMap.mp (ih concerns)
        exact ⟨publication, List.mem_cons_of_mem _ member, same⟩
    | threw failure => simp [answerNext, UploadFilesPhase.known] at concerns
    | dispatching | signing => exact concerns

theorem known_of_next {limits : UploadLimits} {options : UploadFilesOptions}
    {phase : UploadFilesPhase} {response : Response} {file : StoredFile}
    (concerns : file ∈ (UploadFiles.next limits options phase response).known) :
    (∃ old ∈ phase.known, file.identity = old.identity) ∨
      ∃ prepared, phase = .creatingBatch prepared ∧ response = .done ∧
        file ∈ prepared.map (·.props) := by
  have keep : file ∈ phase.known → ∃ old ∈ phase.known, file.identity = old.identity :=
    fun member => ⟨file, member, rfl⟩
  have ended : ∀ failure, file ∉ (UploadFilesPhase.threw failure).known := fun _ member => by
    simp [UploadFilesPhase.known] at member
  revert concerns keep
  fun_cases UploadFiles.next limits options phase response <;> intro concerns keep
  case case12 prepared =>
    have member := mem_answerNext_known concerns
    simp only [List.filterMap_map, Function.comp_def, publicationResult_file,
      List.filterMap_eq_map', List.mem_map] at member
    obtain ⟨source, sourceMem, rfl⟩ := member
    exact .inl ⟨source.props, List.mem_map_of_mem sourceMem, rfl⟩
  case case13 publication publications results =>
    refine .inl (keep ?_)
    obtain ⟨answered, member, same⟩ := List.mem_filterMap.mp (mem_answerNext_known concerns)
    rcases List.mem_cons.mp member with rfl | later
    · exact List.mem_filterMap.mpr ⟨publication, List.mem_cons_self, Publication.file_resume same⟩
    · exact List.mem_filterMap.mpr ⟨answered, List.mem_cons_of_mem _ later, same⟩
  all_goals grind [UploadFilesPhase.known, streamNext_known, cleanupFiles_known]

/-- Only files whose rows have been created are streamed. -/
theorem pending_sublist_of_next {limits : UploadLimits} {options : UploadFilesOptions}
    {phase : UploadFilesPhase} {response : Response}
    (sublist : phase.pending.Sublist phase.known) :
    (UploadFiles.next limits options phase response).pending.Sublist
      (UploadFiles.next limits options phase response).known := by
  have ended : ∀ {phase : UploadFilesPhase}, phase.pending = [] →
      phase.pending.Sublist phase.known := fun none => none ▸ List.nil_sublist _
  revert sublist
  fun_cases UploadFiles.next limits options phase response <;> intro sublist
  case case3 prepared =>
    rw [streamNext_pending, streamNext_known]
  case case5 prepared file todo =>
    rw [streamNext_pending, streamNext_known]
    exact (List.sublist_cons_self _ _).trans sublist
  case case15 => exact sublist
  all_goals first
    | exact ended rfl
    | exact ended (cleanupFiles_pending _ _)
    | exact ended (answerNext_pending _ _)

/-- The stored files whose objects the handler has written, and whose rows it may publish. -/
def UploadFilesPhase.placed : UploadFilesPhase → List StoredFile
  | streaming prepared todo => (prepared.filter (· ∉ todo)).map (·.props)
  | checkingSignal prepared => prepared.map (·.props)
  | publishingBatch prepared => prepared.map (·.props)
  | _ => []

theorem streamNext_placed (prepared todo : List PreparedFile) :
    (streamNext prepared todo).placed = (prepared.filter (· ∉ todo)).map (·.props) := by
  cases todo <;> simp [streamNext, UploadFilesPhase.placed]

theorem cleanupFiles_placed (failure : Failure) (todo : List StoredFile) :
    (cleanupFiles failure todo).placed = [] := by
  cases todo <;> rfl

theorem answerNext_placed (results : List StoredFileResult) (publications : List Publication) :
    (answerNext results publications).placed = [] := by
  induction publications generalizing results with
  | nil => rfl
  | cons publication publications ih =>
    cases publication with
    | returned => exact ih _
    | threw | dispatching | signing => rfl

/-- An object is in place once it has been written. -/
theorem streamed_of_next {limits : UploadLimits} {options : UploadFilesOptions}
    {phase : UploadFilesPhase} {response : Response} {file : StoredFile}
    (member : file ∈ (UploadFiles.next limits options phase response).placed) :
    file ∈ phase.placed ∨ ∃ rest, phase.pending = file :: rest ∧ response = .done := by
  revert member
  fun_cases UploadFiles.next limits options phase response <;> intro member
  case case3 prepared =>
    simp [streamNext_placed] at member
  case case5 prepared written todo =>
    rw [streamNext_placed] at member
    obtain ⟨source, kept, rfl⟩ := List.mem_map.mp member
    obtain ⟨sourceMem, notTodo⟩ := List.mem_filter.mp kept
    by_cases same : source = written
    · subst same
      exact .inr ⟨_, rfl, rfl⟩
    · refine .inl (List.mem_map_of_mem (List.mem_filter.mpr ⟨sourceMem, ?_⟩))
      simpa [same] using notTodo
  all_goals grind [UploadFilesPhase.placed, cleanupFiles_placed, answerNext_placed]

/-- The first object of a batch is written once its rows are created, each other object once the
one before it is written. -/
theorem pending_of_next {limits : UploadLimits} {options : UploadFilesOptions}
    {phase : UploadFilesPhase} {response : Response} {file : StoredFile}
    (member : file ∈ (UploadFiles.next limits options phase response).pending) :
    file ∈ phase.unborn ∧ response = .done ∨
      (∃ written rest, phase.pending = written :: rest ∧ file ∈ rest ∧ response = .done) ∨
        phase.pending ≠ [] ∧ response ≠ .done ∧ ∀ failure, response ≠ .failed failure := by
  revert member
  fun_cases UploadFiles.next limits options phase response <;> intro member
  case case3 prepared =>
    rw [streamNext_pending] at member
    exact .inl ⟨member, rfl⟩
  case case5 prepared written todo =>
    rw [streamNext_pending] at member
    exact .inr (.inl ⟨written.props, todo.map (·.props), rfl, member, rfl⟩)
  case case15 =>
    cases phase with
    | streaming prepared todo =>
      cases todo with
      | nil => exact nomatch member
      | cons written todo => grind [UploadFilesPhase.pending]
    | _ => exact nomatch member
  all_goals grind [UploadFilesPhase.pending, cleanupFiles_pending, answerNext_pending]

/-- What `prepare` gives to every file. -/
structure StoredFile.Prepared (file : StoredFile) : Prop where
  status : file.status = .finalizing
  source : file.sourceKey = file.key
  keyed : ∃ extension, file.key = publishedKey file.userId file.id extension

theorem prepareFiles_ok {limits : UploadLimits} {options : UploadFilesOptions}
    {files : List MultipartUploadFile} {ids : List Uuid} {prepared : List PreparedFile}
    (ok : prepareFiles limits options files ids = .ok prepared) :
    (prepared.map (·.props.id)).Sublist ids ∧ ∀ file ∈ prepared, file.props.Prepared := by
  induction files generalizing ids prepared with
  | nil =>
    obtain rfl : [] = prepared := by simpa [prepareFiles] using ok
    simp
  | cons file files ih =>
    cases ids with
    | nil =>
      obtain rfl : [] = prepared := by simpa [prepareFiles] using ok
      simp
    | cons id ids =>
      cases first : prepareFile limits options file id with
      | error exception => simp [prepareFiles, first, bind, Except.bind] at ok
      | ok head =>
        cases rest : prepareFiles limits options files ids with
        | error exception => simp [prepareFiles, first, rest, bind, Except.bind] at ok
        | ok tail =>
          obtain rfl : head :: tail = prepared := by
            simpa [prepareFiles, first, rest, bind, Except.bind, pure, Except.pure] using ok
          obtain ⟨sublist, preparedTail⟩ := ih rest
          have headProps : head.props.id = id ∧ head.props.Prepared := by
            unfold prepareFile at first
            cases extension : extensionForMimeType file.contentType with
            | error exception => simp [extension, Except.map] at first
            | ok suffix =>
              simp only [extension, Except.map, Except.ok.injEq] at first
              subst first
              exact ⟨rfl, rfl, rfl, _, rfl⟩
          refine ⟨?_, fun other member => ?_⟩
          · rw [List.map_cons, headProps.1]
            exact sublist.cons_cons id
          · rcases List.mem_cons.mp member with rfl | later
            · exact headProps.2
            · exact preparedTail other later

namespace UploadFilesPhase

/-- The stored files of a batch that only this handler may publish. -/
def unpublished : UploadFilesPhase → List StoredFile
  | answering _ _ => []
  | phase => phase.unborn ++ phase.known

end UploadFilesPhase

theorem streamNext_unpublished (prepared todo : List PreparedFile) :
    (streamNext prepared todo).unpublished = prepared.map (·.props) := by
  cases todo <;> rfl

theorem cleanupFiles_unpublished (failure : Failure) (todo : List StoredFile) :
    (cleanupFiles failure todo).unpublished = todo := by
  cases todo <;> rfl

theorem answerNext_unpublished (results : List StoredFileResult)
    (publications : List Publication) :
    (answerNext results publications).unpublished = [] := by
  induction publications generalizing results with
  | nil => rfl
  | cons publication publications ih =>
    cases publication with
    | returned => exact ih _
    | threw | dispatching | signing => rfl

/-- A handler only ever owns the ids that it generated. -/
theorem unpublished_of_next (limits : UploadLimits) (options : UploadFilesOptions)
    (phase : UploadFilesPhase) (response : Response) :
    (UploadFiles.next limits options phase response).unpublished.Sublist phase.unpublished ∨
      ∃ ids, phase = .generatingIds ∧ response = .ids ids ∧
        ((UploadFiles.next limits options phase response).unpublished.map (·.id)).Sublist ids ∧
        ∀ file ∈ (UploadFiles.next limits options phase response).unpublished, file.Prepared := by
  fun_cases UploadFiles.next limits options phase response
  case case1 ids prepared ok =>
    obtain ⟨sublist, each⟩ := prepareFiles_ok ok
    refine .inr ⟨ids, rfl, rfl, ?_, fun file member => ?_⟩
    · simpa [UploadFilesPhase.unpublished, UploadFilesPhase.unborn, UploadFilesPhase.known,
        Function.comp_def] using sublist
    · simp only [UploadFilesPhase.unpublished, UploadFilesPhase.unborn, UploadFilesPhase.known,
        List.append_nil, List.mem_map] at member
      obtain ⟨source, sourceMem, rfl⟩ := member
      exact each source sourceMem
  case case3 prepared =>
    rw [streamNext_unpublished]
    exact .inl (by simp [UploadFilesPhase.unpublished, UploadFilesPhase.unborn,
      UploadFilesPhase.known])
  all_goals refine .inl ?_
  case case15 => exact .refl _
  all_goals first
    | exact List.nil_sublist _
    | exact .refl _
    | exact (answerNext_unpublished _ _).symm ▸ List.nil_sublist _
    | exact (cleanupFiles_unpublished _ _).symm ▸ .refl _
    | exact (cleanupFiles_unpublished _ _).symm ▸ List.sublist_cons_self _ _
    | exact (streamNext_unpublished _ _).symm ▸ .refl _

theorem mem_unpublished_of_unborn {phase : UploadFilesPhase} {file : StoredFile}
    (member : file ∈ phase.unborn) : file ∈ phase.unpublished := by
  cases phase <;> simp_all [UploadFilesPhase.unborn, UploadFilesPhase.unpublished]

theorem streamNext_unborn (prepared todo : List PreparedFile) :
    (streamNext prepared todo).unborn = [] := by
  cases todo <;> rfl

theorem cleanupFiles_unborn (failure : Failure) (todo : List StoredFile) :
    (cleanupFiles failure todo).unborn = [] := by
  cases todo <;> rfl

theorem answerNext_unborn (results : List StoredFileResult) (publications : List Publication) :
    (answerNext results publications).unborn = [] := by
  induction publications generalizing results with
  | nil => rfl
  | cons publication publications ih =>
    cases publication with
    | returned => exact ih _
    | threw | dispatching | signing => rfl

/-- A batch is prepared from generated ids, and is to be created until the creation answers. -/
theorem unborn_of_next {limits : UploadLimits} {options : UploadFilesOptions}
    {phase : UploadFilesPhase} {response : Response} {file : StoredFile}
    (member : file ∈ (UploadFiles.next limits options phase response).unborn) :
    (∃ ids, phase = .generatingIds ∧ response = .ids ids) ∨
      ∃ prepared, phase = .creatingBatch prepared ∧ response ≠ .done ∧ response ≠ .duplicate ∧
        ∀ failure, response ≠ .failed failure := by
  revert member
  fun_cases UploadFiles.next limits options phase response <;> intro member
  case case15 =>
    cases phase with
    | creatingBatch prepared => grind
    | _ => simp [UploadFilesPhase.unborn] at member
  all_goals grind [UploadFilesPhase.unborn, streamNext_unborn, cleanupFiles_unborn,
    answerNext_unborn]

/-- The cleanup of a batch deletes a row once it has removed the object. -/
theorem deletingRow_of_next {limits : UploadLimits} {options : UploadFilesOptions}
    {phase : UploadFilesPhase} {response : Response} {file : StoredFile} {todo : List StoredFile}
    {failure : Failure}
    (deletes : UploadFiles.next limits options phase response = .deletingRow file todo failure) :
    phase = .deletingObject (file :: todo) failure ∧ response = .done := by
  have ended : ∀ publications results,
      answerNext results publications ≠ .deletingRow file todo failure := by
    intro publications
    induction publications with
    | nil => exact fun _ => UploadFilesPhase.noConfusion
    | cons publication publications ih =>
      intro results
      cases publication with
      | returned => exact ih _
      | threw | dispatching | signing => exact UploadFilesPhase.noConfusion
  revert deletes
  fun_cases UploadFiles.next limits options phase response <;> intro deletes <;>
    grind [streamNext, cleanupFiles]

end NestjsFastify.Upload
