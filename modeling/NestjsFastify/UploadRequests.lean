import NestjsFastify.StoredFileChanges
import NestjsFastify.UploadHandlerFiles
import NestjsFastify.UploadSystem

/-! # What handlers ask of the store

The statements and the storage calls of all handlers: which rows a handler may update or delete in
which phase, and which objects it may write or remove.
-/
namespace NestjsFastify.Upload

namespace Handler

/-- The files whose rows have been created. -/
def known : Handler → List StoredFile
  | confirm handler => handler.phase.record.toList
  | uploadFiles handler => handler.phase.known
  | _ => []

/-- The files whose rows the handler is to create. -/
def unborn : Handler → List StoredFile
  | confirm handler => handler.phase.unborn
  | uploadFiles handler => handler.phase.unborn
  | _ => []

/-- The files whose objects the handler is to write. -/
def pending : Handler → List StoredFile
  | confirm handler => handler.phase.pending
  | uploadFiles handler => handler.phase.pending
  | _ => []

end Handler

/-- The updates of a handler.  A row is published by its own upload or by the verification, it is
rejected before it is published, and lifecycle cleanup claims it in any status. -/
inductive Handler.Updates (limits : UploadLimits) : Handler → Where → Data → Prop
  | verified {command : UploadVerificationRequest} {verdict : MalwareScanner.MalwareScanResult} :
      Updates limits (.verify ⟨command, .flipping verdict⟩)
        { key := some command.key, status := some .verifying, live := true }
        { status := some .ready
          verifiedAt := true
          failureReason := some none
          scanOutcome := some (scanOutcomeOf verdict) }
  | confirmed {command : ConfirmUploadCommand} {record : StoredFile} :
      Updates limits (.confirm ⟨command, .flipping record⟩)
        { id := some record.id, status := some .finalizing, live := true }
        { status := some limits.publishedStatus }
  | published {options : UploadFilesOptions} {prepared : List PreparedFile} :
      Updates limits (.uploadFiles ⟨options, .publishingBatch prepared⟩)
        { ids := some (prepared.map (·.props.id)), status := some .finalizing, live := true }
        { status := some limits.publishedStatus }
  | rejected {handler : Handler} {condition : Where} {data : Data} {source : StoredFileStatus}
      (rejects : data.status = some .rejected) (required : condition.status = some source)
      (unpublished : source ≠ .ready) : Updates limits handler condition data
  | claimed {candidate : CleanupCandidate} {condition : Where} {data : Data}
      (rejects : data.status = some .rejected) (sameId : condition.id = some candidate.id) :
      Updates limits (.reclaim ⟨candidate, .claiming⟩) condition data

/-- The deletions of a handler. -/
inductive Handler.Deletes : Handler → Where → Prop
  | compensated {command : ConfirmUploadCommand} {file : StoredFile} :
      Deletes (.confirm ⟨command, .compensating file⟩)
        { id := some file.id, status := some .finalizing }
  | cleaned {options : UploadFilesOptions} {file : StoredFile} {todo : List StoredFile}
      {failure : Failure} :
      Deletes (.uploadFiles ⟨options, .deletingRow file todo failure⟩)
        { id := some file.id, status := some .finalizing }
  | reclaimed {candidate : CleanupCandidate} :
      Deletes (.reclaim ⟨candidate, .deletingRow⟩) { id := some candidate.id }
  | purged {candidate : RetentionCandidate} :
      Deletes (.purge ⟨candidate, .deletingRow⟩) { id := some candidate.id }

/-- The objects that a handler removes: the staged object of its command, or a published object. -/
inductive Handler.Removes : Handler → Location → Prop
  | staged {command : ConfirmUploadCommand} {phase : ConfirmPhase} {bucket : String}
      (running : ∀ failure, phase ≠ .threw failure) :
      Removes (.confirm ⟨command, phase⟩) ⟨bucket, command.sourceKey⟩
  | discarded {command : ConfirmUploadCommand} {record : StoredFile} {failure : Failure} :
      Removes (.confirm ⟨command, .discardingFinal record failure⟩) record.location
  | cleaned {options : UploadFilesOptions} {file : StoredFile} {todo : List StoredFile}
      {failure : Failure} :
      Removes (.uploadFiles ⟨options, .deletingObject (file :: todo) failure⟩) file.location
  | rejected {command : UploadVerificationRequest} :
      Removes (.verify ⟨command, .deleting⟩) command.location
  | reclaimed {candidate : CleanupCandidate} :
      Removes (.reclaim ⟨candidate, .deletingObject⟩) candidate.location
  | purged {candidate : RetentionCandidate} :
      Removes (.purge ⟨candidate, .deletingObject⟩) candidate.location

/-- All requests of a handler.  The others change neither rows nor objects. -/
inductive Handler.Asks (limits : UploadLimits) (handler : Handler) : Request → Prop
  | createMany : Asks limits handler (.createMany handler.unborn)
  | updateMany {condition : Where} {data : Data} (updates : handler.Updates limits condition data) :
      Asks limits handler (.updateMany condition data)
  | publishBatch {ids : List Uuid} (updates : handler.Updates limits
      { ids := some ids, status := some .finalizing, live := true }
      { status := some limits.publishedStatus }) :
      Asks limits handler (.publishBatch ids limits.publishedStatus)
  | deleteMany {condition : Where} (deletes : handler.Deletes condition) :
      Asks limits handler (.deleteMany condition)
  | delete {id : Uuid} (deletes : handler.Deletes { id := some id }) :
      Asks limits handler (.delete id)
  | deleteObject {location : Location} (removes : handler.Removes location) :
      Asks limits handler (.deleteObject location)
  | uploadStream {file : StoredFile} {rest : List StoredFile} {object : StoredObject}
      (pending : handler.pending = file :: rest) :
      Asks limits handler (.uploadStream file.location object)
  | copyObject {file : StoredFile} {source : Location} {expectedEtag : String}
      (pending : handler.pending = [file]) :
      Asks limits handler (.copyObject source file.location expectedEtag)
  | dispatch {file : StoredFile} (member : file ∈ handler.known) :
      Asks limits handler (.dispatch file.verification)
  | read {request : Request} (silent : request.changes = false) : Asks limits handler request

section
variable {deployment : Deployment} {handler : Handler} {request : Request}

private theorem publication_asks {publication : Publication}
    (requested : publication.request = some request)
    (known : ∀ file ∈ publication.file, file ∈ handler.known) :
    handler.Asks deployment.limits request := by
  cases publication with
  | dispatching file =>
    obtain rfl := Option.some.inj requested
    exact .dispatch (known file rfl)
  | signing file =>
    obtain rfl := Option.some.inj requested
    exact .read rfl
  | returned | threw => exact nomatch requested

theorem Handler.asks_of_request (requested : handler.request deployment = some request) :
    handler.Asks deployment.limits request := by
  cases handler with
  | confirm handler =>
    obtain ⟨command, phase⟩ := handler
    cases phase with
    | creating file =>
      obtain rfl := Option.some.inj requested
      exact .createMany
    | copying file =>
      obtain rfl := Option.some.inj requested
      exact .copyObject rfl
    | flipping record =>
      obtain rfl := Option.some.inj requested
      exact .updateMany .confirmed
    | rejecting record failure =>
      obtain rfl := Option.some.inj requested
      exact .updateMany (.rejected rfl rfl StoredFileStatus.noConfusion)
    | compensating file =>
      obtain rfl := Option.some.inj requested
      exact .deleteMany .compensated
    | discardingSource failure =>
      obtain rfl := Option.some.inj requested
      exact .deleteObject (.staged fun _ => ConfirmPhase.noConfusion)
    | removingSource file =>
      obtain rfl := Option.some.inj requested
      exact .deleteObject (.staged fun _ => ConfirmPhase.noConfusion)
    | discardingFinal record failure =>
      obtain rfl := Option.some.inj requested
      exact .deleteObject .discarded
    | publishing publication =>
      exact publication_asks requested fun file same => Option.mem_toList.mpr same
    | threw => exact nomatch requested
    | _ =>
      obtain rfl := Option.some.inj requested
      exact .read rfl
  | uploadFiles handler =>
    obtain ⟨options, phase⟩ := handler
    cases phase with
    | creatingBatch prepared =>
      obtain rfl := Option.some.inj requested
      exact .createMany
    | streaming prepared todo =>
      cases todo with
      | nil => exact nomatch requested
      | cons file todo =>
        obtain rfl := Option.some.inj requested
        exact .uploadStream rfl
    | publishingBatch prepared =>
      obtain rfl := Option.some.inj requested
      exact .publishBatch .published
    | deletingObject todo failure =>
      cases todo with
      | nil => exact nomatch requested
      | cons file todo =>
        obtain rfl := Option.some.inj requested
        exact .deleteObject .cleaned
    | deletingRow file todo failure =>
      obtain rfl := Option.some.inj requested
      exact .deleteMany .cleaned
    | answering publications results =>
      cases publications with
      | nil => exact nomatch requested
      | cons publication publications =>
        exact publication_asks requested fun file same =>
          List.mem_filterMap.mpr ⟨publication, List.mem_cons_self, same⟩
    | generatingIds | checkingSignal =>
      obtain rfl := Option.some.inj requested
      exact .read rfl
    | returned | threw => exact nomatch requested
  | verify handler =>
    obtain ⟨command, phase⟩ := handler
    cases phase with
    | flipping verdict =>
      obtain rfl := Option.some.inj requested
      exact .updateMany .verified
    | rejecting failureReason =>
      obtain rfl := Option.some.inj requested
      exact .updateMany (.rejected rfl rfl StoredFileStatus.noConfusion)
    | deleting =>
      obtain rfl := Option.some.inj requested
      exact .deleteObject .rejected
    | returned | threw => exact nomatch requested
    | _ =>
      obtain rfl := Option.some.inj requested
      exact .read rfl
  | reclaim handler =>
    obtain ⟨candidate, phase⟩ := handler
    cases phase with
    | headingObject =>
      obtain rfl := Option.some.inj requested
      exact .read rfl
    | claiming =>
      obtain rfl := Option.some.inj requested
      exact .updateMany (.claimed rfl rfl)
    | deletingObject =>
      obtain rfl := Option.some.inj requested
      exact .deleteObject .reclaimed
    | deletingRow =>
      obtain rfl := Option.some.inj requested
      exact .delete .reclaimed
    | returned | threw => exact nomatch requested
  | purge handler =>
    obtain ⟨candidate, phase⟩ := handler
    cases phase with
    | deletingObject =>
      obtain rfl := Option.some.inj requested
      exact .deleteObject .purged
    | deletingRow =>
      obtain rfl := Option.some.inj requested
      exact .deleteMany .purged
    | purged | threw => exact nomatch requested

/-- The files that a request creates are those that its handler was to create. -/
theorem Handler.unborn_of_request {files : List StoredFile}
    (requested : handler.request deployment = some (.createMany files)) :
    files = handler.unborn := by
  cases handler.asks_of_request requested with
  | createMany => rfl
  | read silent => exact nomatch silent

theorem Handler.updates_of_request (requested : handler.request deployment = some request)
    {condition : Where} {data : Data} (updates : request.update = some (condition, data)) :
    handler.Updates deployment.limits condition data := by
  cases handler.asks_of_request requested with
  | updateMany =>
    obtain ⟨rfl, rfl⟩ := Prod.mk.inj (Option.some.inj updates)
    assumption
  | publishBatch =>
    obtain ⟨rfl, rfl⟩ := Prod.mk.inj (Option.some.inj updates)
    assumption
  | read silent => cases request <;> simp [Request.changes, Request.update] at silent updates
  | _ => exact nomatch updates

theorem Handler.deletes_of_request (requested : handler.request deployment = some request)
    {condition : Where} (deletes : request.deletion = some condition) :
    handler.Deletes condition := by
  cases handler.asks_of_request requested with
  | deleteMany =>
    obtain rfl := Option.some.inj deletes
    assumption
  | delete =>
    obtain rfl := Option.some.inj deletes
    assumption
  | read silent => cases request <;> simp [Request.changes, Request.deletion] at silent deletes
  | _ => exact nomatch deletes

theorem Handler.removes_of_request {location : Location}
    (requested : handler.request deployment = some (.deleteObject location)) :
    handler.Removes location := by
  cases handler.asks_of_request requested with
  | deleteObject => assumption
  | read silent => exact nomatch silent

theorem Handler.pending_of_request (requested : handler.request deployment = some request)
    {location : Location} (targets : request.target = some location) :
    ∃ file rest, handler.pending = file :: rest ∧ location = file.location := by
  cases handler.asks_of_request requested with
  | uploadStream pending => exact ⟨_, _, pending, (Option.some.inj targets).symm⟩
  | copyObject pending => exact ⟨_, _, pending, (Option.some.inj targets).symm⟩
  | read silent => cases request <;> simp [Request.changes, Request.target] at silent targets
  | _ => exact nomatch targets

end

end NestjsFastify.Upload
