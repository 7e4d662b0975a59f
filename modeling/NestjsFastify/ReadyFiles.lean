import NestjsFastify.PublishedRows

/-! # How files become ready

The history of a run shows, for every READY row, the handler that flipped it and what that handler
had found out about the object before.
-/
namespace NestjsFastify.Upload
open LengthPrefixedFraming (Bytes)
open MalwareScanner (MalwareScanResult)

abbrev UploadHistory := List (UploadWorld × UploadStep)

section
variable (deployment : Deployment) (history : UploadHistory)

/-- The process has read the first bytes of the object at the location, and their signature is that
of the content type. -/
def SignatureMatched (process : Nat) (location : Location) (contentType : String)
    (object : StoredObject) : Prop :=
  ∃ store : Store, store.objects location = some object ∧
    (uploadService deployment).Answered history process store
      (.readRange location deployment.limits.magicByteCount)
      (.bytes (object.bytes.take deployment.limits.magicByteCount)) ∧
    detectFileType (object.bytes.take deployment.limits.magicByteCount) = some contentType

/-- The process has read the object at the location. -/
def Streamed (process : Nat) (location : Location) (object : StoredObject) : Prop :=
  ∃ store : Store, store.objects location = some object ∧
    (uploadService deployment).Answered history process store (.readStream location)
      (.content object)

/-- The process got the verdict for the object. -/
def Scanned (process : Nat) (object : StoredObject) (verdict : MalwareScanResult) : Prop :=
  ∃ (store : Store) (sizeBytes : Option Nat),
    (uploadService deployment).Answered history process store (.scan object sizeBytes)
      (.verdict verdict)

/-- A verification job of the row moved it from VERIFYING to READY, after it had found the object of
the row to match the declared type and had it scanned with a verdict that is not `infected`. -/
def VerifiedReady (row : StoredFileRow) : Prop :=
  ∃ later before process oracle earlier verdict object,
    history = later ++ (before, .advance process oracle) :: earlier ∧
    before.processes process = .running (.verify ⟨row.verification, .flipping verdict⟩) ∧
    (∃ old ∈ before.shared.rows, old.id = row.id ∧ old.status = .verifying) ∧
    SignatureMatched deployment earlier process row.location row.contentType object ∧
    Streamed deployment earlier process row.location object ∧
    Scanned deployment earlier process object verdict ∧
    verdict ≠ .infected ∧ row.scanOutcome = some (scanOutcomeOf verdict) ∧
    (row.scanOutcome = some .clean → verdict = .clean)

/-- A confirm moved the row from FINALIZING to READY, after it had found the object of the row to
match the declared type. -/
def ConfirmedReady (row : StoredFileRow) : Prop :=
  ∃ later before process oracle earlier command record object,
    history = later ++ (before, .advance process oracle) :: earlier ∧
    before.processes process = .running (.confirm ⟨command, .flipping record⟩) ∧
    (∃ old ∈ before.shared.rows, old.id = row.id ∧ old.status = .finalizing) ∧
    SignatureMatched deployment earlier process row.location row.contentType object

end

/-! ## What handlers have found out -/

/-- What the history shows of a handler that may flip a row to READY. -/
def Traced (deployment : Deployment) (history : UploadHistory) (process : Nat) : Handler → Prop
  | .verify ⟨command, .headingObject⟩ => ∃ object,
      SignatureMatched deployment history process command.location command.declaredContentType object
  | .verify ⟨command, .openingStream _⟩ => ∃ object,
      SignatureMatched deployment history process command.location command.declaredContentType object
  | .verify ⟨command, .scanning object _⟩ =>
      SignatureMatched deployment history process command.location command.declaredContentType
        object ∧ Streamed deployment history process command.location object
  | .verify ⟨command, .flipping verdict⟩ => verdict ≠ .infected ∧ ∃ object,
      SignatureMatched deployment history process command.location command.declaredContentType
        object ∧ Streamed deployment history process command.location object ∧
        Scanned deployment history process object verdict
  | .confirm ⟨_, .flipping record⟩ => deployment.limits.malwareScanEnabled = false → ∃ object,
      SignatureMatched deployment history process record.location record.contentType object
  | _ => True

section
variable {deployment : Deployment} {history : UploadHistory} {process : Nat} {location : Location}
  {contentType : String} {object : StoredObject} {verdict : MalwareScanResult}

theorem SignatureMatched.cons
    (matched : SignatureMatched deployment history process location contentType object)
    (entry : UploadWorld × UploadStep) :
    SignatureMatched deployment (entry :: history) process location contentType object := by
  obtain ⟨store, present, answered, type⟩ := matched
  exact ⟨store, present, answered.cons entry, type⟩

theorem Streamed.cons (streamed : Streamed deployment history process location object)
    (entry : UploadWorld × UploadStep) :
    Streamed deployment (entry :: history) process location object := by
  obtain ⟨store, present, answered⟩ := streamed
  exact ⟨store, present, answered.cons entry⟩

theorem Scanned.cons (scanned : Scanned deployment history process object verdict)
    (entry : UploadWorld × UploadStep) :
    Scanned deployment (entry :: history) process object verdict := by
  obtain ⟨store, sizeBytes, answered⟩ := scanned
  exact ⟨store, sizeBytes, answered.cons entry⟩

private theorem traced_cons {handler : Handler}
    (entry : UploadWorld × UploadStep) (traced : Traced deployment history process handler) :
    Traced deployment (entry :: history) process handler := by
  unfold Traced at traced ⊢
  split
  · obtain ⟨object, matched⟩ := traced
    exact ⟨object, matched.cons entry⟩
  · obtain ⟨object, matched⟩ := traced
    exact ⟨object, matched.cons entry⟩
  · exact ⟨traced.1.cons entry, traced.2.cons entry⟩
  · obtain ⟨clean, object, matched, streamed, scanned⟩ := traced
    exact ⟨clean, object, matched.cons entry, streamed.cons entry, scanned.cons entry⟩
  · intro disabled
    obtain ⟨object, matched⟩ := traced disabled
    exact ⟨object, matched.cons entry⟩
  · trivial

variable {world : UploadWorld} {oracle : Oracle} {request : Request} {after : Store}
  {response : Response}

/-- The answer that a step gives is in the history from then on. -/
private theorem answered_now {handler : Handler}
    (running : world.processes process = .running handler)
    (requested : handler.request deployment = some request)
    (performed : perform world.shared request oracle = some (after, response)) :
    (uploadService deployment).Answered ((world, .advance process oracle) :: history) process
      world.shared request response :=
  ⟨world, oracle, handler, after, List.mem_cons_self, rfl, running, requested, performed⟩

/-- A range read whose head passes the signature check. -/
private theorem matched_now {handler : Handler}
    (running : world.processes process = .running handler)
    (requested : handler.request deployment =
      some (.readRange location deployment.limits.magicByteCount)) {head : Bytes} {key : String}
    (performed : perform world.shared (.readRange location deployment.limits.magicByteCount) oracle =
      some (after, .bytes head))
    (ok : assertMagicBytesMatch head contentType key = .ok ()) :
    ∃ object, SignatureMatched deployment ((world, .advance process oracle) :: history) process
      location contentType object := by
  obtain ⟨object, present, rfl⟩ := object_of_readRange performed
  exact ⟨object, world.shared, present, answered_now running requested performed,
    assertMagicBytesMatch_ok_iff.mp ok⟩

private theorem traced_confirm {command : ConfirmUploadCommand} {phase : ConfirmPhase}
    (running : world.processes process = .running (.confirm ⟨command, phase⟩))
    (requested : ConfirmUpload.request deployment.limits ⟨command, phase⟩ = some request)
    (performed : perform world.shared request oracle = some (after, response))
    (traced : Traced deployment history process (.confirm ⟨command, phase⟩)) :
    Traced deployment ((world, .advance process oracle) :: history) process
      (.confirm ⟨command, ConfirmUpload.next deployment.limits command phase response⟩) := by
  cases next : ConfirmUpload.next deployment.limits command phase response with
  | flipping record =>
    intro disabled
    rcases flipping_of_next next with rfl | enabled | ⟨rfl, head, rfl, ok⟩
    · exact traced_cons _ traced disabled
    · exact Bool.noConfusion (enabled.symm.trans disabled)
    · obtain rfl := Option.some.inj requested
      exact matched_now running rfl performed ok
  | _ => trivial

private theorem traced_verify (run : (uploadService deployment).system.Run history world)
    {command : UploadVerificationRequest} {phase : VerifyPhase}
    (running : world.processes process = .running (.verify ⟨command, phase⟩))
    (requested : VerifyUpload.request deployment.limits ⟨command, phase⟩ = some request)
    (performed : perform world.shared request oracle = some (after, response))
    (traced : Traced deployment history process (.verify ⟨command, phase⟩)) :
    Traced deployment ((world, .advance process oracle) :: history) process
      (.verify ⟨command, VerifyUpload.next command phase response⟩) := by
  have kept := traced_cons (world, .advance process oracle) traced
  cases next : VerifyUpload.next command phase response with
  | headingObject =>
    rcases VerifyUpload.origin_of_next next with rfl | ⟨rfl, head, rfl, ok⟩
    · exact kept
    · obtain rfl := Option.some.inj requested
      exact matched_now running rfl performed ok
  | openingStream sizeBytes =>
    rcases VerifyUpload.origin_of_next next with rfl | rfl
    · exact kept
    · exact kept
  | scanning content sizeBytes =>
    rcases VerifyUpload.origin_of_next next with rfl | ⟨rfl, rfl⟩
    · exact kept
    · obtain rfl := Option.some.inj requested
      obtain ⟨object, matched⟩ := traced
      have present := object_of_readStream performed
      have same : object = content := by
        obtain ⟨store, before, ⟨earlier, oracle, -, -, member, rfl, -⟩, -⟩ := matched
        obtain ⟨version, recorded, job⟩ :=
          ((uploadOutline_holds ⟨history, run⟩).assertion process _ running).verifies command
            List.mem_cons_self
        have published : isPublishedKey command.location.key = true := by
          rw [← job]
          exact (uploadOutline_holds ⟨history, run⟩).invariant.published recorded
        exact object_unchanged run member published before present
      subst same
      exact ⟨matched.cons _, world.shared, present, answered_now running rfl performed⟩
  | flipping verdict =>
    rcases VerifyUpload.origin_of_next next with rfl | ⟨content, sizeBytes, rfl, rfl, clean⟩
    · exact kept
    · obtain rfl := Option.some.inj requested
      exact ⟨clean, content, kept.1, kept.2, world.shared, sizeBytes,
        answered_now running rfl performed⟩
  | _ => trivial

/-- The history shows of every handler what its phase says. -/
theorem traced_of_run (run : (uploadService deployment).system.Run history world)
    {handler : Handler} (running : world.processes process = .running handler) :
    Traced deployment history process handler := by
  refine SharedService.traced (Traced deployment) (fun history world process handler _
    admitted => ?_) (fun history world process oracle handler request after response run running
    requested performed traced => ?_) (fun entry history process handler traced =>
    traced_cons entry traced) run running
  · have started : admits deployment world.shared handler = true := admitted
    cases handler with
    | confirm handler =>
      obtain ⟨command, phase⟩ := handler
      rcases phase_of_admits started with rfl | ⟨failure, rfl⟩ <;> trivial
    | verify handler =>
      obtain ⟨command, phase⟩ := handler
      simp only [admits, Bool.and_eq_true, decide_eq_true_eq] at started
      rw [started.1]
      trivial
    | uploadFiles | reclaim | purge => trivial
  · cases handler with
    | confirm handler => exact traced_confirm running requested performed traced
    | verify handler => exact traced_verify run running requested performed traced
    | uploadFiles | reclaim | purge => trivial

/-! ## Ready rows -/

/-- How a row of the table came to be READY. -/
inductive ReadyOrigin (deployment : Deployment) (world : UploadWorld) (row : StoredFileRow) :
    UploadStep → Prop
  | kept {event : UploadStep} {old : StoredFileRow} (member : old ∈ world.shared.rows)
      (ready : old.status = .ready) (same : row.identity = old.identity)
      (outcome : row.scanOutcome = old.scanOutcome) : ReadyOrigin deployment world row event
  | updated {process : Nat} {oracle : Oracle} {handler : Handler} {condition : Where} {data : Data}
      {old : StoredFileRow} (running : world.processes process = .running handler)
      (updates : handler.Updates deployment.limits condition data)
      (member : old ∈ world.shared.rows) (selected : condition.selects old = true)
      (ready : data.status = some .ready) (new : row = data.apply world.shared.now old) :
      ReadyOrigin deployment world row (.advance process oracle)

variable {final : UploadWorld} {event : UploadStep} {row : StoredFileRow}

theorem readyOrigin_of_step (reachable : (uploadService deployment).system.Reachable world)
    (taken : (uploadService deployment).system.step world event = some final)
    (member : row ∈ final.shared.rows) (ready : row.status = .ready) :
    ReadyOrigin deployment world row event := by
  cases SharedService.step_cases taken with
  | spawn | crash => exact .kept member ready rfl rfl
  | external changed =>
    obtain ⟨old, oldMem, same, outcome, -⟩ := external_row changed member
    exact .kept oldMem ((congrArg StoredFile.status same).symm.trans ready)
      (congrArg StoredFile.identity same) outcome
  | @advance _ _ handler _ _ _ running requested performed =>
    cases (effect_of_perform performed).rowOrigin member with
    | old oldMem => exact .kept oldMem ready rfl rfl
    | @created files created creates createdMem same =>
      subst same creates
      obtain rfl := Handler.unborn_of_request requested
      have finalizing := (((uploadOutline_holds reachable).assertion _ _ running).unborn created
        createdMem).status
      exact nomatch finalizing.symm.trans ready
    | @updated condition data old updates oldMem selected same =>
      have updates := Handler.updates_of_request requested updates
      refine .updated running updates oldMem selected ?_ same
      have status : row.status = data.status.getD old.status := same ▸ rfl
      cases updates with
      | verified => rfl
      | confirmed | published => exact congrArg some (status.symm.trans ready)
      | rejected rejects | claimed rejects =>
        rw [rejects, ready] at status
        exact StoredFileStatus.noConfusion status

private theorem VerifiedReady.cons {old : StoredFileRow}
    (verified : VerifiedReady deployment history old) (same : row.identity = old.identity)
    (outcome : row.scanOutcome = old.scanOutcome) (entry : UploadWorld × UploadStep) :
    VerifiedReady deployment (entry :: history) row := by
  obtain ⟨later, before, process, oracle, earlier, verdict, object, split, rest⟩ := verified
  refine ⟨entry :: later, before, process, oracle, earlier, verdict, object, by simp [split], ?_⟩
  rwa [StoredFile.congr_identity (·.verification) (fun _ => rfl) same, StoredFile.congr_identity (·.id) (fun _ => rfl) same,
    StoredFile.congr_identity (·.location) (fun _ => rfl) same, StoredFile.congr_identity (·.contentType) (fun _ => rfl) same,
    outcome]

private theorem ConfirmedReady.cons {old : StoredFileRow}
    (confirmed : ConfirmedReady deployment history old) (same : row.identity = old.identity)
    (entry : UploadWorld × UploadStep) : ConfirmedReady deployment (entry :: history) row := by
  obtain ⟨later, before, process, oracle, earlier, command, record, object, split, rest⟩ := confirmed
  refine ⟨entry :: later, before, process, oracle, earlier, command, record, object,
    by simp [split], ?_⟩
  rwa [StoredFile.congr_identity (·.id) (fun _ => rfl) same, StoredFile.congr_identity (·.location) (fun _ => rfl) same,
    StoredFile.congr_identity (·.contentType) (fun _ => rfl) same]

/-- With scanning enabled every READY row has been verified. -/
theorem verifiedReady_of_run (run : (uploadService deployment).system.Run history world)
    (enabled : deployment.limits.malwareScanEnabled = true) (member : row ∈ world.shared.rows)
    (ready : row.status = .ready) : VerifiedReady deployment history row := by
  induction run generalizing row with
  | start initial => simp [initial.1.1] at member
  | @step history before after event run taken ih =>
    have holds := uploadOutline_holds ⟨history, run⟩
    cases readyOrigin_of_step ⟨history, run⟩ taken member ready with
    | kept oldMem wasReady same outcome => exact (ih oldMem wasReady).cons same outcome _
    | @updated process oracle handler condition data old running updates oldMem selected target new =>
      have recorded := holds.invariant.recorded old oldMem
      have assertion := holds.assertion process handler running
      have traced := traced_of_run run running
      have published : deployment.limits.publishedStatus = .verifying := if_pos enabled
      cases updates with
      | @verified command verdict =>
        obtain ⟨version, versionMem, job⟩ := assertion.verifies command List.mem_cons_self
        have sameKey : old.key = version.key :=
          (Where.key_of_selects selected rfl).trans (congrArg UploadVerificationRequest.key job).symm
        have same := holds.invariant.identity old recorded version versionMem
          (holds.invariant.id_of_key recorded versionMem sameKey)
        have command_eq : old.verification = command :=
          (StoredFile.congr_identity (·.verification) (fun _ => rfl) same).trans job
        subst new command_eq
        obtain ⟨clean, object, matched, streamed, scanned⟩ := traced
        refine ⟨[], before, process, oracle, history, verdict, object, rfl, running,
          ⟨old, oldMem, rfl, Where.status_of_selects selected rfl⟩, matched, streamed, scanned,
          clean, rfl, fun outcome => ?_⟩
        cases verdict with
        | clean => rfl
        | infected => exact absurd rfl clean
        | unscannable => exact nomatch outcome
      | confirmed | published =>
        exact nomatch published.symm.trans (Option.some.inj target)
      | rejected rejects | claimed rejects => exact nomatch rejects.symm.trans target

/-- With scanning disabled every READY row that has a staged object for its source was checked. -/
theorem confirmedReady_of_run (run : (uploadService deployment).system.Run history world)
    (disabled : deployment.limits.malwareScanEnabled = false) (member : row ∈ world.shared.rows)
    (ready : row.status = .ready) (staged : startsWith row.sourceKey stagingRoot = true) :
    ConfirmedReady deployment history row := by
  induction run generalizing row with
  | start initial => simp [initial.1.1] at member
  | @step history before after event run taken ih =>
    have holds := uploadOutline_holds ⟨history, run⟩
    cases readyOrigin_of_step ⟨history, run⟩ taken member ready with
    | kept oldMem wasReady same outcome =>
      have source := StoredFile.congr_identity (·.sourceKey) (fun _ => rfl) same
      exact (ih oldMem wasReady (source ▸ staged)).cons same _
    | @updated process oracle handler condition data old running updates oldMem selected target new =>
      have recorded := holds.invariant.recorded old oldMem
      have assertion := holds.assertion process handler running
      have traced := traced_of_run run running
      subst new
      cases updates with
      | verified =>
        exact absurd (Where.status_of_selects selected rfl)
          (holds.invariant.verifying disabled old recorded)
      | @confirmed command record =>
        have sameId : old.id = record.id := Where.id_of_selects selected rfl
        have same := (assertion.staged holds.invariant (fun _ => ConfirmPhase.noConfusion) rfl
          recorded sameId).1
        obtain ⟨object, matched⟩ := traced disabled
        refine ⟨[], before, process, oracle, history, command, record, object, rfl, running,
          ⟨old, oldMem, rfl, Where.status_of_selects selected rfl⟩, ?_⟩
        change SignatureMatched deployment history process old.location old.contentType object
        rwa [StoredFile.congr_identity (·.location) (fun _ => rfl) same,
          StoredFile.congr_identity (·.contentType) (fun _ => rfl) same]
      | @published options prepared =>
        obtain ⟨file, fileMem, sameId⟩ := List.mem_map.mp (Where.ids_of_selects selected rfl)
        have key := (assertion.batch holds.invariant
          (show file.props ∈ Handler.batch (.uploadFiles ⟨options, .publishingBatch prepared⟩) from
            List.mem_map_of_mem fileMem) recorded sameId.symm).2
        exact (not_staged_and_published staged key).elim
      | rejected rejects | claimed rejects => exact nomatch rejects.symm.trans target

end

end NestjsFastify.Upload
