import NestjsFastify.UploadSafety

/-! # Whose record a confirm answers with

A confirm answers with a record of its own user.  It is a record of its own organization unless the
confirm lost an insert race: the record that it then reads by source key is not compared with the
command.
-/
namespace NestjsFastify.Upload

/-- The record is the caller's. -/
structure ConfirmUploadCommand.Owns (command : ConfirmUploadCommand) (file : StoredFile) : Prop where
  organization : file.organizationId = command.organizationId
  user : file.userId = command.userId

/-- The re-read after a lost insert race shows records of the caller's organization, or rejected
ones. -/
def sameOrganization : SharedService.Discipline Store Handler Oracle where
  permits store handler oracle := ∀ command, handler = .confirm ⟨command, .findingConcurrent⟩ →
    ∀ after record,
      perform store (.findFirst { sourceKey := some command.sourceKey, live := true }) oracle =
        some (after, .record (some record)) →
      record.status = .rejected ∨ record.organizationId = command.organizationId
  beside _ _ _ := True

/-- The result of a record: with or without the signed URL of its object. -/
def StoredFile.Answer (file : StoredFile) (result : StoredFileResult) : Prop :=
  result = file.result none ∨ result = file.result (some file.location)

/-- What a confirm knows of its record, and of the result that it answers with. -/
structure ConfirmPhase.Owned (command : ConfirmUploadCommand) (phase : ConfirmPhase) : Prop where
  unborn : ∀ file ∈ phase.unborn, command.Owns file
  record : ∀ file ∈ phase.record, command.Owns file
  answer : ∀ file result, phase = .publishing (.returned file result) → file.Answer result

/-- The user of a staged source key is the user of its row. -/
def ownerOutline : SharedService.Outline Store Handler where
  invariant store := ∀ version ∈ store.versions, startsWith version.sourceKey stagingRoot = true →
    startsWith version.sourceKey (stagingPrefix version.userId) = true
  assertion _ handler := ∀ command phase, handler = .confirm ⟨command, phase⟩ →
    phase.Owned command
  apart _ _ := True

section
variable {deployment : Deployment} {store after : Store} {handler : Handler} {request : Request}
  {oracle : Oracle} {response : Response} {command : ConfirmUploadCommand} {phase : ConfirmPhase}

theorem ConfirmUploadCommand.Owns.of_identity {file old : StoredFile} (owns : command.Owns old)
    (same : file.identity = old.identity) : command.Owns file where
  organization := (StoredFile.congr_identity (·.organizationId) (fun _ => rfl) same).trans owns.organization
  user := (StoredFile.congr_identity (·.userId) (fun _ => rfl) same).trans owns.user

/-- The result of a publication is that of its file. -/
private theorem answer_of_publication (file : StoredFile) {other : StoredFile}
    {result : StoredFileResult} (returned : publicationResult file = .returned other result) :
    other.Answer result := by
  rw [publicationResult] at returned
  split at returned
  · cases returned
  · cases returned
  · obtain ⟨rfl, rfl⟩ := Publication.returned.inj returned
    exact .inl rfl

private theorem answer_of_resume {publication : Publication}
    (requested : publication.request = some request)
    (performed : perform store request oracle = some (after, response)) {file : StoredFile}
    {result : StoredFileResult} (returned : publication.resume response = .returned file result) :
    file.Answer result := by
  cases publication with
  | dispatching =>
    obtain ⟨rfl, rfl⟩ := Publication.returned.inj returned
    exact .inl rfl
  | signing other =>
    obtain rfl := Option.some.inj requested
    cases oracle with
    | ok =>
      obtain ⟨-, rfl⟩ := Prod.mk.inj (Option.some.inj performed)
      obtain ⟨rfl, rfl⟩ := Publication.returned.inj returned
      exact .inr rfl
    | failed applied =>
      obtain ⟨-, rfl⟩ := Prod.mk.inj (Option.some.inj performed)
      cases returned
    | _ => simp [perform] at performed
  | returned | threw => cases requested

/-- The record that a confirm works on is its caller's if what it re-reads is. -/
private theorem owns_record (wellFormed : WellFormed deployment.limits store)
    (assertion : Handler.Assertion store (.confirm ⟨command, phase⟩))
    (users : ownerOutline.invariant store) (owned : phase.Owned command)
    (requested : ConfirmUpload.request deployment.limits ⟨command, phase⟩ = some request)
    (performed : perform store request oracle = some (after, response))
    (permitted : sameOrganization.permits store (.confirm ⟨command, phase⟩) oracle)
    {record : StoredFile}
    (concerns : (ConfirmUpload.next deployment.limits command phase response).record =
      some record) : command.Owns record := by
  cases recordOrigin_of_next concerns with
  | kept before same => exact (owned.record _ before).of_identity same
  | created before =>
    subst before
    exact owned.unborn record List.mem_cons_self
  | existing before answer sameOrganization sameUser => exact ⟨sameOrganization, sameUser⟩
  | concurrent before answer =>
    subst before answer
    obtain rfl := Option.some.inj requested
    obtain ⟨version, recorded, rfl, selected⟩ := found_of_perform performed wellFormed.recorded
    have source : version.sourceKey = command.sourceKey := Where.sourceKey_of_selects selected rfl
    have owns := assertion.sourceKeys.1 fun _ => ConfirmPhase.noConfusion
    have user := users version recorded (source ▸ staged_of_owns owns)
    rw [source] at user
    rcases permitted command rfl after _ performed with rejected | organization
    · -- a rejected record is answered with `object_not_found`
      simp [ConfirmUpload.next, recoverExisting, rejected, ConfirmPhase.record] at concerns
    · exact ⟨organization, user_of_staged user (startsWith_of_owns owns)⟩
  | @reloaded old before answer =>
    subst before answer
    obtain rfl := Option.some.inj requested
    obtain ⟨version, recorded, rfl, selected⟩ := found_of_perform performed wellFormed.recorded
    have same := Known.identity wellFormed ⟨version, recorded, rfl⟩
      (assertion.known old List.mem_cons_self) (Where.id_of_selects selected rfl)
    exact (owned.record old rfl).of_identity same

private theorem confirm_owned (wellFormed : WellFormed deployment.limits store)
    (assertion : Handler.Assertion store (.confirm ⟨command, phase⟩))
    (users : ownerOutline.invariant store) (owned : phase.Owned command)
    (requested : ConfirmUpload.request deployment.limits ⟨command, phase⟩ = some request)
    (performed : perform store request oracle = some (after, response))
    (permitted : sameOrganization.permits store (.confirm ⟨command, phase⟩) oracle) :
    (ConfirmUpload.next deployment.limits command phase response).Owned command where
  unborn file member := by
    cases next : ConfirmUpload.next deployment.limits command phase response with
    | creating created =>
      rw [next] at member
      obtain rfl := List.mem_singleton.mp member
      rcases creating_of_next next with rfl | ⟨metadata, fileId, -, -, rfl⟩
      · exact owned.unborn file List.mem_cons_self
      · exact ⟨rfl, rfl⟩
    | _ => simp [next, ConfirmPhase.unborn] at member
  record file concerns :=
    owns_record wellFormed assertion users owned requested performed permitted concerns
  answer file result returned := by
    rcases publishing_of_next returned with ⟨earlier, rfl, resumed⟩ | ⟨source, started⟩
    · exact answer_of_resume requested performed resumed.symm
    · exact answer_of_publication source started.symm

/-- New rows keep the users of staged keys apart. -/
private theorem users_after (wellFormed : WellFormed deployment.limits store)
    (assertion : handler.Assertion store) (users : ownerOutline.invariant store)
    (owned : ownerOutline.assertion store handler)
    (requested : handler.request deployment = some request)
    (performed : perform store request oracle = some (after, response)) :
    ownerOutline.invariant after := by
  intro version member staged
  have effect := effect_of_perform performed
  rcases effect.version member with old | row
  · exact users version old staged
  · cases effect.rowOrigin row with
    | old rowMem => exact users version (wellFormed.recorded version rowMem) staged
    | @created files file creates fileMem new =>
      subst new creates
      obtain rfl := Handler.unborn_of_request requested
      cases handler with
      | confirm handler =>
        obtain ⟨command, phase⟩ := handler
        have running : ∀ failure, phase ≠ .threw failure := by
          rintro failure rfl
          exact nomatch requested
        have source : file.sourceKey = command.sourceKey :=
          assertion.sourceKeys.2 file (List.mem_append_right _ fileMem)
        have user := ((owned command phase rfl).unborn file fileMem).user
        change startsWith file.sourceKey (stagingPrefix file.userId) = true
        rw [source, user]
        exact startsWith_of_owns (assertion.sourceKeys.1 running)
      | uploadFiles handler =>
        have source : file.sourceKey = file.key :=
          assertion.sourceKeys file (List.mem_append_right _ fileMem)
        obtain ⟨extension, key⟩ := (assertion.unborn file fileMem).keyed
        have published : isPublishedKey file.sourceKey = true := by
          rw [source, key, isPublishedKey_publishedKey]
        exact (not_staged_and_published staged published).elim
      | verify | reclaim | purge => exact nomatch fileMem
    | @updated condition data old updates oldMem selected new =>
      subst new
      exact users old (wellFormed.recorded old oldMem) staged

theorem ownerOutline_sound (deployment : Deployment) :
    SharedService.Outline.Sound (uploadService deployment) (uploadOutline deployment)
      sameOrganization ownerOutline where
  initial store initial version member := by simp [initial.2.1] at member
  symmetric _ _ _ := trivial
  spawned store handler wellFormed _ admitted := by
    refine ⟨?_, fun _ _ _ => trivial⟩
    rintro command phase rfl
    have started : admits deployment store (.confirm ⟨command, phase⟩) = true := admitted
    rcases phase_of_admits started with rfl | ⟨failure, rfl⟩ <;>
      exact ⟨fun _ member => (nomatch member), fun _ member => (nomatch member),
        fun _ _ impossible => (nomatch impossible)⟩
  performed store handler request oracle after response wellFormed assertion _ _ users owned
      requested performed permitted := by
    refine ⟨users_after wellFormed assertion users owned requested performed, ?_⟩
    rintro command phase same
    cases handler with
    | confirm handler =>
      obtain ⟨command', phase'⟩ := handler
      obtain ⟨rfl, rfl⟩ := ConfirmUpload.mk.inj (Handler.confirm.inj same)
      exact confirm_owned wellFormed assertion users (owned _ _ rfl) requested performed permitted
    | uploadFiles | verify | reclaim | purge => exact nomatch same
  undisturbed store handler request oracle after response other _ _ _ _ _ _ _ owned _ _ _ _ _ :=
    ⟨owned, trivial⟩
  external store event after wellFormed users changed := by
    refine ⟨fun version member staged => ?_, fun _ _ owned => owned⟩
    obtain ⟨old, oldMem, same⟩ := external_version wellFormed changed member
    rw [congrArg StoredFile.sourceKey same] at staged ⊢
    rw [congrArg StoredFile.userId same]
    exact users old oldMem staged

/-- In a run whose re-reads show no record of another organization, a confirm answers with a record
of its caller only. -/
theorem owner_of_answer {history : UploadHistory} {world : UploadWorld}
    (run : (uploadService deployment).system.Run history world)
    (follows : TransitionSystem.Guarded sameOrganization.Follows history) {process : Nat}
    {command : ConfirmUploadCommand} {file : StoredFile} {result : StoredFileResult}
    (answered : world.processes process =
      .running (.confirm ⟨command, .publishing (.returned file result)⟩)) :
    ∃ version ∈ world.shared.versions, version.organizationId = command.organizationId ∧
      version.userId = command.userId ∧ result.id = version.id ∧ result.key = version.key ∧
      ∀ url ∈ result.url, url = version.location := by
  have owned := ((ownerOutline_sound deployment).holds (fun _ => uploadOutline_holds) run
    follows).assertion process _ answered command _ rfl
  obtain ⟨version, recorded, same⟩ :=
    ((uploadOutline_holds ⟨history, run⟩).assertion process _ answered).known file List.mem_cons_self
  have owns := (owned.record file rfl).of_identity same
  have id : version.id = file.id := StoredFile.congr_identity (·.id) (fun _ => rfl) same
  have key : version.key = file.key := StoredFile.congr_identity (·.key) (fun _ => rfl) same
  have location : version.location = file.location := StoredFile.congr_identity (·.location) (fun _ => rfl) same
  refine ⟨version, recorded, owns.organization, owns.user, ?_⟩
  rcases owned.answer file result rfl with rfl | rfl
  · exact ⟨id.symm, key.symm, fun _ impossible => nomatch impossible⟩
  · exact ⟨id.symm, key.symm, fun url same => (Option.some.inj same).symm.trans location.symm⟩

end

/-- A check of steps that re-read no record. -/
def sameOrganizationCheck (world : UploadWorld) : UploadStep → Bool
  | .advance process _ =>
      match world.processes process with
      | .running (.confirm ⟨_, .findingConcurrent⟩) => false
      | _ => true
  | _ => true

private theorem sameOrganization_of_check (world : UploadWorld) (event : UploadStep)
    (checked : sameOrganizationCheck world event = true) :
    sameOrganization.Follows world event := by
  cases event with
  | advance process oracle =>
    intro handler running
    refine ⟨?_, fun _ _ _ _ => trivial⟩
    rintro command rfl
    simp [sameOrganizationCheck, running] at checked
  | spawn | crash | external => trivial

/-- The result that a confirm has answered with. -/
def answerOf (world : UploadWorld) (process : Nat) :
    Option (ConfirmUploadCommand × StoredFile × StoredFileResult) :=
  match world.processes process with
  | .running (.confirm ⟨command, .publishing (.returned file result)⟩) =>
      some (command, file, result)
  | _ => none

theorem running_of_answerOf {world : UploadWorld} {process : Nat} {command : ConfirmUploadCommand}
    {file : StoredFile} {result : StoredFileResult}
    (answer : answerOf world process = some (command, file, result)) :
    world.processes process =
      .running (.confirm ⟨command, .publishing (.returned file result)⟩) := by
  unfold answerOf at answer
  split at answer
  · rename_i running
    obtain ⟨rfl, rfl, rfl⟩ : _ ∧ _ ∧ _ := by simpa using answer
    exact running
  · simp at answer

/-- The confirm of a verified upload answers with the caller's record. -/
theorem verifiedUpload_owner :
    ∃ history world file result, (uploadService sampleDeployment).system.Run history world ∧
      world.processes 0 = .running
        (.confirm ⟨⟨sampleUser, "org", sampleKey⟩, .publishing (.returned file result)⟩) ∧
      ∃ version ∈ world.shared.versions, version.organizationId = "org" ∧
        version.userId = sampleUser ∧ result.id = version.id ∧ result.key = version.key ∧
        ∀ url ∈ result.url, url = version.location := by
  obtain ⟨history, world, run, follows, -, passed⟩ :=
    TransitionSystem.run_of_execute sameOrganization.Follows sameOrganization_of_check
      verifiedUpload (fun world => (answerOf world 0).any fun answer =>
        answer.1 = ⟨sampleUser, "org", sampleKey⟩)
      (emptyStore_initial sampleDeployment) (by decide +kernel)
  obtain ⟨⟨command, file, result⟩, answer, same⟩ := (Option.any_eq_true _ _).mp passed
  obtain rfl : command = ⟨sampleUser, "org", sampleKey⟩ := of_decide_eq_true same
  have answered := running_of_answerOf answer
  exact ⟨history, world, file, result, run, answered, owner_of_answer run follows answered⟩

/-- Two commands of one user under different organizations race on one source key, and the second
is answered with the record of the first. -/
theorem raceAcrossOrganizations_answers :
    ∃ history world process command file result,
      (uploadService sampleDeployment).system.Run history world ∧
      world.processes process =
        .running (.confirm ⟨command, .publishing (.returned file result)⟩) ∧
      ∃ version ∈ world.shared.versions, version.id = result.id ∧
        version.organizationId ≠ command.organizationId := by
  obtain ⟨history, world, run, -, -, passed⟩ :=
    TransitionSystem.run_of_execute (fun _ _ => True) (fun _ _ _ => trivial)
      [.external (.clientUpload ⟨"uploads", sampleKey⟩ sampleObject),
        .spawn 0 (.confirm (ConfirmUpload.start ⟨sampleUser, "first", sampleKey⟩)),
        .spawn 1 (.confirm (ConfirmUpload.start ⟨sampleUser, "second", sampleKey⟩)),
        .advance 0 .ok, .advance 1 .ok, .advance 0 .ok, .advance 1 .ok,
        .advance 0 (.generated [sampleFile]), .advance 1 (.generated [sampleUser]),
        .advance 0 .ok, .advance 1 .ok, .advance 0 .ok, .advance 0 .ok, .advance 0 .ok,
        .advance 1 .ok, .advance 1 .ok]
      (fun world => (answerOf world 1).any fun answer =>
        world.shared.versions.any fun version =>
          version.id = answer.2.2.id && version.organizationId ≠ answer.1.organizationId)
      (emptyStore_initial sampleDeployment)
      (show ((uploadService sampleDeployment).system.execute (fun _ _ => true) _ _).any _ = true by
        decide +kernel)
  obtain ⟨⟨command, file, result⟩, answer, foreign⟩ := (Option.any_eq_true _ _).mp passed
  obtain ⟨version, recorded, other⟩ := List.any_eq_true.mp foreign
  exact ⟨history, world, 1, command, file, result, run, running_of_answerOf answer, version, recorded,
    by simpa using other⟩

end NestjsFastify.Upload
