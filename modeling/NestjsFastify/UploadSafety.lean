import NestjsFastify.ReadyFiles

/-! # Safety of the upload subsystem

What holds in every state that the handlers, the lifecycle tasks and the owners can bring about in
any order, and in every step from it.
-/
namespace NestjsFastify.Upload

section
variable {deployment : Deployment} {history : UploadHistory} {world final : UploadWorld}
  {event : UploadStep} {row : StoredFileRow}

/-! ## The fate of a row -/

/-- What a step does to a row of the table. -/
inductive RowFate (deployment : Deployment) (world : UploadWorld) (row : StoredFileRow)
    (final : UploadWorld) : UploadStep → Prop
  | kept {event : UploadStep} {kept : StoredFileRow} (member : kept ∈ final.shared.rows)
      (same : kept.toStoredFile = row.toStoredFile) : RowFate deployment world row final event
  | updated {process : Nat} {oracle : Oracle} {handler : Handler} {condition : Where} {data : Data}
      (running : world.processes process = .running handler)
      (updates : handler.Updates deployment.limits condition data)
      (selected : condition.selects row = true)
      (member : data.apply world.shared.now row ∈ final.shared.rows) :
      RowFate deployment world row final (.advance process oracle)
  | deleted {process : Nat} {oracle : Oracle} {handler : Handler} {condition : Where}
      (running : world.processes process = .running handler) (deletes : handler.Deletes condition)
      (selected : condition.selects row = true)
      (gone : ∀ kept ∈ final.shared.rows, kept.id ≠ row.id) :
      RowFate deployment world row final (.advance process oracle)

theorem rowFate_of_step (reachable : (uploadService deployment).system.Reachable world)
    (taken : (uploadService deployment).system.step world event = some final)
    (member : row ∈ world.shared.rows) : RowFate deployment world row final event := by
  cases SharedService.step_cases taken with
  | spawn | crash => exact .kept member rfl
  | external changed =>
    obtain ⟨kept, keptMem, same⟩ := external_kept changed member
    exact .kept keptMem same
  | advance running requested performed =>
    rcases (effect_of_perform performed).row_fate member with kept |
        ⟨condition, data, updates, selected, updated⟩ | ⟨condition, deletes, selected, rest⟩
    · exact .kept kept rfl
    · exact .updated running (Handler.updates_of_request requested updates) selected updated
    · refine .deleted running (Handler.deletes_of_request requested deletes) selected
        fun kept keptMem sameId => ?_
      obtain ⟨before, notSelected⟩ := rest kept keptMem
      rw [WellFormed.row_eq (uploadOutline_holds reachable).invariant.unique before member sameId,
        selected] at notSelected
      exact Bool.noConfusion notSelected

/-- A lifecycle task deletes the row. -/
def RowDeleted (world : UploadWorld) (row : StoredFileRow) (event : UploadStep)
    (final : UploadWorld) : Prop :=
  (∀ kept ∈ final.shared.rows, kept.id ≠ row.id) ∧ ∃ process oracle,
    event = .advance process oracle ∧
    ((∃ candidate, candidate.id = row.id ∧
      world.processes process = .running (.reclaim ⟨candidate, .deletingRow⟩)) ∨
    ∃ candidate, candidate.id = row.id ∧
      world.processes process = .running (.purge ⟨candidate, .deletingRow⟩))

/-- Lifecycle cleanup claims the row. -/
def RowReclaimed (world : UploadWorld) (row : StoredFileRow) (event : UploadStep)
    (final : UploadWorld) : Prop :=
  (∃ kept ∈ final.shared.rows, kept.id = row.id ∧ kept.status = .rejected) ∧ ∃ process oracle,
    event = .advance process oracle ∧ ∃ candidate, candidate.id = row.id ∧
      world.processes process = .running (.reclaim ⟨candidate, .claiming⟩)

/-- Only a row that is FINALIZING is deleted by its own upload. -/
private theorem rowDeleted_of_deletes {process : Nat} {oracle : Oracle} {handler : Handler}
    {condition : Where} (running : world.processes process = .running handler)
    (deletes : handler.Deletes condition) (selected : condition.selects row = true)
    (gone : ∀ kept ∈ final.shared.rows, kept.id ≠ row.id) (other : row.status ≠ .finalizing) :
    RowDeleted world row (.advance process oracle) final := by
  refine ⟨gone, process, oracle, rfl, ?_⟩
  cases deletes with
  | compensated | cleaned => exact absurd (Where.status_of_selects selected rfl) other
  | reclaimed => exact .inl ⟨_, (Where.id_of_selects selected rfl).symm, running⟩
  | purged => exact .inr ⟨_, (Where.id_of_selects selected rfl).symm, running⟩

theorem rejected_of_step (reachable : (uploadService deployment).system.Reachable world)
    (taken : (uploadService deployment).system.step world event = some final)
    (member : row ∈ world.shared.rows) (rejected : row.status = .rejected) :
    (∃ kept ∈ final.shared.rows, kept.id = row.id ∧ kept.status = .rejected) ∨
      RowDeleted world row event final := by
  cases rowFate_of_step reachable taken member with
  | kept member same =>
    exact .inl ⟨_, member, congrArg StoredFile.id same,
      (congrArg StoredFile.status same).trans rejected⟩
  | updated running updates selected member =>
    refine .inl ⟨_, member, rfl, ?_⟩
    cases updates with
    | verified | confirmed | published =>
      exact nomatch rejected.symm.trans (Where.status_of_selects selected rfl)
    | rejected rejects | claimed rejects => simp [Data.apply, rejects]
  | deleted running deletes selected gone =>
    refine .inr (rowDeleted_of_deletes running deletes selected gone ?_)
    rw [rejected]
    exact StoredFileStatus.noConfusion

theorem ready_of_step (reachable : (uploadService deployment).system.Reachable world)
    (taken : (uploadService deployment).system.step world event = some final)
    (member : row ∈ world.shared.rows) (ready : row.status = .ready) :
    (∃ kept ∈ final.shared.rows, kept.id = row.id ∧ kept.status = .ready) ∨
      RowReclaimed world row event final ∨ RowDeleted world row event final := by
  cases rowFate_of_step reachable taken member with
  | kept member same =>
    exact .inl ⟨_, member, congrArg StoredFile.id same,
      (congrArg StoredFile.status same).trans ready⟩
  | @updated process oracle handler condition data running updates selected member =>
    cases updates with
    | verified | confirmed | published =>
      exact nomatch ready.symm.trans (Where.status_of_selects selected rfl)
    | rejected rejects required unpublished =>
      exact absurd ((Where.status_of_selects selected required).symm.trans ready) unpublished
    | claimed rejects sameId =>
      refine .inr (.inl ⟨⟨_, member, rfl, by simp [Data.apply, rejects]⟩, process, oracle, rfl, _,
        (Where.id_of_selects selected sameId).symm, running⟩)
  | deleted running deletes selected gone =>
    refine .inr (.inr (rowDeleted_of_deletes running deletes selected gone ?_))
    rw [ready]
    exact StoredFileStatus.noConfusion

/-! ## Rows created by a confirm -/

/-- A confirm has inserted the row. -/
def CreatedByConfirm (history : UploadHistory) (row : StoredFileRow) : Prop :=
  ∃ before process oracle command file after response,
    (before, .advance process oracle) ∈ history ∧
    before.processes process = .running (.confirm ⟨command, .creating file⟩) ∧
    perform before.shared (.createMany [file]) oracle = some (after, response) ∧
    newRow before.shared.now file ∈ after.rows ∧ file.id = row.id

/-- The source of a row that a confirm has inserted is a staged object. -/
theorem CreatedByConfirm.staged (run : (uploadService deployment).system.Run history world)
    (created : CreatedByConfirm history row) (member : row ∈ world.shared.rows) :
    startsWith row.sourceKey stagingRoot = true := by
  obtain ⟨before, process, oracle, command, file, after, response, entryMem, running, performed,
    inserted, sameId⟩ := created
  have assertion := (uploadOutline_holds (run.reachable_of_mem entryMem)).assertion _ _ running
  have source : startsWith file.sourceKey stagingRoot = true := by
    rw [assertion.sourceKeys.2 file (List.mem_append_right _ List.mem_cons_self)]
    exact staged_of_owns (assertion.sourceKeys.1 fun _ => ConfirmPhase.noConfusion)
  have known : Known world.shared file := by
    refine run.stable_after (fun world => Known world.shared file)
      (fun before event after reachable known taken => ?_) entryMem fun final taken => ?_
    · exact known.mono (extends_of_step reachable taken)
    · have wellFormed := (uploadOutline_holds
        ((run.reachable_of_mem entryMem).step taken)).invariant
      cases SharedService.step_cases taken with
      | advance running' requested performed' =>
        obtain rfl := SharedService.Process.running.inj (running.symm.trans running')
        obtain rfl := Option.some.inj requested
        obtain ⟨rfl, -⟩ := Prod.mk.inj (Option.some.inj (performed.symm.trans performed'))
        exact ⟨_, wellFormed.recorded _ inserted, rfl⟩
  have wellFormed := (uploadOutline_holds ⟨history, run⟩).invariant
  have same := Known.identity wellFormed ⟨row, wellFormed.recorded row member, rfl⟩ known sameId.symm
  exact StoredFile.congr_identity (·.sourceKey) (fun _ => rfl) same ▸ source

/-! ## Safety -/

/-- What a step from a world of a run does, and does not do, to rows and to their objects. -/
structure SafeStep (history : UploadHistory) (world : UploadWorld) (event : UploadStep)
    (final : UploadWorld) : Prop where
  rejected : ∀ row ∈ world.shared.rows, row.status = .rejected →
    (∃ kept ∈ final.shared.rows, kept.id = row.id ∧ kept.status = .rejected) ∨
      RowDeleted world row event final
  ready : ∀ row ∈ world.shared.rows, row.status = .ready →
    (∃ kept ∈ final.shared.rows, kept.id = row.id ∧ kept.status = .ready) ∨
      RowReclaimed world row event final ∨ RowDeleted world row event final
  written : ∀ location, isPublishedKey location.key = true →
    world.shared.objects location = none → final.shared.objects location ≠ none →
    ∀ entry ∈ history, entry.1.shared.objects location = none
  object : ∀ row ∈ world.shared.rows, ∀ object, world.shared.objects row.location = some object →
    final.shared.objects row.location = some object ∨
      final.shared.objects row.location = none ∧ ∃ process oracle handler,
        event = .advance process oracle ∧ world.processes process = .running handler ∧
        handler.MayRemove row

/-- What holds of a world and of the run that led to it. -/
structure UploadSafety (deployment : Deployment) (history : UploadHistory) (world : UploadWorld) :
    Prop where
  verified : deployment.limits.malwareScanEnabled = true →
    ∀ row ∈ world.shared.rows, row.status = .ready → VerifiedReady deployment history row
  confirmed : deployment.limits.malwareScanEnabled = false →
    ∀ row ∈ world.shared.rows, row.status = .ready → CreatedByConfirm history row →
      ConfirmedReady deployment history row
  rejected : ∀ entry ∈ history, ∀ row ∈ entry.1.shared.rows, row.status = .rejected →
    ∀ kept ∈ world.shared.rows, kept.id = row.id → kept.status = .rejected
  published : ∀ row ∈ world.shared.rows, row.Published →
    world.shared.objects row.location ≠ none
  step : ∀ event final, (uploadService deployment).system.step world event = some final →
    SafeStep history world event final

theorem safeStep_of_run (run : (uploadService deployment).system.Run history world)
    (taken : (uploadService deployment).system.step world event = some final) :
    SafeStep history world event final where
  rejected row member := rejected_of_step ⟨history, run⟩ taken member
  ready row member := ready_of_step ⟨history, run⟩ taken member
  written location published absent present entry member := by
    by_contra held
    have settled := settled_of_run run member published held
    cases objectChange_of_step ⟨history, run⟩ taken published with
    | kept same => exact present (same.trans absent)
    | written running pending same => exact settled.written _ _ running _ pending same
    | removed running removes gone => exact present gone
  object row member object present := by
    have holds := uploadOutline_holds ⟨history, run⟩
    have published : isPublishedKey row.location.key = true :=
      holds.invariant.published (holds.invariant.recorded row member)
    cases objectChange_of_step ⟨history, run⟩ taken published with
    | kept same => exact .inl (same.trans present)
    | written running pending same absent => exact nomatch absent.symm.trans present
    | @removed process oracle handler running removes gone =>
      exact .inr ⟨gone, process, oracle, handler, rfl, running,
        removes.mayRemove holds.invariant (holds.assertion _ _ running)
          ((batchOutline_holds ⟨history, run⟩).assertion _ _ running) member⟩

/-- Every run is safe. -/
theorem uploadSafety_of_run (run : (uploadService deployment).system.Run history world) :
    UploadSafety deployment history world where
  verified enabled _ member ready := verifiedReady_of_run run enabled member ready
  confirmed disabled _ member ready created :=
    confirmedReady_of_run run disabled member ready (created.staged run member)
  rejected entry entryMem row member rejected kept keptMem sameId := by
    exact (uploadOutline_holds ⟨history, run⟩).invariant.rejected row
      (recorded_of_run run entryMem member) rejected kept keptMem sameId
  published row member := (placedOutline_holds ⟨history, run⟩).invariant row member
  step _ _ := safeStep_of_run run

end

/-! ## A run -/

def sampleUser : Uuid := ⟨"7b0c6f0e-9f5e-4c7b-8a55-0d3a6f1f2c11", by decide⟩

theorem length_sampleFile : "019a0f6e-3c1b-7d2e-9b7a-5f4e3d2c1b0a".length = 36 := by decide

def sampleFile : Uuid := ⟨"019a0f6e-3c1b-7d2e-9b7a-5f4e3d2c1b0a", length_sampleFile⟩

def sampleKey : String := "uploads/7b0c6f0e-9f5e-4c7b-8a55-0d3a6f1f2c11/photo.png"

def sampleObject : StoredObject where
  bytes := [0x89, 0x50, 0x4e, 0x47, 0x0d, 0x0a, 0x1a, 0x0a]
  contentType := "image/png"
  etag := "5d41402a"

def sampleDeployment : Deployment where
  limits := { malwareScanEnabled := true }
  etagOf _ := "5d41402a"

def emptyStore : Store :=
  { rows := [], versions := [], objects := fun _ => none, jobs := [], issued := [], now := 0 }

theorem emptyStore_initial (deployment : Deployment) :
    (uploadService deployment).system.initial (SharedService.start emptyStore) :=
  ⟨⟨rfl, rfl, rfl, rfl, fun _ _ => rfl⟩, fun _ => rfl⟩

/-- A client uploads an object, which is confirmed, scanned and published. -/
def verifiedUpload : List UploadStep :=
  let command : ConfirmUploadCommand := ⟨sampleUser, "org", sampleKey⟩
  let job : UploadVerificationRequest :=
    ⟨publishedKey sampleUser sampleFile ".png", "uploads", "image/png"⟩
  [.external (.clientUpload ⟨"uploads", sampleKey⟩ sampleObject),
    .spawn 0 (.confirm (ConfirmUpload.start command)), .advance 0 .ok, .advance 0 .ok,
    .advance 0 (.generated [sampleFile]), .advance 0 .ok, .advance 0 .ok, .advance 0 .ok,
    .advance 0 .ok, .advance 0 .ok, .spawn 1 (.verify (VerifyUpload.start job)),
    .advance 1 .ok, .advance 1 .ok, .advance 1 .ok, .advance 1 (.scanned .clean), .advance 1 .ok]

theorem verifiedUpload_safe :
    ∃ history world, (uploadService sampleDeployment).system.Run history world ∧
      (∃ row ∈ world.shared.rows, row.status = .ready ∧ row.scanOutcome = some .clean) ∧
      UploadSafety sampleDeployment history world := by
  obtain ⟨history, world, run, -, -, passed⟩ :=
    TransitionSystem.run_of_execute (fun _ _ => True) (fun _ _ _ => trivial) verifiedUpload
      (fun world => world.shared.rows.any fun row =>
        row.status = .ready && row.scanOutcome = some .clean)
      (emptyStore_initial sampleDeployment)
      (show ((uploadService sampleDeployment).system.execute (fun _ _ => true) _ _).any _ = true by
        decide +kernel)
  obtain ⟨row, member, verified⟩ := List.any_eq_true.mp passed
  exact ⟨history, world, run, ⟨row, member, by simpa using verified⟩, uploadSafety_of_run run⟩

end NestjsFastify.Upload
