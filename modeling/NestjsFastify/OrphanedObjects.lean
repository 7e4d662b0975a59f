import NestjsFastify.UploadSafety

/-! # Objects without a row

A published object without a row is found by no lifecycle task.  Two steps can leave one behind: a
confirm removes the row of a copy that reported an error although it took effect, and a lifecycle
task removes the object and the row of an upload that has yet to write the object.  In runs without
them every published object has a row.
-/
namespace NestjsFastify.Upload

namespace Handler

/-- The ids of the rows whose objects a lifecycle task removes. -/
def reclaims : Handler → List Uuid
  | reclaim ⟨candidate, .deletingObject⟩ => [candidate.id]
  | purge ⟨candidate, .deletingObject⟩ => [candidate.id]
  | _ => []

/-- The row that the handler is about to delete, and where its object was. -/
def dropping : Handler → List (Uuid × Location)
  | confirm ⟨_, .compensating file⟩ => [(file.id, file.location)]
  | uploadFiles ⟨_, .deletingRow file _ _⟩ => [(file.id, file.location)]
  | reclaim ⟨candidate, .deletingRow⟩ => [(candidate.id, candidate.location)]
  | purge ⟨candidate, .deletingRow⟩ => [(candidate.id, candidate.location)]
  | _ => []

end Handler

/-- A copy that reports an error to a confirm has put nothing at its target, and lifecycle tasks
remove objects only while no upload has yet to write them. -/
def unambiguous : SharedService.Discipline Store Handler Oracle where
  permits store handler oracle := ∀ command file, handler = .confirm ⟨command, .copying file⟩ →
    ∀ after failure,
      perform store (.copyObject ⟨file.bucket, command.sourceKey⟩ file.location file.etag) oracle =
        some (after, .failed failure) → after.objects file.location = none
  beside _ handler other := ∀ id ∈ handler.reclaims, ∀ file ∈ other.pending, file.id ≠ id

section
variable {deployment : Deployment} {store after : Store} {handler other : Handler}
  {request : Request} {oracle : Oracle} {response : Response}

/-- A deletion is of the row that the handler is about to delete. -/
private theorem dropping_of_deletes {condition : Where} (deletes : handler.Deletes condition)
    {row : StoredFileRow} (selected : condition.selects row = true) :
    ∃ target ∈ handler.dropping, row.id = target.1 := by
  cases deletes with
  | compensated | cleaned | reclaimed | purged =>
    exact ⟨_, List.mem_cons_self, Where.id_of_selects selected rfl⟩

/-- The row that is about to be deleted is known. -/
private theorem known_of_dropping (assertion : handler.Assertion store) {target : Uuid × Location}
    (member : target ∈ handler.dropping) :
    ∃ version ∈ store.versions, version.id = target.1 ∧ version.location = target.2 := by
  have of_known : ∀ file ∈ handler.known, target = (file.id, file.location) →
      ∃ version ∈ store.versions, version.id = target.1 ∧ version.location = target.2 := by
    rintro file fileMem rfl
    obtain ⟨version, recorded, same⟩ := assertion.known file fileMem
    exact ⟨version, recorded, StoredFile.congr_identity (·.id) (fun _ => rfl) same,
      StoredFile.congr_identity (·.location) (fun _ => rfl) same⟩
  cases handler with
  | confirm handler =>
    obtain ⟨command, phase⟩ := handler
    cases phase with
    | compensating file => exact of_known file List.mem_cons_self (List.mem_singleton.mp member)
    | _ => exact nomatch member
  | uploadFiles handler =>
    obtain ⟨options, phase⟩ := handler
    cases phase with
    | deletingRow file todo failure =>
      exact of_known file List.mem_cons_self (List.mem_singleton.mp member)
    | _ => exact nomatch member
  | verify => exact nomatch member
  | reclaim handler =>
    obtain ⟨candidate, phase⟩ := handler
    cases phase with
    | deletingRow =>
      obtain rfl := List.mem_singleton.mp member
      exact assertion.candidates _ List.mem_cons_self
    | _ => exact nomatch member
  | purge handler =>
    obtain ⟨candidate, phase⟩ := handler
    cases phase with
    | deletingRow =>
      obtain rfl := List.mem_singleton.mp member
      exact assertion.candidates _ List.mem_cons_self
    | _ => exact nomatch member

/-- A row is about to be deleted once its object has been removed or its copy has failed. -/
private theorem dropping_of_resume (requested : handler.request deployment = some request)
    (performed : perform store request oracle = some (after, response)) {target : Uuid × Location}
    (member : target ∈ (handler.resume deployment response).dropping) :
    (request = .deleteObject target.2 ∧ response = .done ∧
      (target.1 ∈ handler.owned ∨ target.1 ∈ handler.reclaims)) ∨
    ∃ command file failure, handler = .confirm ⟨command, .copying file⟩ ∧
      target = (file.id, file.location) ∧ response = .failed failure := by
  cases handler with
  | confirm handler =>
    obtain ⟨command, phase⟩ := handler
    cases next : ConfirmUpload.next deployment.limits command phase response with
    | compensating file =>
      obtain ⟨rfl, failure, rfl⟩ := compensating_of_next next
      simp only [Handler.resume, ConfirmUpload.resume, next, Handler.dropping,
        List.mem_singleton] at member
      exact .inr ⟨command, file, failure, rfl, member, rfl⟩
    | _ => simp [Handler.resume, ConfirmUpload.resume, next, Handler.dropping] at member
  | uploadFiles handler =>
    obtain ⟨options, phase⟩ := handler
    cases next : UploadFiles.next deployment.limits options phase response with
    | deletingRow file todo failure =>
      obtain ⟨rfl, rfl⟩ := deletingRow_of_next next
      simp only [Handler.resume, UploadFiles.resume, next, Handler.dropping,
        List.mem_singleton] at member
      subst member
      exact .inl ⟨(Option.some.inj requested).symm, rfl, .inl List.mem_cons_self⟩
    | _ => simp [Handler.resume, UploadFiles.resume, next, Handler.dropping] at member
  | verify => cases member
  | reclaim handler =>
    obtain ⟨candidate, phase⟩ := handler
    cases next : Reclaim.next phase response with
    | deletingRow =>
      simp only [Handler.resume, Reclaim.resume, next, Handler.dropping,
        List.mem_singleton] at member
      subst member
      rcases Reclaim.deletingRow_of_next next with ⟨rfl, rfl⟩ | ⟨rfl, notCount, notFailed⟩
      · exact .inl ⟨(Option.some.inj requested).symm, rfl, .inr List.mem_cons_self⟩
      · obtain rfl := Option.some.inj requested
        rcases deleted_of_perform performed rfl with ⟨count, rfl⟩ | ⟨failure, rfl⟩
        · exact absurd rfl (notCount count)
        · exact absurd rfl (notFailed failure)
    | _ => simp [Handler.resume, Reclaim.resume, next, Handler.dropping] at member
  | purge handler =>
    obtain ⟨candidate, phase⟩ := handler
    cases next : Purge.next phase response with
    | deletingRow =>
      simp only [Handler.resume, Purge.resume, next, Handler.dropping,
        List.mem_singleton] at member
      subst member
      rcases Purge.deletingRow_of_next next with ⟨rfl, rfl⟩ | ⟨rfl, notCount, notFailed⟩
      · exact .inl ⟨(Option.some.inj requested).symm, rfl, .inr List.mem_cons_self⟩
      · obtain rfl := Option.some.inj requested
        rcases deleted_of_perform performed rfl with ⟨count, rfl⟩ | ⟨failure, rfl⟩
        · exact absurd rfl (notCount count)
        · exact absurd rfl (notFailed failure)
    | _ => simp [Handler.resume, Purge.resume, next, Handler.dropping] at member

/-- Every published object has a row, a row stays while its object is to be written, and a row is
deleted only once its object is gone. -/
def rowOutline : SharedService.Outline Store Handler where
  invariant store := ∀ location, isPublishedKey location.key = true →
    store.objects location ≠ none → ∃ row ∈ store.rows, row.location = location
  assertion store handler :=
    (∀ file ∈ handler.pending, ∃ row ∈ store.rows, row.id = file.id) ∧
      ∀ target ∈ handler.dropping, store.objects target.2 = none
  apart handler other :=
    (∀ target ∈ handler.dropping, ∀ file ∈ other.pending, file.id ≠ target.1) ∧
      ∀ target ∈ other.dropping, ∀ file ∈ handler.pending, file.id ≠ target.1

/-- A row keeps its id and its location unless it is deleted. -/
private theorem row_stays (performed : perform store request oracle = some (after, response))
    {row : StoredFileRow} (member : row ∈ store.rows) :
    (∃ kept ∈ after.rows, kept.id = row.id ∧ kept.location = row.location) ∨
      ∃ condition, request.deletion = some condition ∧ condition.selects row = true := by
  rcases (effect_of_perform performed).row_fate member with kept | ⟨condition, data, -, -, updated⟩ |
      ⟨condition, deletes, selected, -⟩
  · exact .inl ⟨row, kept, rfl, rfl⟩
  · exact .inl ⟨_, updated, rfl, rfl⟩
  · exact .inr ⟨condition, deletes, selected⟩

private theorem deletion_of_target {location : Location} (targets : request.target = some location) :
    request.deletion = none := by
  cases request <;> first | rfl | exact nomatch targets

/-- Handlers begin with neither an object to write nor a row to delete. -/
private theorem start_of_admits {limits : UploadLimits} (wellFormed : WellFormed limits store)
    (admitted : admits deployment store handler = true) :
    handler.pending = [] ∧ handler.dropping = [] := by
  obtain ⟨assertion, owned, -⟩ := Handler.assertion_of_admits wellFormed admitted
  have pending : handler.pending = [] := by
    have ids := assertion.pending_ids
    rw [owned, List.sublist_nil, List.map_eq_nil_iff] at ids
    exact ids
  refine ⟨pending, ?_⟩
  cases handler with
  | confirm handler =>
    obtain ⟨command, phase⟩ := handler
    rcases phase_of_admits admitted with rfl | ⟨failure, rfl⟩ <;> rfl
  | uploadFiles handler =>
    obtain ⟨options, phase⟩ := handler
    rw [of_decide_eq_true admitted]
    rfl
  | verify => rfl
  | reclaim handler =>
    obtain ⟨candidate, phase⟩ := handler
    simp only [admits, Bool.and_eq_true, decide_eq_true_eq] at admitted
    rw [admitted.1, Reclaim.start]
    split <;> rfl
  | purge handler =>
    obtain ⟨candidate, phase⟩ := handler
    simp only [admits, Bool.and_eq_true, decide_eq_true_eq] at admitted
    rw [admitted.1]
    rfl

theorem rowOutline_sound (deployment : Deployment) :
    SharedService.Outline.Sound (uploadService deployment) (uploadOutline deployment) unambiguous
      rowOutline where
  initial store initial location published present :=
    absurd (initial.2.2.2.2 location published) present
  symmetric _ _ apart := ⟨apart.2, apart.1⟩
  spawned store handler wellFormed _ admitted := by
    obtain ⟨pending, dropping⟩ := start_of_admits wellFormed admitted
    refine ⟨⟨fun file member => ?_, fun target member => ?_⟩, fun other _ _ =>
      ⟨fun target member => ?_, fun target _ file member => ?_⟩⟩
    · simp [pending] at member
    · simp [dropping] at member
    · simp [dropping] at member
    · simp [pending] at member
  performed store handler request oracle after response wellFormed assertion _ _ rows own requested
      performed permitted := by
    have stays : ∀ {location}, request.target = some location → ∀ row ∈ store.rows,
        ∃ kept ∈ after.rows, kept.id = row.id ∧ kept.location = row.location := by
      intro location targets row member
      rcases row_stays performed member with kept | ⟨condition, deletes, -⟩
      · exact kept
      · exact nomatch (deletion_of_target targets).symm.trans deletes
    refine ⟨fun location published present => ?_, fun file member => ?_, fun target member => ?_⟩
    · rcases (effect_of_perform performed).object location with same | ⟨targets, -⟩ | ⟨-, absent⟩
      · rw [same] at present
        obtain ⟨row, rowMem, located⟩ := rows location published present
        rcases row_stays performed rowMem with ⟨kept, keptMem, -, sameLocation⟩ |
            ⟨condition, deletes, selected⟩
        · exact ⟨kept, keptMem, sameLocation.trans located⟩
        · obtain ⟨target, targetMem, sameId⟩ :=
            dropping_of_deletes (Handler.deletes_of_request requested deletes) selected
          obtain ⟨version, recorded, versionId, versionLocation⟩ :=
            known_of_dropping assertion targetMem
          have same := wellFormed.identity row (wellFormed.recorded row rowMem) version recorded
            (sameId.trans versionId.symm)
          have target_eq : target.2 = location := versionLocation.symm.trans
            ((StoredFile.congr_identity (·.location) (fun _ => rfl) same).symm.trans located)
          exact absurd (target_eq ▸ own.2 target targetMem) present
      · obtain ⟨file, rest, pending, rfl⟩ := Handler.pending_of_request requested targets
        have fileMem : file ∈ handler.pending := pending ▸ List.mem_cons_self
        obtain ⟨row, rowMem, sameId⟩ := own.1 file fileMem
        obtain ⟨kept, keptMem, -, sameLocation⟩ := stays targets row rowMem
        have same := Known.identity wellFormed ⟨row, wellFormed.recorded row rowMem, rfl⟩
          (assertion.known file (assertion.pending.mem fileMem)) sameId
        exact ⟨kept, keptMem,
          sameLocation.trans (StoredFile.congr_identity (·.location) (fun _ => rfl) same)⟩
      · exact absurd absent present
    · rcases Handler.pending_of_resume requested performed member with ⟨rfl, unborn, rfl⟩ |
          ⟨written, rest, pending, later, targets⟩
      · rcases created_of_perform performed with ⟨-, inserted⟩ | impossible | ⟨failure, impossible⟩
        · exact ⟨_, (inserted file unborn).1, rfl⟩
        · exact nomatch impossible
        · exact nomatch impossible
      · obtain ⟨row, rowMem, sameId⟩ := own.1 file (pending ▸ List.mem_cons_of_mem _ later)
        obtain ⟨kept, keptMem, keptId, -⟩ := stays targets row rowMem
        exact ⟨kept, keptMem, keptId.trans sameId⟩
    · rcases dropping_of_resume requested performed member with ⟨rfl, rfl, -⟩ |
          ⟨command, file, failure, rfl, rfl, rfl⟩
      · exact removed_of_perform performed
      · obtain rfl := Option.some.inj requested
        exact permitted command file rfl after failure performed
  undisturbed store handler request oracle after response other wellFormed assertion otherAssertion
      ownApart _ _ _ others apart requested performed _ beside := by
    have drops : ∀ {row}, row ∈ store.rows →
        (∃ kept ∈ after.rows, kept.id = row.id ∧ kept.location = row.location) ∨
          ∃ target ∈ handler.dropping, row.id = target.1 := by
      intro row member
      rcases row_stays performed member with kept | ⟨condition, deletes, selected⟩
      · exact .inl kept
      · exact .inr (dropping_of_deletes (Handler.deletes_of_request requested deletes) selected)
    have notOwned : ∀ file ∈ other.pending, file.id ∉ handler.owned := fun file member owned =>
      ownApart _ owned (otherAssertion.pending_ids.mem (List.mem_map_of_mem member))
    refine ⟨⟨fun file member => ?_, fun target member => ?_⟩,
      fun target member file fileMem sameId => ?_, fun target member file fileMem sameId => ?_⟩
    · obtain ⟨row, rowMem, sameId⟩ := others.1 file member
      rcases drops rowMem with ⟨kept, keptMem, keptId, -⟩ | ⟨target, targetMem, same⟩
      · exact ⟨kept, keptMem, keptId.trans sameId⟩
      · exact absurd (sameId.symm.trans same) (apart.1 target targetMem file member)
    · rcases (effect_of_perform performed).object target.2 with same | ⟨targets, -⟩ | ⟨-, absent⟩
      · exact same.trans (others.2 target member)
      · obtain ⟨file, rest, pending, located⟩ := Handler.pending_of_request requested targets
        have fileMem : file ∈ handler.pending := pending ▸ List.mem_cons_self
        obtain ⟨version, recorded, versionId, versionLocation⟩ :=
          known_of_dropping otherAssertion member
        have sameId : file.id = version.id := Known.id_of_location wellFormed
          (assertion.known file (assertion.pending.mem fileMem)) ⟨version, recorded, rfl⟩
          (located.symm.trans versionLocation.symm)
        exact absurd (sameId.trans versionId) (apart.2 target member file fileMem)
      · exact absent
    · rcases dropping_of_resume requested performed member with ⟨-, -, owned | reclaims⟩ |
          ⟨command, copied, failure, rfl, rfl, -⟩
      · exact notOwned file fileMem (sameId ▸ owned)
      · exact beside _ reclaims file fileMem sameId
      · exact notOwned file fileMem (sameId ▸ List.mem_cons_self)
    · rcases Handler.pending_of_resume requested performed fileMem with ⟨-, unborn, -⟩ |
          ⟨written, rest, pending, later, -⟩
      · obtain ⟨version, recorded, versionId, -⟩ := known_of_dropping otherAssertion member
        exact (assertion.unborn file unborn).unused version recorded (versionId.trans sameId.symm)
      · exact apart.2 target member file (pending ▸ List.mem_cons_of_mem _ later) sameId
  external store event after wellFormed rows changed := by
    refine ⟨fun location published present => ?_, fun handler assertion own =>
      ⟨fun file member => ?_, fun target member => ?_⟩⟩
    · rw [external_object changed published] at present
      obtain ⟨row, rowMem, located⟩ := rows location published present
      obtain ⟨kept, keptMem, same⟩ := external_kept changed rowMem
      exact ⟨kept, keptMem, (congrArg StoredFile.location same).trans located⟩
    · obtain ⟨row, rowMem, sameId⟩ := own.1 file member
      obtain ⟨kept, keptMem, same⟩ := external_kept changed rowMem
      exact ⟨kept, keptMem, (congrArg StoredFile.id same).trans sameId⟩
    · obtain ⟨version, recorded, -, located⟩ := known_of_dropping assertion member
      have published : isPublishedKey target.2.key = true :=
        located ▸ wellFormed.published recorded
      rw [external_object changed published]
      exact own.2 target member

/-- In a run without ambiguous copies and without lifecycle removals beside an upload, every
published object has a row. -/
theorem row_of_published_object {history : UploadHistory} {world : UploadWorld}
    (run : (uploadService deployment).system.Run history world)
    (follows : TransitionSystem.Guarded unambiguous.Follows history) {location : Location}
    (published : isPublishedKey location.key = true)
    (present : world.shared.objects location ≠ none) :
    ∃ row ∈ world.shared.rows, row.key = location.key := by
  obtain ⟨row, member, located⟩ := ((rowOutline_sound deployment).holds
    (fun _ => uploadOutline_holds) run follows).invariant location published present
  exact ⟨row, member, congrArg Location.key located⟩

end

/-- A check of steps that neither fail a copy nor remove an object for a lifecycle task. -/
def unambiguousCheck (world : UploadWorld) : UploadStep → Bool
  | .advance process oracle =>
      match world.processes process with
      | .running (.confirm ⟨command, .copying file⟩) =>
          match perform world.shared
              (.copyObject ⟨file.bucket, command.sourceKey⟩ file.location file.etag) oracle with
          | some (_, .failed _) => false
          | _ => true
      | .running handler => handler.reclaims.isEmpty
      | _ => true
  | _ => true

private theorem unambiguous_of_check (world : UploadWorld) (event : UploadStep)
    (checked : unambiguousCheck world event = true) : unambiguous.Follows world event := by
  cases event with
  | advance process oracle =>
    intro handler running
    simp only [unambiguousCheck, running] at checked
    constructor
    · rintro command file rfl after failure performed
      simp [performed] at checked
    · intro other phase different _ id member
      split at checked
      · rename_i same
        obtain rfl := SharedService.Process.running.inj same
        exact nomatch member
      · rename_i same
        obtain rfl := SharedService.Process.running.inj same
        simp [List.isEmpty_iff.mp checked] at member
      · rename_i impossible
        exact absurd rfl (impossible handler)
  | spawn | crash | external => trivial

/-- The published object of a verified upload has a row. -/
theorem verifiedUpload_row :
    ∃ history world, (uploadService sampleDeployment).system.Run history world ∧
      world.shared.objects ⟨"uploads", publishedKey sampleUser sampleFile ".png"⟩ ≠ none ∧
      ∃ row ∈ world.shared.rows, row.key = publishedKey sampleUser sampleFile ".png" := by
  obtain ⟨history, world, run, follows, -, passed⟩ :=
    TransitionSystem.run_of_execute unambiguous.Follows unambiguous_of_check verifiedUpload
      (fun world => (world.shared.objects
        ⟨"uploads", publishedKey sampleUser sampleFile ".png"⟩).isSome)
      (emptyStore_initial sampleDeployment) (by decide +kernel)
  have present := Option.isSome_iff_ne_none.mp passed
  exact ⟨history, world, run, present, row_of_published_object run follows
    (isPublishedKey_publishedKey sampleUser sampleFile ".png") present⟩

/-- An object without a row is left at the published location of the sample, and nothing is in
flight. -/
def orphaned (world : UploadWorld) : Bool :=
  (world.shared.objects ⟨"uploads", publishedKey sampleUser sampleFile ".png"⟩).isSome &&
    world.shared.rows.isEmpty && (uploadService sampleDeployment).idle world 0 &&
    (uploadService sampleDeployment).idle world 1

private theorem orphan_of_execute (actions : List UploadStep)
    (spawned : ∀ event ∈ actions, ∀ process ∈ event.spawned, process = 0 ∨ process = 1)
    (passes : ((uploadService sampleDeployment).system.execute (fun _ _ => true)
      (SharedService.start emptyStore) actions).any orphaned = true) :
    ∃ history world, (uploadService sampleDeployment).system.Run history world ∧
      (uploadService sampleDeployment).Quiet world ∧
      ∃ location, isPublishedKey location.key = true ∧ world.shared.objects location ≠ none ∧
        ∀ row ∈ world.shared.rows, row.key ≠ location.key := by
  obtain ⟨history, world, run, -, same, passed⟩ :=
    TransitionSystem.run_of_execute (fun _ _ => True) (fun _ _ _ => trivial) actions orphaned
      (emptyStore_initial sampleDeployment) passes
  simp only [orphaned, Bool.and_eq_true, Option.isSome_iff_ne_none, List.isEmpty_iff] at passed
  obtain ⟨⟨⟨present, empty⟩, first⟩, second⟩ := passed
  refine ⟨history, world, run, SharedService.quiet_of_run run fun event member process started => ?_,
    _, isPublishedKey_publishedKey sampleUser sampleFile ".png", present, by simp [empty]⟩
  rw [same, List.mem_reverse] at member
  rcases spawned event member process started with rfl | rfl
  · exact first
  · exact second

/-- The copy takes effect although it reports an error, and the row is removed. -/
theorem ambiguousCopy_orphans :
    ∃ history world, (uploadService sampleDeployment).system.Run history world ∧
      (uploadService sampleDeployment).Quiet world ∧
      ∃ location, isPublishedKey location.key = true ∧ world.shared.objects location ≠ none ∧
        ∀ row ∈ world.shared.rows, row.key ≠ location.key :=
  orphan_of_execute
    [.external (.clientUpload ⟨"uploads", sampleKey⟩ sampleObject),
      .spawn 0 (.confirm (ConfirmUpload.start ⟨sampleUser, "org", sampleKey⟩)), .advance 0 .ok,
      .advance 0 .ok, .advance 0 (.generated [sampleFile]), .advance 0 .ok,
      .advance 0 (.failed true), .advance 0 .ok]
    (by simp [SharedService.Event.spawned]) (by decide +kernel)

/-- Lifecycle cleanup reclaims the row while the copy is still running, which then succeeds. -/
theorem reclaimBesideCopy_orphans :
    ∃ history world, (uploadService sampleDeployment).system.Run history world ∧
      (uploadService sampleDeployment).Quiet world ∧
      ∃ location, isPublishedKey location.key = true ∧ world.shared.objects location ≠ none ∧
        ∀ row ∈ world.shared.rows, row.key ≠ location.key :=
  orphan_of_execute
    [.external (.clientUpload ⟨"uploads", sampleKey⟩ sampleObject),
      .spawn 0 (.confirm (ConfirmUpload.start ⟨sampleUser, "org", sampleKey⟩)), .advance 0 .ok,
      .advance 0 .ok, .advance 0 (.generated [sampleFile]), .advance 0 .ok,
      .external (.elapse 3600001),
      .spawn 1 (.reclaim (Reclaim.start ⟨sampleFile, publishedKey sampleUser sampleFile ".png",
        "uploads", .finalizing, 0⟩)), .advance 1 .ok, .advance 1 .ok, .advance 1 .ok,
      .advance 1 .ok, .advance 0 .ok, .advance 0 .ok, .advance 0 .ok, .advance 0 .ok]
    (by simp [SharedService.Event.spawned]) (by decide +kernel)

end NestjsFastify.Upload
