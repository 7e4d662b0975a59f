import NestjsFastify.UploadOutline

/-! # Objects at published locations

A published location is written once.  Its object is removed only after its row has been rejected
or soft-deleted, or by the multipart upload that has not published it; so every published row still
has the object that was written for it.
-/
namespace NestjsFastify.Upload

section
variable {deployment : Deployment} {store after : Store} {handler other : Handler}
  {request : Request} {oracle : Oracle} {response : Response}

/-- A file is at a location of its own. -/
theorem Known.id_of_location {limits : UploadLimits} (wellFormed : WellFormed limits store)
    {first second : StoredFile} (firstKnown : Known store first) (secondKnown : Known store second)
    (same : first.location = second.location) : first.id = second.id := by
  obtain ⟨version, member, sameFirst⟩ := firstKnown
  obtain ⟨version', member', sameSecond⟩ := secondKnown
  have keys : version.key = version'.key :=
    (StoredFile.congr_identity (·.key) (fun _ => rfl) sameFirst).trans
      ((congrArg Location.key same).trans (StoredFile.congr_identity (·.key) (fun _ => rfl) sameSecond).symm)
  exact (StoredFile.congr_identity (·.id) (fun _ => rfl) sameFirst).symm.trans
    ((wellFormed.id_of_key member member' keys).trans (StoredFile.congr_identity (·.id) (fun _ => rfl) sameSecond))

theorem Known.published {limits : UploadLimits} (wellFormed : WellFormed limits store)
    {file : StoredFile} (known : Known store file) :
    isPublishedKey file.location.key = true := by
  obtain ⟨version, member, same⟩ := known
  exact StoredFile.congr_identity (fun file => file.location.key) (fun _ => rfl) same ▸ wellFormed.published member

/-- Nothing is at the location of a file that has no row yet. -/
theorem StoredFile.New.absent {limits : UploadLimits} (wellFormed : WellFormed limits store)
    {file : StoredFile} (new : file.New store) : store.objects file.location = none := by
  obtain ⟨extension, key⟩ := new.keyed
  by_contra present
  have published : isPublishedKey file.location.key = true := by
    simp [StoredFile.location, key]
  obtain ⟨version, member, same⟩ := wellFormed.objects _ published present
  obtain ⟨extension', key'⟩ := wellFormed.keyed version member
  have keys : version.key = file.key := congrArg Location.key same
  exact new.unused version member (publishedKey_fileId (key'.symm.trans (keys.trans key)))

/-! ## Written once -/

/-- The files that are to be written after a response had just got their rows, or come after the
one that was written. -/
theorem Handler.pending_of_resume (requested : handler.request deployment = some request)
    (performed : perform store request oracle = some (after, response)) {file : StoredFile}
    (member : file ∈ (handler.resume deployment response).pending) :
    (request = .createMany handler.unborn ∧ file ∈ handler.unborn ∧ response = .done) ∨
      ∃ written rest, handler.pending = written :: rest ∧ file ∈ rest ∧
        request.target = some written.location := by
  cases handler with
  | confirm handler =>
    obtain ⟨command, phase⟩ := handler
    have copies : ConfirmUpload.next deployment.limits command phase response = .copying file := by
      cases next : ConfirmUpload.next deployment.limits command phase response <;>
        simp [Handler.resume, Handler.pending, ConfirmUpload.resume, next,
          ConfirmPhase.pending] at member
      rw [member]
    rcases copying_of_next copies with ⟨rfl, rfl⟩ | ⟨rfl, notDone, notFailed⟩
    · exact .inl ⟨(Option.some.inj requested).symm, List.mem_cons_self, rfl⟩
    · obtain rfl := Option.some.inj requested
      rcases written_of_perform performed rfl with ⟨done, -⟩ | ⟨failure, failed⟩
      · exact absurd done notDone
      · exact absurd failed (notFailed failure)
  | uploadFiles handler =>
    obtain ⟨options, phase⟩ := handler
    rcases pending_of_next member with ⟨unborn, rfl⟩ | ⟨written, rest, pending, later, rfl⟩ |
        ⟨pending, notDone, notFailed⟩
    · cases phase with
      | creatingBatch prepared => exact .inl ⟨(Option.some.inj requested).symm, unborn, rfl⟩
      | _ => cases unborn
    · cases phase with
      | streaming prepared todo =>
        cases todo with
        | nil => cases pending
        | cons first todo =>
          obtain rfl := Option.some.inj requested
          obtain ⟨rfl, rfl⟩ := List.cons.inj pending
          exact .inr ⟨_, _, rfl, later, rfl⟩
      | _ => cases pending
    · cases phase with
      | streaming prepared todo =>
        cases todo with
        | nil => exact absurd rfl pending
        | cons first todo =>
          obtain rfl := Option.some.inj requested
          rcases written_of_perform performed rfl with ⟨done, -⟩ | ⟨failure, failed⟩
          · exact absurd done notDone
          · exact absurd failed (notFailed failure)
      | _ => exact absurd rfl pending
  | verify | reclaim | purge => cases member

/-- The ids of the files to be written are owned, each once. -/
theorem Handler.Assertion.pending_ids (assertion : handler.Assertion store) :
    (handler.pending.map (·.id)).Sublist handler.owned := by
  cases handler with
  | confirm handler =>
    obtain ⟨command, phase⟩ := handler
    cases phase <;> simp [Handler.pending, ConfirmPhase.pending, Handler.owned, ConfirmPhase.owned]
  | uploadFiles handler =>
    obtain ⟨options, phase⟩ := handler
    cases phase with
    | streaming prepared todo => exact assertion.pending.map _
    | _ => exact List.nil_sublist _
  | verify | reclaim | purge => exact List.nil_sublist _

/-- No object is at a location that is still to be written. -/
def unwrittenOutline : SharedService.Outline Store Handler where
  invariant _ := True
  assertion store handler := ∀ file ∈ handler.pending, store.objects file.location = none
  apart _ _ := True

theorem unwrittenOutline_sound (deployment : Deployment) :
    SharedService.Outline.Sound (uploadService deployment) (uploadOutline deployment) .none
      unwrittenOutline where
  initial _ _ := trivial
  symmetric _ _ _ := trivial
  spawned store handler wellFormed _ admitted := by
    obtain ⟨assertion, owned, -⟩ := Handler.assertion_of_admits wellFormed admitted
    refine ⟨fun file member => ?_, fun _ _ _ => trivial⟩
    have own := assertion.pending_ids.mem (List.mem_map_of_mem member)
    simp [owned] at own
  performed store handler request oracle after response wellFormed assertion _ _ _ unwritten
      requested performed _ := by
    refine ⟨trivial, fun file member => ?_⟩
    have effect := effect_of_perform performed
    rcases Handler.pending_of_resume requested performed member with ⟨rfl, unborn, -⟩ |
        ⟨written, rest, pending, later, targets⟩
    · rcases effect.object file.location with same | ⟨impossible, -⟩ | ⟨impossible, -⟩
      · rw [same]
        exact (assertion.unborn file unborn).absent wellFormed
      · exact nomatch impossible
      · exact nomatch impossible
    · have before : store.objects file.location = none :=
        unwritten file (by rw [pending]; exact List.mem_cons_of_mem _ later)
      rcases effect.object file.location with same | ⟨targets', -⟩ | ⟨-, absent⟩
      · rw [same, before]
      · -- the file written and the one to be written next have different ids
        have writtenMem : written ∈ handler.pending := pending ▸ List.mem_cons_self
        have fileMem : file ∈ handler.pending := pending ▸ List.mem_cons_of_mem _ later
        have sameId : written.id = file.id := Known.id_of_location wellFormed
          (assertion.known _ (assertion.pending.mem writtenMem))
          (assertion.known _ (assertion.pending.mem fileMem))
          (Option.some.inj (targets.symm.trans targets'))
        have distinct := assertion.pending_ids.nodup assertion.distinct
        rw [pending, List.map_cons, List.nodup_cons] at distinct
        exact absurd (sameId ▸ List.mem_map_of_mem later) distinct.1
      · exact absent
  undisturbed store handler request oracle after response other wellFormed assertion otherAssertion
      apart _ _ _ unwritten _ requested performed _ _ := by
    refine ⟨fun file member => ?_, trivial⟩
    rcases (effect_of_perform performed).object file.location with same | ⟨targets, -⟩ | ⟨-, absent⟩
    · rw [same]
      exact unwritten file member
    · obtain ⟨written, rest, pending, location⟩ := Handler.pending_of_request requested targets
      have writtenMem : written ∈ handler.pending := pending ▸ List.mem_cons_self
      have sameId : written.id = file.id := Known.id_of_location wellFormed
        (assertion.known _ (assertion.pending.mem writtenMem))
        (otherAssertion.known _ (otherAssertion.pending.mem member)) location.symm
      exact absurd (otherAssertion.pending_ids.mem (List.mem_map_of_mem member))
        (apart file.id (sameId ▸ assertion.pending_ids.mem (List.mem_map_of_mem writtenMem)))
    · exact absent
  external store event after wellFormed _ changed := by
    refine ⟨trivial, fun handler assertion unwritten file member => ?_⟩
    have known := assertion.known _ (assertion.pending.mem member)
    rw [external_object changed (known.published wellFormed)]
    exact unwritten file member

theorem unwrittenOutline_holds {world : UploadWorld}
    (reachable : (uploadService deployment).system.Reachable world) :
    unwrittenOutline.Holds world :=
  (unwrittenOutline_sound deployment).reachable (fun _ => uploadOutline_holds) reachable

/-- How a step changes the object at a published location. -/
inductive ObjectChange (world : UploadWorld) (location : Location) (after : UploadWorld) :
    UploadStep → Prop
  | kept {event : UploadStep}
      (same : after.shared.objects location = world.shared.objects location) :
      ObjectChange world location after event
  | written {process : Nat} {oracle : Oracle} {handler : Handler} {file : StoredFile}
      (running : world.processes process = .running handler)
      (pending : file ∈ handler.pending) (same : file.location = location)
      (absent : world.shared.objects location = none) :
      ObjectChange world location after (.advance process oracle)
  | removed {process : Nat} {oracle : Oracle} {handler : Handler}
      (running : world.processes process = .running handler)
      (removes : handler.Removes location) (absent : after.shared.objects location = none) :
      ObjectChange world location after (.advance process oracle)

section
variable {world final : UploadWorld} {event : UploadStep} {location : Location}
  {history : List (UploadWorld × UploadStep)}

theorem objectChange_of_step (reachable : (uploadService deployment).system.Reachable world)
    (taken : (uploadService deployment).system.step world event = some final)
    (published : isPublishedKey location.key = true) :
    ObjectChange world location final event := by
  cases SharedService.step_cases taken with
  | spawn | crash => exact .kept rfl
  | external changed => exact .kept (external_object changed published)
  | advance running requested performed =>
    rcases (effect_of_perform performed).object location with same | ⟨targets, -⟩ | ⟨rfl, absent⟩
    · exact .kept same
    · obtain ⟨file, rest, pending, rfl⟩ := Handler.pending_of_request requested targets
      have member := pending ▸ List.mem_cons_self
      exact .written running member rfl
        ((unwrittenOutline_holds reachable).assertion _ _ running file member)
    · exact .removed running (Handler.removes_of_request requested) absent

/-- The location belongs to a row, and no handler is to write its object any more. -/
structure Settled (location : Location) (world : UploadWorld) : Prop where
  known : ∃ version ∈ world.shared.versions, version.location = location
  written : ∀ process handler, world.processes process = .running handler →
    ∀ file ∈ handler.pending, file.location ≠ location

theorem settled_of_present (reachable : (uploadService deployment).system.Reachable world)
    (published : isPublishedKey location.key = true)
    (present : world.shared.objects location ≠ none) : Settled location world where
  known := (uploadOutline_holds reachable).invariant.objects location published present
  written process handler running file member same :=
    present (same ▸ (unwrittenOutline_holds reachable).assertion process handler running file member)

theorem Settled.step (settled : Settled location world)
    (reachable : (uploadService deployment).system.Reachable world)
    (taken : (uploadService deployment).system.step world event = some final) :
    Settled location final := by
  have holds := uploadOutline_holds reachable
  obtain ⟨version, recorded, located⟩ := settled.known
  cases SharedService.step_cases taken with
  | spawn absent admitted =>
    refine ⟨settled.known, fun process handler running file member => ?_⟩
    rcases SharedService.update_running running with ⟨-, same⟩ | ⟨-, old⟩
    · obtain rfl := SharedService.Process.running.inj same
      obtain ⟨assertion, owned, -⟩ := Handler.assertion_of_admits holds.invariant admitted
      have own := assertion.pending_ids.mem (List.mem_map_of_mem member)
      simp [owned] at own
    · exact settled.written process handler old file member
  | @advance _ _ phase request shared response was requested performed =>
    have assertion := holds.assertion _ _ was
    refine ⟨⟨version, (effect_of_perform performed).extends.versions _ recorded, located⟩,
      fun process handler running file member same => ?_⟩
    rcases SharedService.update_running running with ⟨-, here⟩ | ⟨-, old⟩
    · obtain rfl := SharedService.Process.running.inj here
      rcases Handler.pending_of_resume requested performed member with ⟨-, unborn, -⟩ |
          ⟨written, rest, pending, later, -⟩
      · obtain ⟨extension, key⟩ := (assertion.unborn file unborn).keyed
        obtain ⟨extension', key'⟩ := holds.invariant.keyed version recorded
        have keys : version.key = file.key := congrArg Location.key (located.trans same.symm)
        exact (assertion.unborn file unborn).unused version recorded
          (publishedKey_fileId (key'.symm.trans (keys.trans key)))
      · exact settled.written _ _ was file (pending ▸ List.mem_cons_of_mem _ later) same
    · exact settled.written process handler old file member same
  | crash was =>
    refine ⟨settled.known, fun process handler running => ?_⟩
    rcases SharedService.update_running running with ⟨-, same⟩ | ⟨-, old⟩
    · exact nomatch same
    · exact settled.written process handler old
  | external changed =>
    exact ⟨⟨version, (holds.invariant.external changed).2.versions _ recorded, located⟩,
      settled.written⟩

/-- A published location that held an object once is never written again. -/
theorem settled_of_run (run : (uploadService deployment).system.Run history world)
    {entry : UploadWorld × UploadStep} (member : entry ∈ history)
    (published : isPublishedKey location.key = true)
    (present : entry.1.shared.objects location ≠ none) : Settled location world :=
  run.stable (Settled location) (fun _ _ _ reachable settled => settled.step reachable) member
    (settled_of_present (run.reachable_of_mem member) published present)

/-- An object at a published location is never replaced by another one. -/
theorem object_unchanged (run : (uploadService deployment).system.Run history world)
    {entry : UploadWorld × UploadStep} (member : entry ∈ history)
    (published : isPublishedKey location.key = true) {first second : StoredObject}
    (before : entry.1.shared.objects location = some first)
    (now : world.shared.objects location = some second) : first = second := by
  have keeps : Settled location world ∧ (world.shared.objects location = some first ∨
      world.shared.objects location = none) := by
    refine run.stable (fun world => Settled location world ∧
      (world.shared.objects location = some first ∨ world.shared.objects location = none))
      (fun before event after reachable ⟨settled, objects⟩ taken =>
        ⟨settled.step reachable taken, ?_⟩) member
      ⟨settled_of_present (run.reachable_of_mem member) published (before ▸ Option.some_ne_none _),
        .inl before⟩
    cases objectChange_of_step reachable taken published with
    | kept same => rwa [same]
    | written running pending same =>
      exact absurd same (settled.written _ _ running _ pending)
    | removed running removes absent => exact .inr absent
  rcases keeps.2 with same | absent
  · exact Option.some.inj (same.symm.trans now)
  · exact nomatch absent.symm.trans now

end

end

end NestjsFastify.Upload
