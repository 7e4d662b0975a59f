import NestjsFastify.UploadSafety
import NestjsFastify.VerifyingRows

/-! # Quarantine of infected uploads

What a verification leaves behind when every scan reports the object as infected: the row is
REJECTED or gone, and so is the object, provided that a retry which finds its row already taken out
of VERIFYING gets to see that row.
-/
namespace NestjsFastify.Upload

/-- Every row at the location is REJECTED. -/
def AllRejected (store : Store) (location : Location) : Prop :=
  ∀ row ∈ store.rows, row.location = location → row.status = .rejected

/-- Nothing is left of an upload but rejected rows. -/
def Quarantined (store : Store) (location : Location) : Prop :=
  AllRejected store location ∧ store.objects location = none

/-- The lookup shows the row at the location as REJECTED, if there is anything to be deleted. -/
def Seen (store : Store) (location : Location) (oracle : Oracle) : Prop :=
  store.objects location ≠ none → ∀ row ∈ store.rows, row.location = location →
    match oracle with
    | .ok => row.deletedAt = none
    | .replica record => record.any (·.status = .rejected) = true
    | _ => True

/-- A scan of the object at the location reports it as infected. -/
def Handler.ScansInfected (location : Location) (handler : Handler) (oracle : Oracle) : Prop :=
  ∀ command content sizeBytes verdict, handler = .verify ⟨command, .scanning content sizeBytes⟩ →
    command.location = location → oracle = .scanned verdict → verdict = .infected

/-- A verification that has to look up the row at the location sees it. -/
def Handler.LooksUp (location : Location) (store : Store) (handler : Handler) (oracle : Oracle) :
    Prop :=
  ∀ command, handler = .verify ⟨command, .reloading⟩ → command.location = location →
    Seen store location oracle

/-- Every scan finds the object infected, and every lookup sees the row. -/
def quarantineDiscipline (location : Location) : SharedService.Discipline Store Handler Oracle where
  permits store handler oracle :=
    handler.ScansInfected location oracle ∧ handler.LooksUp location store oracle
  beside _ _ _ := True

/-- What a handler knows of a location whose row has been VERIFYING. -/
def Handler.Quarantines (location : Location) (store : Store) : Handler → Prop
  | .verify ⟨command, phase⟩ => command.location = location →
      match phase with
      | .flipping _ => False
      | .reloading => AllRejected store location
      | .returned _ => Quarantined store location
      | _ => True
  | .reclaim ⟨candidate, .deletingRow⟩ => candidate.location = location →
      Entered store location → store.objects location = none
  | .purge ⟨candidate, .deletingRow⟩ => candidate.location = location →
      Entered store location → store.objects location = none
  | _ => True

/-- A row that has been VERIFYING is VERIFYING or REJECTED, and its object goes before the row. -/
structure Condemned (location : Location) (store : Store) : Prop where
  status : ∀ row ∈ store.rows, row.location = location →
    row.status = .verifying ∨ row.status = .rejected
  gone : (∀ row ∈ store.rows, row.location ≠ location) → store.objects location = none

def quarantineOutline (location : Location) : SharedService.Outline Store Handler where
  invariant store := Entered store location → Condemned location store
  assertion store handler := handler.Quarantines location store
  apart _ _ := True

/-- What is known of every reachable world. -/
def verifyingOutline (deployment : Deployment) : SharedService.Outline Store Handler :=
  (uploadOutline deployment).and (dispatchedOutline.and settledOutline)

theorem verifyingOutline_holds {deployment : Deployment} {world : UploadWorld}
    (reachable : (uploadService deployment).system.Reachable world) :
    (verifyingOutline deployment).Holds world :=
  (uploadOutline_holds reachable).and
    ((dispatchedOutline_holds reachable).and (settledOutline_holds reachable))

section
variable {deployment : Deployment} {store after : Store} {handler other : Handler}
  {request : Request} {oracle : Oracle} {response : Response} {location : Location}

/-- A rejected row stays rejected until it is gone. -/
theorem AllRejected.perform (rejected : AllRejected store location)
    (wellFormed : WellFormed deployment.limits store) (assertion : handler.Assertion store)
    (entered : Entered store location) (requested : handler.request deployment = some request)
    (performed : perform store request oracle = some (after, response)) :
    AllRejected after location := by
  intro row member located
  rcases revised_of_perform wellFormed assertion entered requested performed member located with
    old | ⟨old, condition, data, oldMem, oldLocated, updates, selected, rfl⟩
  · exact rejected row old located
  · have wasRejected := rejected old oldMem oldLocated
    cases updates with
    | verified | confirmed | published =>
      exact nomatch wasRejected.symm.trans (Where.status_of_selects selected rfl)
    | rejected rejects | claimed rejects => simp [Data.apply, rejects]

theorem Quarantined.perform (quarantined : Quarantined store location)
    (wellFormed : WellFormed deployment.limits store) (assertion : handler.Assertion store)
    (settled : settledOutline.assertion store handler) (entered : Entered store location)
    (requested : handler.request deployment = some request)
    (performed : perform store request oracle = some (after, response)) :
    Quarantined after location :=
  ⟨quarantined.1.perform wellFormed assertion entered requested performed,
    absent_of_perform settled entered quarantined.2 requested performed⟩

/-- Rows with one key are at one location. -/
theorem WellFormed.location_of_key {limits : UploadLimits} (wellFormed : WellFormed limits store)
    {first second : StoredFileRow} (firstMem : first ∈ store.versions)
    (secondMem : second ∈ store.versions) (same : first.key = second.key) :
    first.location = second.location :=
  StoredFile.congr_identity (·.location) (fun _ => rfl) <|
    wellFormed.identity first firstMem second secondMem (wellFormed.id_of_key firstMem secondMem same)

/-- A version that was rejected condemns every row at its location. -/
theorem AllRejected.of_version {limits : UploadLimits} (wellFormed : WellFormed limits store)
    {version : StoredFileRow} (recorded : version ∈ store.versions)
    (same : version.key = location.key) (rejected : version.status = .rejected) :
    AllRejected store location := by
  intro row member located
  exact wellFormed.rejected version recorded rejected row member
    (wellFormed.id_of_key (wellFormed.recorded row member) recorded
      ((congrArg Location.key located).trans same.symm))

/-- A row that enters VERIFYING is neither rejected nor soft-deleted, so nothing is being deleted at
its location. -/
theorem entering_not_deleting {limits : UploadLimits} (wellFormed : WellFormed limits store)
    (assertion : handler.Assertion store) {row : StoredFileRow} (member : row ∈ store.rows)
    (located : row.location = location) (verifying : row.status = .verifying)
    (live : row.deletedAt = none) : handler.Quarantines location store ∨
      ∃ command phase, handler = .verify ⟨command, phase⟩ ∧ command.location = location := by
  subst located
  cases handler with
  | verify handler =>
    obtain ⟨command, phase⟩ := handler
    by_cases same : command.location = row.location
    · exact .inr ⟨command, phase, rfl, same⟩
    · exact .inl fun located => absurd located same
  | reclaim handler =>
    obtain ⟨candidate, phase⟩ := handler
    cases phase with
    | deletingRow =>
      refine .inl fun located _ => ?_
      obtain ⟨version, recorded, sameKey, rejected⟩ :=
        assertion.condemned candidate.key (by simp [Handler.condemned])
      have wasRejected := AllRejected.of_version wellFormed recorded
        (sameKey.trans (congrArg Location.key located)) rejected row member rfl
      cases verifying.symm.trans wasRejected
    | _ => exact .inl trivial
  | purge handler =>
    obtain ⟨candidate, phase⟩ := handler
    cases phase with
    | deletingRow =>
      refine .inl fun located _ => ?_
      obtain ⟨version, recorded, sameKey, deleted⟩ :=
        assertion.expired candidate.key List.mem_cons_self
      have wasDeleted := wellFormed.deleted version recorded deleted row member
        (wellFormed.id_of_key (wellFormed.recorded row member) recorded
          (show row.key = version.key from
            (congrArg Location.key located).symm.trans sameKey.symm))
      simp [live] at wasDeleted
    | _ => exact .inl trivial
  | confirm | uploadFiles => exact .inl trivial

/-! ## Steps of the verification -/

/-- The outcome of a lookup that sees the row: if something is left to be deleted, it is. -/
private theorem quarantined_of_lookup {command : UploadVerificationRequest}
    (wellFormed : WellFormed deployment.limits store) (entered : Entered store command.location)
    (condemned : Condemned command.location store) (rejected : AllRejected store command.location)
    (seen : Seen store command.location oracle) {record : Option StoredFile}
    (performed : perform store (.findFirst { key := some command.key, live := true }) oracle =
      some (after, .record record))
    (skipped : record.any (·.status = .rejected) = false) :
    after = store ∧ Quarantined store command.location := by
  have atKey : ∀ row ∈ store.rows, row.key = command.key → row.location = command.location := by
    intro row member sameKey
    obtain ⟨version, recorded, located, -⟩ := entered
    exact (wellFormed.location_of_key (wellFormed.recorded row member) recorded
      (sameKey.trans (congrArg Location.key located).symm)).trans located
  have absent : (∀ row ∈ store.rows, row.location = command.location →
      store.objects command.location ≠ none → False) → Quarantined store command.location := by
    intro never
    refine ⟨rejected, ?_⟩
    by_contra present
    refine present (condemned.gone fun row member located => never row member located present)
  cases oracle with
  | ok =>
    obtain ⟨rfl, answer⟩ := Prod.mk.inj (Option.some.inj performed)
    have answer := Response.record.inj answer
    refine ⟨rfl, absent fun row member located present => ?_⟩
    have live : row.deletedAt = none := seen present row member located
    have sameKey : row.key = command.key := congrArg Location.key located
    cases found : store.rows.find?
        ({ key := some command.key, live := true } : Where).selects with
    | none =>
      have notSelected := List.find?_eq_none.mp found row member
      simp [Where.selects, sameKey, live] at notSelected
    | some shown =>
      have shownMem := List.mem_of_find?_eq_some found
      have shownKey : shown.key = command.key :=
        Where.key_of_selects (List.find?_some found) rfl
      have shownRejected := rejected shown shownMem (atKey shown shownMem shownKey)
      rw [found] at answer
      simp [← answer, shownRejected] at skipped
  | replica shown =>
    simp only [perform] at performed
    split at performed
    · obtain ⟨rfl, answer⟩ := Prod.mk.inj (Option.some.inj performed)
      have answer := Response.record.inj answer
      refine ⟨rfl, absent fun row member located present => ?_⟩
      have shownRejected : shown.any (·.status = .rejected) = true :=
        seen present row member located
      cases shown with
      | none => cases shownRejected
      | some version =>
        rw [← answer] at skipped
        exact absurd (show version.status = .rejected by simpa using shownRejected)
          (by simpa using skipped)
    · simp at performed
  | _ => simp [perform] at performed

/-- The scanner's verdict is the oracle's. -/
private theorem scanned_of_perform {content : StoredObject} {sizeBytes : Option Nat}
    {verdict : MalwareScanner.MalwareScanResult}
    (performed : perform store (.scan content sizeBytes) oracle = some (after, .verdict verdict)) :
    oracle = .scanned verdict := by
  cases oracle with
  | scanned found =>
    obtain ⟨-, answer⟩ := Prod.mk.inj (Option.some.inj performed)
    rw [Response.verdict.inj answer]
  | _ => simp [perform, respond] at performed

private theorem looked_of_perform {condition : Where}
    (performed : perform store (.findFirst condition) oracle = some (after, response)) :
    (∃ record, response = .record record) ∨ ∃ failure, response = .failed failure := by
  cases perform_cases performed with
  | responded responded =>
    obtain ⟨-, rfl⟩ := Prod.mk.inj (Option.some.inj responded)
    exact .inl ⟨_, rfl⟩
  | replica => exact .inl ⟨_, rfl⟩
  | failed | failedApplied => exact .inr ⟨_, rfl⟩

/-- An update that counts no row has selected none. -/
private theorem unselected_of_perform {condition : Where} {data : Data}
    (performed : perform store (.updateMany condition data) oracle = some (after, .count 0)) :
    ∀ row ∈ store.rows, condition.selects row = false := by
  cases oracle with
  | ok =>
    obtain ⟨-, answer⟩ := Prod.mk.inj (Option.some.inj performed)
    intro row member
    by_contra selected
    have counted : 0 < RecordTable.updatedCount condition.selects store.rows :=
      RecordTable.updatedCount_pos_iff.mpr ⟨row, member, by simpa using selected⟩
    rw [Response.count.inj answer] at counted
    exact absurd counted (lt_irrefl 0)
  | _ => simp [perform] at performed

/-- What a response leaves of the assertion of a verification. -/
private theorem quarantine_resume {command : UploadVerificationRequest} {phase : VerifyPhase}
    (wellFormed : WellFormed deployment.limits store)
    (assertion : Handler.Assertion store (.verify ⟨command, phase⟩))
    (wellFormedAfter : WellFormed deployment.limits after)
    (entered : Entered store command.location) (condemned : Condemned command.location store)
    (own : Handler.Quarantines command.location store (.verify ⟨command, phase⟩))
    (requested : VerifyUpload.request deployment.limits ⟨command, phase⟩ = some request)
    (performed : perform store request oracle = some (after, response))
    (scans : Handler.ScansInfected command.location (.verify ⟨command, phase⟩) oracle)
    (looks : Handler.LooksUp command.location store (.verify ⟨command, phase⟩) oracle) :
    Handler.Quarantines command.location after
      (.verify ⟨command, VerifyUpload.next command phase response⟩) := by
  intro _
  have own := own rfl
  have requestedBy : Handler.request deployment (.verify ⟨command, phase⟩) = some request := requested
  cases next : VerifyUpload.next command phase response with
  | flipping verdict =>
    rcases VerifyUpload.origin_of_next next with rfl | ⟨content, sizeBytes, rfl, rfl, clean⟩
    · exact own
    · obtain rfl := Option.some.inj requested
      exact clean (scans _ _ _ verdict rfl rfl (scanned_of_perform performed))
  | reloading =>
    rcases VerifyUpload.origin_of_next next with ⟨reason, rfl, rfl⟩ | ⟨rfl, notShown, notFailed⟩
    · obtain rfl := Option.some.inj requested
      intro row member located
      rcases revised_of_perform wellFormed assertion entered requestedBy performed member located
        with old | ⟨old, condition, data, -, -, updates, -, rfl⟩
      · refine (condemned.status row old located).resolve_left fun verifying => ?_
        have unselected := unselected_of_perform performed row old
        have sameKey : row.key = command.key := congrArg Location.key located
        simp [Where.selects, sameKey, verifying] at unselected
      · cases updates with
        | rejected rejects => simp [Data.apply, rejects]
    · obtain rfl := Option.some.inj requested
      rcases looked_of_perform performed with ⟨record, shown⟩ | ⟨failure, failed⟩
      · exact absurd shown (notShown record)
      · exact absurd failed (notFailed failure)
  | returned outcome =>
    rcases VerifyUpload.origin_of_next next with rfl | ⟨verdict, rfl⟩ | ⟨rfl, rfl⟩ |
      ⟨rfl, record, rfl, skipped⟩
    · cases requested
    · exact own.elim
    · obtain rfl := Option.some.inj requested
      refine ⟨?_, removed_of_perform performed⟩
      obtain ⟨version, recorded, sameKey, rejected⟩ :=
        assertion.condemned command.key List.mem_cons_self
      exact .of_version wellFormedAfter
        ((effect_of_perform performed).extends.versions version recorded) sameKey rejected
    · obtain rfl := Option.some.inj requested
      obtain ⟨rfl, quarantined⟩ := quarantined_of_lookup wellFormed entered condemned own
        (looks command rfl rfl) performed skipped
      exact quarantined
  | _ => trivial

/-! ## The outline -/

/-- A verification works on a row that has been VERIFYING. -/
private theorem entered_of_verify {command : UploadVerificationRequest} {phase : VerifyPhase}
    (dispatched : dispatchedOutline.assertion store (.verify ⟨command, phase⟩)) :
    Entered store command.location :=
  dispatched.1 command List.mem_cons_self

/-- A row leaves VERIFYING only to be rejected, and its object is deleted before it. -/
private theorem Condemned.perform (condemned : Condemned location store)
    (wellFormed : WellFormed deployment.limits store) (assertion : handler.Assertion store)
    (settled : settledOutline.assertion store handler) (entered : Entered store location)
    (own : handler.Quarantines location store)
    (requested : handler.request deployment = some request)
    (performed : perform store request oracle = some (after, response)) :
    Condemned location after where
  status row member located := by
    rcases revised_of_perform wellFormed assertion entered requested performed member located with
      old | ⟨old, condition, data, oldMem, oldLocated, updates, selected, rfl⟩
    · exact condemned.status row old located
    · have was := condemned.status old oldMem oldLocated
      cases updates with
      | @verified command verdict =>
        -- a verification of this row does not get to the flip
        obtain ⟨version, recorded, same⟩ := assertion.verifies command List.mem_cons_self
        have sameKey : old.key = version.key := (Where.key_of_selects selected rfl).trans
          (congrArg UploadVerificationRequest.key same).symm
        have sameLocation := wellFormed.location_of_key (wellFormed.recorded old oldMem) recorded
          sameKey
        refine (own ?_).elim
        rw [← same, ← oldLocated, sameLocation]
        rfl
      | confirmed | published =>
        have finalizing : old.status = .finalizing := Where.status_of_selects selected rfl
        rcases was with verifying | rejected
        · exact nomatch finalizing.symm.trans verifying
        · exact nomatch finalizing.symm.trans rejected
      | rejected rejects | claimed rejects => exact .inr (by simp [Data.apply, rejects])
  gone none := by
    by_cases present : ∃ row ∈ store.rows, row.location = location
    · obtain ⟨row, member, located⟩ := present
      rcases (effect_of_perform performed).row_fate member with kept |
        ⟨condition, data, -, -, updated⟩ | ⟨condition, deletes, selected, -⟩
      · exact absurd located (none row kept)
      · exact (none _ updated located).elim
      · have status := condemned.status row member located
        have recorded := wellFormed.recorded row member
        have finalizing : row.status ≠ .finalizing := by
          rcases status with verifying | rejected
          · rw [verifying]; exact StoredFileStatus.noConfusion
          · rw [rejected]; exact StoredFileStatus.noConfusion
        have candidate : ∀ candidate ∈ handler.candidates, row.id = candidate.1 →
            candidate.2 = location := by
          intro candidate candidateMem sameId
          obtain ⟨version, versionMem, versionId, versionLocation⟩ :=
            assertion.candidates candidate candidateMem
          have same := wellFormed.identity version versionMem row recorded
            (versionId.trans sameId.symm)
          rw [← versionLocation, StoredFile.congr_identity (·.location) (fun _ => rfl) same, located]
        refine absent_of_perform settled entered ?_ requested performed
        cases Handler.deletes_of_request requested deletes with
        | compensated | cleaned => exact absurd (Where.status_of_selects selected rfl) finalizing
        | reclaimed =>
          exact own (candidate _ List.mem_cons_self (Where.id_of_selects selected rfl)) entered
        | purged =>
          exact own (candidate _ List.mem_cons_self (Where.id_of_selects selected rfl)) entered
    · exact absent_of_perform settled entered
        (condemned.gone fun row member located => present ⟨row, member, located⟩) requested performed

/-- A location whose row enters VERIFYING holds that row. -/
private theorem Condemned.entering {limits : UploadLimits} (wellFormed : WellFormed limits store)
    {row : StoredFileRow} (member : row ∈ store.rows) (located : row.location = location)
    (verifying : row.status = .verifying) : Condemned location store where
  status other otherMem otherLocated := by
    have same := WellFormed.row_eq wellFormed.unique otherMem member
      (wellFormed.id_of_location (wellFormed.recorded other otherMem)
        (wellFormed.recorded row member) (otherLocated.trans located.symm))
    exact .inl (same ▸ verifying)
  gone none := absurd located (none row member)

private theorem quarantines_of_resume (wellFormed : WellFormed deployment.limits store)
    (assertion : handler.Assertion store)
    (dispatched : dispatchedOutline.assertion store handler)
    (wellFormedAfter : WellFormed deployment.limits after)
    (condemned : Entered store location → Condemned location store)
    (own : handler.Quarantines location store)
    (requested : handler.request deployment = some request)
    (performed : perform store request oracle = some (after, response))
    (permitted : (quarantineDiscipline location).permits store handler oracle) :
    (handler.resume deployment response).Quarantines location after := by
  cases handler with
  | confirm | uploadFiles => trivial
  | verify handler =>
    obtain ⟨command, phase⟩ := handler
    intro located
    subst located
    have entered := entered_of_verify dispatched
    exact quarantine_resume wellFormed assertion wellFormedAfter entered (condemned entered) own
      requested
      performed permitted.1 permitted.2 rfl
  | reclaim handler =>
    obtain ⟨candidate, phase⟩ := handler
    cases next : Reclaim.next phase response with
    | deletingRow =>
      simp only [Handler.resume, Reclaim.resume, next]
      rintro rfl -
      rcases Reclaim.deletingRow_of_next next with ⟨rfl, rfl⟩ | ⟨rfl, notCounted, notFailed⟩
      · obtain rfl := Option.some.inj requested
        exact removed_of_perform performed
      · obtain rfl := Option.some.inj requested
        rcases deleted_of_perform performed rfl with ⟨count, counted⟩ | ⟨failure, failed⟩
        · exact absurd counted (notCounted count)
        · exact absurd failed (notFailed failure)
    | _ => simp only [Handler.resume, Reclaim.resume, next]; trivial
  | purge handler =>
    obtain ⟨candidate, phase⟩ := handler
    cases next : Purge.next phase response with
    | deletingRow =>
      simp only [Handler.resume, Purge.resume, next]
      rintro rfl -
      rcases Purge.deletingRow_of_next next with ⟨rfl, rfl⟩ | ⟨rfl, notCounted, notFailed⟩
      · obtain rfl := Option.some.inj requested
        exact removed_of_perform performed
      · obtain rfl := Option.some.inj requested
        rcases deleted_of_perform performed rfl with ⟨count, counted⟩ | ⟨failure, failed⟩
        · exact absurd counted (notCounted count)
        · exact absurd failed (notFailed failure)
    | _ => simp only [Handler.resume, Purge.resume, next]; trivial

private theorem quarantines_of_other (wellFormed : WellFormed deployment.limits store)
    (assertion : handler.Assertion store) (settled : settledOutline.assertion store handler)
    (wellFormedAfter : WellFormed deployment.limits after) (otherAssertion : other.Assertion after)
    (dispatched : dispatchedOutline.assertion store other)
    (quarantines : other.Quarantines location store)
    (requested : handler.request deployment = some request)
    (performed : perform store request oracle = some (after, response)) :
    other.Quarantines location after := by
  -- nothing is being deleted at a location whose row is only now VERIFYING
  have deleting : Entered after location → (Entered store location → store.objects location = none) →
      ¬other.Quarantines location after → (∀ command phase, other ≠ .verify ⟨command, phase⟩) →
      after.objects location = none := by
    intro entered absent not notVerify
    rcases entered_of_perform wellFormed assertion requested performed entered with was |
      ⟨row, member, located, verifying, live⟩
    · exact absent_of_perform settled was (absent was) requested performed
    · rcases entering_not_deleting wellFormedAfter otherAssertion member located verifying live with
        still | ⟨command, phase, same, -⟩
      · exact absurd still not
      · exact absurd same (notVerify command phase)
  cases other with
  | confirm | uploadFiles => trivial
  | verify other =>
    obtain ⟨command, phase⟩ := other
    intro located
    subst located
    have entered := entered_of_verify dispatched
    have own := quarantines rfl
    cases phase with
    | flipping => exact own
    | reloading => exact own.perform wellFormed assertion entered requested performed
    | returned => exact own.perform wellFormed assertion settled entered requested performed
    | _ => trivial
  | reclaim other =>
    obtain ⟨candidate, phase⟩ := other
    cases phase with
    | deletingRow =>
      by_contra not
      exact not fun located entered => deleting entered (quarantines located) not
        fun _ _ => Handler.noConfusion
    | _ => trivial
  | purge other =>
    obtain ⟨candidate, phase⟩ := other
    cases phase with
    | deletingRow =>
      by_contra not
      exact not fun located entered => deleting entered (quarantines located) not
        fun _ _ => Handler.noConfusion
    | _ => trivial

theorem quarantineOutline_sound (deployment : Deployment) (location : Location) :
    SharedService.Outline.Sound (uploadService deployment) (verifyingOutline deployment)
      (quarantineDiscipline location) (quarantineOutline location) where
  initial store initial entered := by
    obtain ⟨version, recorded, -⟩ := entered
    simp [initial.2.1] at recorded
  symmetric _ _ _ := trivial
  spawned store handler _ _ admitted := by
    refine ⟨?_, fun _ _ _ => trivial⟩
    cases handler with
    | confirm | uploadFiles => trivial
    | verify handler =>
      simp only [uploadService, admits, Bool.and_eq_true, decide_eq_true_eq] at admitted
      rw [admitted.1]
      intro _
      trivial
    | reclaim handler =>
      simp only [uploadService, admits, Bool.and_eq_true, decide_eq_true_eq] at admitted
      rw [admitted.1]
      simp only [Reclaim.start]
      split <;> trivial
    | purge handler =>
      simp only [uploadService, admits, Bool.and_eq_true, decide_eq_true_eq] at admitted
      rw [admitted.1]
      trivial
  performed store handler request oracle after response known ownKnown knownAfter _ condemned own
      requested performed permitted := by
    obtain ⟨wellFormed, -⟩ := known
    obtain ⟨assertion, dispatched, settled⟩ := ownKnown
    refine ⟨fun entered => ?_, quarantines_of_resume wellFormed assertion dispatched knownAfter.1
      condemned own requested performed permitted⟩
    by_cases was : Entered store location
    · exact (condemned was).perform wellFormed assertion settled was own requested performed
    · obtain ⟨row, member, located, verifying, -⟩ :=
        (entered_of_perform wellFormed assertion requested performed entered).resolve_left was
      exact .entering knownAfter.1 member located verifying
  undisturbed store handler request oracle after response other known ownKnown otherKnown _
      otherAfter _ _ quarantines _ requested performed _ _ := by
    obtain ⟨wellFormed, -⟩ := known
    obtain ⟨assertion, -, settled⟩ := ownKnown
    have wellFormedAfter := wellFormed.effect (assertion.lawful requested)
      (effect_of_perform performed)
    exact ⟨quarantines_of_other wellFormed assertion settled wellFormedAfter otherAfter.1
      otherKnown.2.1 quarantines requested performed, trivial⟩
  external store event after known condemned changed := by
    obtain ⟨wellFormed, -⟩ := known
    have rejected : AllRejected store location → AllRejected after location := by
      intro rejected row member located
      obtain ⟨old, oldMem, same, -⟩ := external_row changed member
      exact (congrArg StoredFile.status same).trans
        (rejected old oldMem ((congrArg StoredFile.location same).symm.trans located))
    have objects : Entered store location → after.objects location = store.objects location :=
      fun entered => external_object changed (entered.published wellFormed)
    refine ⟨fun entered => ?_, fun handler ownKnown quarantines => ?_⟩
    · have was := entered_of_external wellFormed changed entered
      refine ⟨fun row member located => ?_, fun none => ?_⟩
      · obtain ⟨old, oldMem, same, -⟩ := external_row changed member
        have status : row.status = old.status := congrArg StoredFile.status same
        rw [status]
        exact (condemned was).status old oldMem
          ((congrArg StoredFile.location same).symm.trans located)
      · rw [objects was]
        refine (condemned was).gone fun row member located => ?_
        obtain ⟨kept, keptMem, same⟩ := external_kept changed member
        exact none kept keptMem ((congrArg StoredFile.location same).trans located)
    · cases handler with
      | confirm | uploadFiles => trivial
      | verify handler =>
        obtain ⟨command, phase⟩ := handler
        intro located
        subst located
        have own := quarantines rfl
        cases phase with
        | flipping => exact own
        | reloading => exact rejected own
        | returned => exact ⟨rejected own.1, (objects (entered_of_verify ownKnown.2.1)).trans own.2⟩
        | _ => trivial
      | reclaim handler =>
        obtain ⟨candidate, phase⟩ := handler
        cases phase with
        | deletingRow =>
          intro located entered
          have was := entered_of_external wellFormed changed entered
          exact (objects was).trans (quarantines located was)
        | _ => trivial
      | purge handler =>
        obtain ⟨candidate, phase⟩ := handler
        cases phase with
        | deletingRow =>
          intro located entered
          have was := entered_of_external wellFormed changed entered
          exact (objects was).trans (quarantines located was)
        | _ => trivial

end

/-! ## Quarantine completeness -/

/-- Every scan that a verification job of the row has got reports the object as infected. -/
def InfectedEachTime (version : StoredFileRow) (world : UploadWorld) : UploadStep → Prop
  | .advance process (.scanned verdict) => ∀ command content sizeBytes,
      world.processes process = .running (.verify ⟨command, .scanning content sizeBytes⟩) →
      command.key = version.key → verdict = .infected
  | _ => True

/-- A job of the row that looks it up because there was none to be rejected sees it: while object
and row are there, the row is not soft-deleted, and a replica shows it as REJECTED. -/
def RetrySees (version : StoredFileRow) (world : UploadWorld) : UploadStep → Prop
  | .advance process oracle => ∀ command,
      world.processes process = .running (.verify ⟨command, .reloading⟩) →
      command.key = version.key → Seen world.shared version.location oracle
  | _ => True

/-- When a job of the row has ended without an error, the row is REJECTED or gone and so is its
object. -/
def QuarantineComplete (version : StoredFileRow) (world : UploadWorld) : Prop :=
  ∀ process command outcome,
    world.processes process = .running (.verify ⟨command, .returned outcome⟩) →
    command.key = version.key →
    (∀ row ∈ world.shared.rows, row.id = version.id → row.status = .rejected) ∧
      world.shared.objects version.location = none

section
variable {deployment : Deployment} {history : UploadHistory} {world : UploadWorld}
  {version : StoredFileRow}

/-- In every run in which all scans find the object infected and all retries see the row. -/
theorem quarantineComplete_of_run (run : (uploadService deployment).system.Run history world)
    (recorded : version ∈ world.shared.versions)
    (infected : TransitionSystem.Guarded (InfectedEachTime version) history)
    (sees : TransitionSystem.Guarded (RetrySees version) history) :
    QuarantineComplete version world := by
  have follows : TransitionSystem.Guarded
      (quarantineDiscipline version.location).Follows history := by
    rintro ⟨before, event⟩ member
    cases event with
    | advance process oracle =>
      intro handler running
      refine ⟨⟨?_, ?_⟩, fun _ _ _ _ => trivial⟩
      · rintro command content sizeBytes verdict rfl located rfl
        exact infected _ member command content sizeBytes running (congrArg Location.key located)
      · rintro command rfl located
        exact located ▸ sees _ member command running (congrArg Location.key located)
    | spawn | crash | external => trivial
  have holds := (quarantineOutline_sound deployment version.location).holds
    (fun _ => verifyingOutline_holds) run follows
  have known := uploadOutline_holds ⟨history, run⟩
  intro process command outcome running sameKey
  obtain ⟨job, jobMem, same⟩ :=
    (known.assertion process _ running).verifies command List.mem_cons_self
  have sameLocation : command.location = version.location := by
    rw [← same]
    exact known.invariant.location_of_key jobMem recorded
      ((congrArg UploadVerificationRequest.key same).trans sameKey)
  obtain ⟨rejected, absent⟩ := holds.assertion process _ running sameLocation
  refine ⟨fun row member sameId => rejected row member ?_, absent⟩
  exact StoredFile.congr_identity (·.location) (fun _ => rfl)
    (known.invariant.identity row (known.invariant.recorded row member) version recorded sameId)

end

/-! ## Runs -/

def sampleJob : UploadVerificationRequest where
  key := publishedKey sampleUser sampleFile ".png"
  bucket := "uploads"
  declaredContentType := "image/png"

/-- The first verification of the sample upload rejects the row, and its deletion of the object
fails. -/
def failedQuarantine : List UploadStep :=
  verifiedUpload.take 10 ++ [.spawn 1 (.verify (VerifyUpload.start sampleJob)), .advance 1 .ok,
    .advance 1 .ok, .advance 1 .ok, .advance 1 (.scanned .infected), .advance 1 .ok,
    .advance 1 (.failed false)]

/-- The retry scans the object again and finds the row already taken. -/
def retriedQuarantine : List UploadStep :=
  [.spawn 2 (.verify (VerifyUpload.start sampleJob)), .advance 2 .ok, .advance 2 .ok,
    .advance 2 .ok, .advance 2 (.scanned .infected), .advance 2 .ok, .advance 2 .ok]

/-- A test for runs in which scans find the object infected and no row is soft-deleted. -/
def quarantineCheck (live : Bool) (world : UploadWorld) : UploadStep → Bool
  | .advance _ (.scanned verdict) => verdict = .infected
  | .advance _ (.replica _) => false
  | .advance _ _ => !live || world.shared.rows.all (·.deletedAt = none)
  | _ => true

theorem infectedEachTime_of_check {live : Bool} {version : StoredFileRow} {world : UploadWorld}
    {event : UploadStep} (passes : quarantineCheck live world event = true) :
    InfectedEachTime version world event := by
  fun_cases InfectedEachTime version world event
  · intro _ _ _ _ _
    simpa [quarantineCheck] using passes
  · trivial

theorem retrySees_of_check {version : StoredFileRow} {world : UploadWorld} {event : UploadStep}
    (passes : quarantineCheck true world event = true) : RetrySees version world event := by
  cases event with
  | advance process oracle =>
    intro command running sameKey present row member located
    cases oracle with
    | ok =>
      simp only [quarantineCheck, Bool.not_true, Bool.false_or, List.all_eq_true,
        decide_eq_true_eq] at passes
      exact passes row member
    | replica => exact nomatch passes
    | _ => trivial
  | _ => trivial

/-- The retry deletes the object when the row is still there. -/
theorem quarantineComplete_retried :
    ∃ history world version, (uploadService sampleDeployment).system.Run history world ∧
      version ∈ world.shared.versions ∧ version.status = .verifying ∧
      world.processes 2 = .running (.verify ⟨sampleJob, .returned .rejected⟩) ∧
      QuarantineComplete version world := by
  obtain ⟨history, world, run, guarded, -, passed⟩ :=
    TransitionSystem.run_of_execute (fun world event => quarantineCheck true world event = true)
      (fun _ _ => id) (failedQuarantine ++ retriedQuarantine ++ [.advance 2 .ok])
      (fun world => world.processes 2 = .running (.verify ⟨sampleJob, .returned .rejected⟩) &&
        world.shared.versions.any (·.status = .verifying))
      (emptyStore_initial sampleDeployment)
      (show ((uploadService sampleDeployment).system.execute (quarantineCheck true) _ _).any _ = true by
        decide +kernel)
  simp only [Bool.and_eq_true, decide_eq_true_eq, List.any_eq_true] at passed
  obtain ⟨ended, version, recorded, verifying⟩ := passed
  exact ⟨history, world, version, run, recorded, verifying, ended, quarantineComplete_of_run run recorded
    (fun entry member => infectedEachTime_of_check (guarded entry member))
    (fun entry member => retrySees_of_check (guarded entry member))⟩

/-- When the owner soft-deletes the file after the failed deletion, the retry ends without an error
and leaves the infected object in the storage. -/
theorem infected_object_left :
    ∃ history world version, (uploadService sampleDeployment).system.Run history world ∧
      version ∈ world.shared.versions ∧ version.status = .verifying ∧
      TransitionSystem.Guarded (InfectedEachTime version) history ∧
      ¬QuarantineComplete version world := by
  obtain ⟨history, world, run, guarded, -, passed⟩ :=
    TransitionSystem.run_of_execute (fun world event => quarantineCheck false world event = true)
      (fun _ _ => id) (failedQuarantine ++ [.external (.softDelete sampleFile)] ++ retriedQuarantine)
      (fun world => world.processes 2 = .running (.verify ⟨sampleJob, .returned .skipped⟩) &&
        world.shared.versions.any fun version => version.status = .verifying &&
          version.key = sampleJob.key && (world.shared.objects version.location).isSome)
      (emptyStore_initial sampleDeployment)
      (show ((uploadService sampleDeployment).system.execute (quarantineCheck false) _ _).any _ = true by
        decide +kernel)
  simp only [Bool.and_eq_true, decide_eq_true_eq, List.any_eq_true] at passed
  obtain ⟨ended, version, recorded, ⟨verifying, sameKey⟩, present⟩ := passed
  refine ⟨history, world, version, run, recorded, verifying,
    fun entry member => infectedEachTime_of_check (guarded entry member), fun complete => ?_⟩
  have absent := (complete 2 sampleJob .skipped ended sameKey.symm).2
  simp [absent] at present

end NestjsFastify.Upload
