import NestjsFastify.Terms

/-! # What stays of a term

A term is never changed but by its first publication, and never lost.  Whoever publishes it is told
the one date that is stored, however many replicas publish at once, and nobody accepts a draft.
-/
namespace NestjsFastify.Terms

/-! ### How a term changes -/

/-- The later row is the earlier one, published in the meantime perhaps. -/
structure Term.Becomes (earlier later : Term) : Prop where
  id : later.id = earlier.id
  type : later.type = earlier.type
  version : later.version = earlier.version
  content : later.content = earlier.content
  createdAt : later.createdAt = earlier.createdAt
  publishedAt : ∀ date ∈ earlier.publishedAt, later.publishedAt = some date

section Becomes
variable {first second third : Term}

theorem Term.Becomes.refl (term : Term) : term.Becomes term :=
  ⟨rfl, rfl, rfl, rfl, rfl, fun _ same => same⟩

theorem Term.Becomes.trans (early : first.Becomes second) (late : second.Becomes third) :
    first.Becomes third where
  id := late.id.trans early.id
  type := late.type.trans early.type
  version := late.version.trans early.version
  content := late.content.trans early.content
  createdAt := late.createdAt.trans early.createdAt
  publishedAt date same := late.publishedAt date (early.publishedAt date same)

theorem Term.Becomes.isPublished (becomes : first.Becomes second)
    (published : first.isPublished = true) : second.isPublished = true := by
  obtain ⟨date, same⟩ := Option.isSome_iff_exists.mp published
  rw [Term.isPublished, becomes.publishedAt date same]
  rfl

/-- A published term is shown as it is for good. -/
theorem Term.Becomes.toTermDto_eq (becomes : first.Becomes second)
    (published : first.isPublished = true) : toTermDto second = toTermDto first := by
  obtain ⟨date, same⟩ := Option.isSome_iff_exists.mp published
  simp only [toTermDto, becomes.id, becomes.type, becomes.version, becomes.content,
    becomes.createdAt, becomes.publishedAt date same, same]

/-- The publication of a draft is one of the changes. -/
theorem becomes_of_draft {id : String} (draft : draftOf id first = true) (date now : Int) :
    first.Becomes { first with publishedAt := some date, updatedAt := now } where
  id := rfl
  type := rfl
  version := rfl
  content := rfl
  createdAt := rfl
  publishedAt earlier same := by
    rw [draftOf, Bool.and_eq_true, Option.isNone_iff_eq_none] at draft
    rw [draft.2] at same
    cases same

end Becomes

/-- Every term of the one database is in the other, as it has become. -/
def Grows (before after : TermDatabase) : Prop :=
  ∀ term ∈ before.terms, ∃ later ∈ after.terms, term.Becomes later

theorem Grows.refl (database : TermDatabase) : Grows database database :=
  fun term member => ⟨term, member, .refl term⟩

theorem Grows.trans {first second third : TermDatabase} (early : Grows first second)
    (late : Grows second third) : Grows first third := by
  intro term member
  obtain ⟨between, member, becomes⟩ := early term member
  obtain ⟨later, member, becomes'⟩ := late between member
  exact ⟨later, member, becomes.trans becomes'⟩

/-! ### What one request does -/

section Requests
variable {database after : TermDatabase} {request : TermRequest} {response : TermResponse}
  {oracle : TermOracle} {now : Int}

theorem grows_executeTerm : Grows database (executeTerm database now request).1 := by
  cases request with
  | create term =>
    simp only [executeTerm]
    split
    · intro other member
      exact ⟨other, (RecordTable.mem_insertMany ‹_›).mpr (.inl member), .refl other⟩
    · exact .refl database
  | findById => exact .refl database
  | publish id date =>
    intro term member
    by_cases draft : draftOf id term = true
    · refine ⟨_, RecordTable.mem_updateMany.mpr ⟨term, member, rfl⟩, ?_⟩
      rw [if_pos draft]
      exact becomes_of_draft draft date now
    · refine ⟨_, RecordTable.mem_updateMany.mpr ⟨term, member, rfl⟩, ?_⟩
      rw [if_neg draft]
      exact .refl term
  | recordAcceptance acceptance =>
    simp only [executeTerm]
    split_ifs <;> exact .refl database

theorem grows_performTerm
    (performed : performTerm database request oracle = some (after, response)) :
    Grows database after := by
  rcases SharedService.Course.apply_state (Option.some.inj performed) with rfl | ⟨-, rfl⟩
  · exact .refl after
  · exact grows_executeTerm

/-- A request takes no acceptance away and changes none. -/
theorem acceptances_performTerm
    (performed : performTerm database request oracle = some (after, response))
    {acceptance : TermAcceptance} (member : acceptance ∈ database.acceptances) :
    acceptance ∈ after.acceptances := by
  have executed : acceptance ∈ (executeTerm database oracle.now request).1.acceptances := by
    cases request with
    | create term =>
      simp only [executeTerm]
      split <;> exact member
    | findById => exact member
    | publish => exact member
    | recordAcceptance other =>
      simp only [executeTerm]
      split_ifs
      · exact member
      · exact List.mem_cons_of_mem _ member
      · exact member
  rcases SharedService.Course.apply_state (Option.some.inj performed) with rfl | ⟨-, rfl⟩
  · exact member
  · exact executed

end Requests

/-! ### What the tables keep -/

/-- The tables keep their keys, and nobody has accepted a draft. -/
structure TermDatabase.Kept (database : TermDatabase) : Prop where
  unique : RecordTable.Unique Term.conflicts database.terms
  versions : ∀ term ∈ database.terms, isVersion term.version = true
  once : RecordTable.Unique TermAcceptance.conflicts database.acceptances
  published : ∀ acceptance ∈ database.acceptances,
    ∃ term ∈ database.terms, term.id = acceptance.termId ∧ term.isPublished = true
  users : ∀ acceptance ∈ database.acceptances, acceptance.userId ∈ database.users

/-- What the handlers check before they send a request. -/
def TermRequest.Lawful (database : TermDatabase) : TermRequest → Prop
  | .create term => isVersion term.version = true
  | .recordAcceptance acceptance =>
      ∃ term ∈ database.terms, term.id = acceptance.termId ∧ term.isPublished = true
  | _ => True

section Kept
variable {database after : TermDatabase} {request : TermRequest} {response : TermResponse}
  {oracle : TermOracle} {now : Int}

theorem TermAcceptance.conflicts_comm (first second : TermAcceptance) :
    first.conflicts second = second.conflicts first := by
  simp only [TermAcceptance.conflicts, eq_comm]

theorem Term.conflicts_comm (first second : Term) :
    first.conflicts second = second.conflicts first := by
  simp only [Term.conflicts, eq_comm]

/-- A published term stays one that can be accepted. -/
theorem Grows.published (grows : Grows database after) {id : String}
    (published : ∃ term ∈ database.terms, term.id = id ∧ term.isPublished = true) :
    ∃ term ∈ after.terms, term.id = id ∧ term.isPublished = true := by
  obtain ⟨term, member, rfl, published⟩ := published
  obtain ⟨later, member, becomes⟩ := grows term member
  exact ⟨later, member, becomes.id, becomes.isPublished published⟩

theorem kept_executeTerm (kept : database.Kept) (lawful : request.Lawful database) :
    (executeTerm database now request).1.Kept := by
  have published : ∀ acceptance ∈ database.acceptances,
      ∃ term ∈ (executeTerm database now request).1.terms,
        term.id = acceptance.termId ∧ term.isPublished = true :=
    fun acceptance member => grows_executeTerm.published (kept.published acceptance member)
  cases request with
  | create term =>
    simp only [executeTerm] at published ⊢
    split
    · rename_i terms inserted
      rw [inserted] at published
      refine ⟨kept.unique.insertMany inserted, ?_, kept.once, published, kept.users⟩
      intro other member
      rcases (RecordTable.mem_insertMany inserted).mp member with old | new
      · exact kept.versions other old
      · obtain rfl := List.mem_singleton.mp new
        exact lawful
    · exact kept
  | findById => exact kept
  | publish id date =>
    refine ⟨?_, ?_, kept.once, published, kept.users⟩
    · apply kept.unique.updateMany
      intro first second
      split_ifs <;> rfl
    · intro term member
      obtain ⟨old, own, rfl⟩ := RecordTable.mem_updateMany.mp member
      split_ifs <;> exact kept.versions old own
  | recordAcceptance acceptance =>
    simp only [executeTerm]
    split_ifs with there stored
    · exact kept
    · rw [Bool.and_eq_true] at stored
      refine ⟨kept.unique, kept.versions, RecordTable.unique_cons.mpr ⟨?_, kept.once⟩, ?_, ?_⟩
      · rw [Bool.not_eq_true] at there
        rw [← there]
        congr 1
        funext other
        exact TermAcceptance.conflicts_comm other acceptance
      · exact List.forall_mem_cons.mpr ⟨lawful, kept.published⟩
      · exact List.forall_mem_cons.mpr ⟨by simpa using stored.2, kept.users⟩
    · exact kept

theorem kept_performTerm (kept : database.Kept) (lawful : request.Lawful database)
    (performed : performTerm database request oracle = some (after, response)) : after.Kept := by
  rcases SharedService.Course.apply_state (Option.some.inj performed) with rfl | ⟨-, rfl⟩
  · exact kept
  · exact kept_executeTerm kept lawful

theorem kept_happen (kept : database.Kept) (event : UserEvent) : (database.happen event).Kept := by
  cases event with
  | register userId =>
    exact { kept with
      users := fun acceptance member => List.mem_cons_of_mem _ (kept.users acceptance member) }
  | delete userId =>
    refine ⟨kept.unique, kept.versions, kept.once.deleteMany, ?_, ?_⟩
    · intro acceptance member
      exact kept.published acceptance (RecordTable.mem_deleteMany.mp member).1
    · intro acceptance member
      obtain ⟨own, other⟩ := RecordTable.mem_deleteMany.mp member
      apply List.mem_filter.mpr
      exact ⟨kept.users acceptance own, by simpa using other⟩

end Kept

/-! ### What the handlers know -/

/-- The database has the term, as it has become. -/
def Stored (database : TermDatabase) (term : Term) : Prop :=
  ∃ later ∈ database.terms, term.Becomes later

/-- The database has a published term of the id. -/
def Published (database : TermDatabase) (id : String) : Prop :=
  ∃ term ∈ database.terms, term.id = id ∧ term.isPublished = true

/-- What a handler may rely on, whatever the others do in the meantime. -/
def TermPhase.Knows (database : TermDatabase) : TermPhase → Prop
  | publishing existing _ => existing.isPublished = false ∧ Stored database existing
  | refetching existing => Published database existing.id
  | recording command term _ => term.id = command.termId ∧ Published database term.id
  | created dto => ∃ term, toTermDto term = dto ∧ Stored database term
  | published dto =>
      ∃ term ∈ database.terms, term.isPublished = true ∧ toTermDto term = dto
  | _ => True

section Knows
variable {database after : TermDatabase} {phase : TermPhase} {request : TermRequest}
  {response : TermResponse} {oracle : TermOracle}

theorem Stored.mono {term : Term} (stored : Stored database term)
    (grows : Grows database after) : Stored after term := by
  obtain ⟨later, member, becomes⟩ := stored
  obtain ⟨latest, member, becomes'⟩ := grows later member
  exact ⟨latest, member, becomes.trans becomes'⟩

theorem TermPhase.Knows.mono (knows : phase.Knows database) (grows : Grows database after) :
    phase.Knows after := by
  cases phase with
  | publishing existing now => exact ⟨knows.1, knows.2.mono grows⟩
  | refetching existing => exact grows.published knows
  | recording command term now => exact ⟨knows.1, grows.published knows.2⟩
  | created dto =>
    obtain ⟨term, same, stored⟩ := knows
    exact ⟨term, same, stored.mono grows⟩
  | published dto =>
    obtain ⟨term, member, published, rfl⟩ := knows
    obtain ⟨later, member, becomes⟩ := grows term member
    exact ⟨later, member, becomes.isPublished published, becomes.toTermDto_eq published⟩
  | create | publish | accept | accepted | failed => trivial

theorem TermPhase.knows_of_isStart (start : phase.isStart = true) : phase.Knows database := by
  cases phase with
  | create | publish | accept => trivial
  | publishing | refetching | recording | created | published | accepted | failed => cases start

theorem isVersion_of_create {command : CreateTermCommand} {id : String}
    {publishedAt : Option Int} {now : Int} {term : Term}
    (made : Term.create command id publishedAt now = .ok term) :
    isVersion term.version = true := by
  unfold Term.create assertVersion at made
  split_ifs at made with valid
  · obtain rfl := Except.ok.inj made
    exact valid
  · cases made

/-- A creation asks for the term that it has made. -/
theorem eq_create_of_request {command : CreateTermCommand} {id : String} {asked now : Int}
    (requested : (TermPhase.create command id asked now).request = some request) :
    ∃ term, TermPhase.newTerm command id asked now = .ok term ∧ request = .create term := by
  obtain ⟨term, made, rfl⟩ := Option.map_eq_some_iff.mp requested
  refine ⟨term, ?_, rfl⟩
  cases outcome : TermPhase.newTerm command id asked now with
  | error => simp [outcome, Except.toOption] at made
  | ok own =>
    rw [outcome] at made
    rw [Option.some.inj made]

/-- A handler sends lawful requests only. -/
theorem TermPhase.lawful_of_request (knows : phase.Knows database)
    (requested : phase.request = some request) : request.Lawful database := by
  cases phase with
  | create command id asked now =>
    obtain ⟨term, made, rfl⟩ := eq_create_of_request requested
    exact isVersion_of_create made
  | recording command term now =>
    obtain rfl := Option.some.inj requested
    exact knows.2
  | publish | publishing | refetching | accept =>
    obtain rfl := Option.some.inj requested
    trivial
  | created | published | accepted | failed => cases requested

theorem TermPhase.resume_failed (phase : TermPhase) :
    phase.resume .failed = .failed .infrastructure := by
  cases phase <;> rfl

/-- What the handler of a publication knows once it has looked its term up. -/
theorem TermPhase.knows_publishIfDraft {existing : Term} (member : existing ∈ database.terms)
    (now : Int) : (TermPhase.publishIfDraft existing now).Knows database := by
  unfold TermPhase.publishIfDraft
  split_ifs with published
  · exact ⟨existing, member, published, rfl⟩
  · exact ⟨(Bool.not_eq_true _).mp published, existing, member, .refl existing⟩

/-- When the compare-and-set finds no draft, somebody has published the term before. -/
theorem published_of_updatedCount {existing : Term} (stored : Stored database existing)
    (none : ¬0 < RecordTable.updatedCount (draftOf existing.id) database.terms) :
    Published database existing.id := by
  obtain ⟨later, member, becomes⟩ := stored
  refine ⟨later, member, becomes.id, ?_⟩
  by_contra draft
  apply none
  apply RecordTable.updatedCount_pos_iff.mpr
  refine ⟨later, member, ?_⟩
  simp_all [draftOf, Term.isPublished, becomes.id]

/-- The draft that the compare-and-set has published is what the handler answers with. -/
theorem knows_published_of_updatedCount {existing : Term} {date now : Int}
    (unique : RecordTable.Unique Term.conflicts database.terms)
    (draft : existing.isPublished = false) (stored : Stored database existing)
    (some : 0 < RecordTable.updatedCount (draftOf existing.id) database.terms) :
    (TermPhase.published (toTermDto (existing.publishedAtOrNow date))).Knows
      (executeTerm database now (.publish existing.id date)).1 := by
  obtain ⟨later, member, becomes⟩ := stored
  obtain ⟨row, own, selected⟩ := RecordTable.updatedCount_pos_iff.mp some
  obtain rfl : row = later := by
    apply unique.eq Term.conflicts_comm own member
    have same : row.id = existing.id := by
      rw [draftOf, Bool.and_eq_true] at selected
      simpa using selected.1
    simp [Term.conflicts, same, becomes.id]
  refine ⟨{ row with publishedAt := .some date, updatedAt := now }, ?_, rfl, ?_⟩
  · apply RecordTable.mem_updateMany.mpr
    exact ⟨row, member, if_pos selected⟩
  · rw [Term.publishedAtOrNow, if_neg (by simp [draft])]
    simp only [toTermDto, becomes.id, becomes.type, becomes.version, becomes.content,
      becomes.createdAt]

/-- A handler knows what it may rely on after each answer. -/
theorem TermPhase.Knows.resume (knows : phase.Knows database) (kept : database.Kept)
    (requested : phase.request = some request)
    (performed : performTerm database request oracle = some (after, response)) :
    (phase.resume response).Knows after := by
  rcases SharedService.Course.apply_cases (Option.some.inj performed) with ⟨-, executed⟩ | rfl
  swap
  · rw [TermPhase.resume_failed]
    trivial
  cases phase with
  | create command id asked now =>
    obtain ⟨term, made, rfl⟩ := eq_create_of_request requested
    simp only [executeTerm] at executed
    split at executed
    · rename_i terms inserted
      obtain ⟨rfl, rfl⟩ := Prod.mk.inj executed
      simp only [TermPhase.resume, made, if_true]
      refine ⟨term, rfl, term, ?_, .refl term⟩
      exact (RecordTable.mem_insertMany inserted).mpr (.inr List.mem_cons_self)
    · obtain ⟨rfl, rfl⟩ := Prod.mk.inj executed
      simp only [TermPhase.resume, made]
      trivial
  | publish id =>
    obtain rfl := Option.some.inj requested
    obtain ⟨rfl, rfl⟩ := Prod.mk.inj executed
    cases found : database.terms.find? (·.id = id) with
    | none => trivial
    | some existing => exact knows_publishIfDraft (List.mem_of_find?_eq_some found) oracle.now
  | publishing existing now =>
    obtain rfl := Option.some.inj requested
    have same : (existing.publishedAtOrNow now).id = existing.id := by
      rw [Term.publishedAtOrNow, if_neg (by simp [knows.1])]
    rw [same] at executed
    obtain ⟨rfl, rfl⟩ := Prod.mk.inj executed
    simp only [TermPhase.resume, decide_eq_true_eq]
    split_ifs with updated
    · exact knows_published_of_updatedCount kept.unique knows.1 knows.2 updated
    · have grows : Grows database
          (executeTerm database oracle.now (.publish existing.id now)).1 := grows_executeTerm
      exact grows.published (published_of_updatedCount knows.2 updated)
  | refetching existing =>
    obtain rfl := Option.some.inj requested
    obtain ⟨rfl, rfl⟩ := Prod.mk.inj executed
    obtain ⟨term, member, named, published⟩ := knows
    cases found : database.terms.find? (·.id = existing.id) with
    | none => trivial
    | some stored =>
      have own := List.mem_of_find?_eq_some found
      have same : stored.id = existing.id := by simpa using List.find?_some found
      obtain rfl : stored = term := by
        apply kept.unique.eq Term.conflicts_comm own member
        simp [Term.conflicts, same, named]
      exact ⟨stored, member, published, rfl⟩
  | accept command =>
    obtain rfl := Option.some.inj requested
    obtain ⟨rfl, rfl⟩ := Prod.mk.inj executed
    cases found : database.terms.find? (·.id = command.termId) with
    | none => trivial
    | some term =>
      simp only [TermPhase.resume]
      split_ifs with published
      · exact ⟨by simpa using List.find?_some found, term, List.mem_of_find?_eq_some found, rfl,
          published⟩
      · trivial
  | recording command term now =>
    cases response <;> trivial
  | created | published | accepted | failed => cases requested

/-- Only the answer to its upsert lets a handler report an acceptance. -/
theorem TermPhase.eq_recording_of_resume {command : AcceptTermCommand}
    (accepted : phase.resume response = .accepted command) :
    ∃ term now, phase = .recording command term now := by
  cases phase with
  | recording own term now =>
    cases response with
    | recorded =>
      obtain rfl := TermPhase.accepted.inj accepted
      exact ⟨term, now, rfl⟩
    | created | term | published | failed => cases accepted
  | create own id asked now =>
    cases response with
    | created inserted =>
      simp only [TermPhase.resume] at accepted
      cases made : TermPhase.newTerm own id asked now with
      | ok term => cases inserted <;> simp [made] at accepted
      | error => simp [made] at accepted
    | term | published | recorded | failed => cases accepted
  | publish id =>
    cases response with
    | term found now =>
      cases found with
      | none => cases accepted
      | some existing =>
        simp only [TermPhase.resume, TermPhase.publishIfDraft] at accepted
        split_ifs at accepted
    | created | published | recorded | failed => cases accepted
  | publishing existing now =>
    cases response with
    | published updated =>
      simp only [TermPhase.resume] at accepted
      split_ifs at accepted
    | created | term | recorded | failed => cases accepted
  | refetching existing =>
    cases response with
    | term found now => cases found <;> cases accepted
    | created | published | recorded | failed => cases accepted
  | accept own =>
    cases response with
    | term found now =>
      cases found with
      | none => cases accepted
      | some term =>
        simp only [TermPhase.resume] at accepted
        split_ifs at accepted
    | created | published | recorded | failed => cases accepted
  | created | published | accepted | failed => cases response <;> cases accepted

/-- A handler that is told that its acceptance is recorded finds it in the database. -/
theorem accepted_of_resume {command : AcceptTermCommand} (knows : phase.Knows database)
    (requested : phase.request = some request)
    (performed : performTerm database request oracle = some (after, response))
    (accepted : phase.resume response = .accepted command) :
    ∃ acceptance ∈ after.acceptances,
      acceptance.termId = command.termId ∧ acceptance.userId = command.userId := by
  obtain ⟨term, now, rfl⟩ := TermPhase.eq_recording_of_resume accepted
  obtain rfl := Option.some.inj requested
  rcases SharedService.Course.apply_cases (Option.some.inj performed) with ⟨-, executed⟩ | rfl
  · simp only [executeTerm] at executed
    split_ifs at executed with there stored
    · obtain ⟨rfl, rfl⟩ := Prod.mk.inj executed
      obtain ⟨acceptance, member, same⟩ := List.any_eq_true.mp there
      simp only [TermAcceptance.conflicts, Bool.and_eq_true, decide_eq_true_eq] at same
      exact ⟨acceptance, member, same.1.symm.trans knows.1, same.2.symm⟩
    · obtain ⟨rfl, rfl⟩ := Prod.mk.inj executed
      exact ⟨_, List.mem_cons_self, knows.1, rfl⟩
    · obtain ⟨rfl, rfl⟩ := Prod.mk.inj executed
      cases accepted
  · cases accepted

end Knows

/-! ### Runs -/

abbrev TermWorld : Type := SharedService.World TermDatabase TermPhase

abbrev TermEvent : Type := SharedService.Event TermPhase TermOracle UserEvent

abbrev TermHistory : Type := List (TermWorld × TermEvent)

/-- The tables keep their keys, and every handler knows what it may rely on. -/
def termOutline : SharedService.Outline TermDatabase TermPhase where
  invariant := TermDatabase.Kept
  assertion := fun database phase => phase.Knows database
  apart := fun _ _ => True

theorem termOutline_sound : SharedService.Outline.Sound termService .trivial .none termOutline where
  initial database start := by
    obtain ⟨terms, acceptances⟩ := start
    refine ⟨?_, ?_, ?_, ?_, ?_⟩ <;> simp [terms, acceptances, RecordTable.Unique]
  symmetric _ _ _ := trivial
  spawned _ _ _ _ start := ⟨TermPhase.knows_of_isStart start, fun _ _ _ => trivial⟩
  performed _ _ _ _ _ _ _ _ _ _ kept knows requested performed _ :=
    ⟨kept_performTerm kept (TermPhase.lawful_of_request knows requested) performed,
      knows.resume kept requested performed⟩
  undisturbed _ _ _ _ _ _ _ _ _ _ _ _ _ _ knows _ _ performed _ _ :=
    ⟨knows.mono (grows_performTerm performed), trivial⟩
  external database event after _ kept happened := by
    obtain rfl := Option.some.inj happened
    refine ⟨kept_happen kept event, fun phase _ knows => knows.mono ?_⟩
    cases event <;> exact .refl database

/-- The event deletes the user. -/
def deletes (userId : String) : TermEvent := .external (.delete userId)

/-- What holds after any run of the commands.  `answered`: a publication that was reported shows the
term as it is stored, so that all who publish one term are told one date. -/
structure TermsKept (history : TermHistory) (world : TermWorld) : Prop where
  tables : world.shared.Kept
  lasting : ∀ entry ∈ history, Grows entry.1.shared world.shared
  created : ∀ process dto, world.processes process = .running (.created dto) →
    ∃ term, toTermDto term = dto ∧ Stored world.shared term
  answered : ∀ process dto, world.processes process = .running (.published dto) →
    ∃ term ∈ world.shared.terms, term.isPublished = true ∧ toTermDto term = dto
  agreed : ∀ process other dto dto', world.processes process = .running (.published dto) →
    world.processes other = .running (.published dto') → dto.id = dto'.id → dto = dto'
  accepted : ∀ process command, world.processes process = .running (.accepted command) →
    (∃ acceptance ∈ world.shared.acceptances,
      acceptance.termId = command.termId ∧ acceptance.userId = command.userId) ∨
    deletes command.userId ∈ history.map (·.2)
  immovable : ∀ later entry earlier, history = later ++ entry :: earlier →
    ∀ acceptance ∈ entry.1.shared.acceptances, acceptance ∈ world.shared.acceptances ∨
      deletes acceptance.userId ∈ (later ++ [entry]).map (·.2)

section Runs
variable {history : TermHistory} {world after : TermWorld} {event : TermEvent}

theorem termOutline_holds (run : termService.system.Run history world) :
    termOutline.Holds world :=
  termOutline_sound.reachable (fun world _ => SharedService.Outline.trivial_holds world)
    ⟨history, run⟩

theorem grows_of_step (taken : termService.system.step world event = some after) :
    Grows world.shared after.shared := by
  cases SharedService.step_cases taken with
  | spawn | crash => exact .refl _
  | advance running requested performed => exact grows_performTerm performed
  | @external event shared happened =>
    obtain rfl := Option.some.inj happened
    cases event <;> exact .refl _

/-- An acceptance stays as it is until its user is deleted. -/
theorem acceptances_of_step (taken : termService.system.step world event = some after)
    {acceptance : TermAcceptance} (member : acceptance ∈ world.shared.acceptances) :
    acceptance ∈ after.shared.acceptances ∨ event = deletes acceptance.userId := by
  cases SharedService.step_cases taken with
  | spawn | crash => exact .inl member
  | advance running requested performed =>
    exact .inl (acceptances_performTerm performed member)
  | @external event shared happened =>
    obtain rfl := Option.some.inj happened
    cases event with
    | register userId => exact .inl member
    | delete userId =>
      by_cases own : acceptance.userId = userId
      · exact .inr (by rw [own]; rfl)
      · left
        apply RecordTable.mem_deleteMany.mpr
        exact ⟨member, by simpa using own⟩

theorem grows_of_run (run : termService.system.Run history world) :
    ∀ entry ∈ history, Grows entry.1.shared world.shared := by
  induction run with
  | start => simp
  | step run taken ih =>
    intro entry member
    have grows := grows_of_step taken
    rcases List.mem_cons.mp member with rfl | earlier
    · exact grows
    · exact (ih entry earlier).trans grows

theorem acceptances_of_run (run : termService.system.Run history world) :
    ∀ later entry earlier, history = later ++ entry :: earlier →
      ∀ acceptance ∈ entry.1.shared.acceptances, acceptance ∈ world.shared.acceptances ∨
        deletes acceptance.userId ∈ (later ++ [entry]).map (·.2) := by
  induction run with
  | start => simp
  | @step history before after event run taken ih =>
    intro later entry earlier split acceptance member
    cases later with
    | nil =>
      obtain ⟨rfl, -⟩ := List.cons.inj split
      rcases acceptances_of_step taken member with stays | deleted
      · exact .inl stays
      · exact .inr (by simp [deleted])
    | cons latest later =>
      obtain ⟨rfl, rest⟩ := List.cons.inj split
      rcases ih later entry earlier rest acceptance member with there | deleted
      · rcases acceptances_of_step taken there with stays | deleted
        · exact .inl stays
        · exact .inr (by simp [deleted])
      · exact .inr (List.mem_cons_of_mem _ deleted)

/-- An acceptance that was there before the step is there after it, or its user is gone. -/
theorem acceptedBy_of_step (taken : termService.system.step world event = some after)
    {termId userId : String}
    (there : (∃ acceptance ∈ world.shared.acceptances,
      acceptance.termId = termId ∧ acceptance.userId = userId) ∨
      deletes userId ∈ history.map (·.2)) :
    (∃ acceptance ∈ after.shared.acceptances,
      acceptance.termId = termId ∧ acceptance.userId = userId) ∨
      deletes userId ∈ ((world, event) :: history).map (·.2) := by
  rcases there with ⟨acceptance, member, rfl, rfl⟩ | deleted
  · rcases acceptances_of_step taken member with stays | deleted
    · exact .inl ⟨acceptance, stays, rfl, rfl⟩
    · exact .inr (by simp [deleted])
  · exact .inr (List.mem_cons_of_mem _ deleted)

theorem accepted_of_run (run : termService.system.Run history world) :
    ∀ process command, world.processes process = .running (.accepted command) →
      (∃ acceptance ∈ world.shared.acceptances,
        acceptance.termId = command.termId ∧ acceptance.userId = command.userId) ∨
      deletes command.userId ∈ history.map (·.2) := by
  intro process command running
  refine SharedService.held (fun history world phase => phase = .accepted command →
      (∃ acceptance ∈ world.shared.acceptances,
        acceptance.termId = command.termId ∧ acceptance.userId = command.userId) ∨
      deletes command.userId ∈ history.map (·.2)) ?spawned ?resumed ?kept run running rfl
  case spawned =>
    rintro history world process phase - start rfl
    cases start
  case resumed =>
    intro history world process oracle phase request after response run was requested performed
      accepted
    have knows : phase.Knows world.shared := (termOutline_holds run).assertion _ _ was
    exact .inl (accepted_of_resume knows requested performed accepted)
  case kept =>
    intro history before event after phase _ taken there same
    exact acceptedBy_of_step taken (there same)

/-- What holds after any run of any number of commands. -/
theorem termsKept (run : termService.system.Run history world) : TermsKept history world := by
  have holds := termOutline_holds run
  have answered : ∀ process dto, world.processes process = .running (.published dto) →
      ∃ term ∈ world.shared.terms, term.isPublished = true ∧ toTermDto term = dto :=
    fun process dto running => holds.assertion process _ running
  refine ⟨holds.invariant, grows_of_run run, ?_, answered, ?_, accepted_of_run run,
    acceptances_of_run run⟩
  · intro process dto running
    exact holds.assertion process _ running
  · intro process other dto dto' running running' same
    obtain ⟨term, member, -, rfl⟩ := answered process dto running
    obtain ⟨term', member', -, rfl⟩ := answered other dto' running'
    obtain rfl : term = term' := by
      apply holds.invariant.unique.eq Term.conflicts_comm member member'
      simp only [toTermDto] at same
      simp [Term.conflicts, same]
    rfl

/-- Two replicas find one draft.  The slower one is told the date of the other. -/
theorem termsKept_example :
    ∃ history world dto, termService.system.Run history world ∧
      world.processes 1 = .running (.published dto) ∧
      world.processes 2 = .running (.published dto) ∧ dto.publishedAt = some 5 ∧
      world.processes 3 = .running (.accepted ⟨"user", "id", none⟩) ∧ TermsKept history world := by
  have start : termService.system.Run [] (SharedService.start ⟨["user"], [], []⟩) :=
    .start ⟨⟨rfl, rfl⟩, fun _ => rfl⟩
  have creation :=
    @TransitionSystem.Run.step _ _ _ _ _ _
      (.spawn 0 (.create ⟨.privacyPolicy, "1.0".toList, "text", false⟩ "id" 1 2)) start rfl
  have created := @TransitionSystem.Run.step _ _ _ _ _ _ (.advance 0 ⟨.done, 3⟩) creation rfl
  have first := @TransitionSystem.Run.step _ _ _ _ _ _ (.spawn 1 (.publish "id")) created rfl
  have second := @TransitionSystem.Run.step _ _ _ _ _ _ (.spawn 2 (.publish "id")) first rfl
  have found := @TransitionSystem.Run.step _ _ _ _ _ _ (.advance 1 ⟨.done, 5⟩) second rfl
  have both := @TransitionSystem.Run.step _ _ _ _ _ _ (.advance 2 ⟨.done, 4⟩) found rfl
  have won := @TransitionSystem.Run.step _ _ _ _ _ _ (.advance 1 ⟨.done, 6⟩) both rfl
  have lost := @TransitionSystem.Run.step _ _ _ _ _ _ (.advance 2 ⟨.done, 7⟩) won rfl
  have read := @TransitionSystem.Run.step _ _ _ _ _ _ (.advance 2 ⟨.done, 8⟩) lost rfl
  have third :=
    @TransitionSystem.Run.step _ _ _ _ _ _ (.spawn 3 (.accept ⟨"user", "id", none⟩)) read rfl
  have seen := @TransitionSystem.Run.step _ _ _ _ _ _ (.advance 3 ⟨.done, 9⟩) third rfl
  have accepted := @TransitionSystem.Run.step _ _ _ _ _ _ (.advance 3 ⟨.done, 9⟩) seen rfl
  exact ⟨_, _, _, accepted, rfl, rfl, rfl, rfl, termsKept accepted⟩

end Runs

end NestjsFastify.Terms
