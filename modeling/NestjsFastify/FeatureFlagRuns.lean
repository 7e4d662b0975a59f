import NestjsFastify.FeatureFlags

/-! # What is kept of a feature flag

However the commands of an organization interleave, no update or deletion that was reported is
undone but by a later one, and every flag is evaluated by the buckets below its percentage.
-/
namespace NestjsFastify.FeatureFlags

/-! ### The fields of an update -/

inductive Field where
  | description
  | enabled
  | rolloutPercentage
  deriving DecidableEq, Repr

/-- The update names the field. -/
def FlagData.names (data : FlagData) : Field → Bool
  | .description => data.description.isSome
  | .enabled => data.enabled.isSome
  | .rolloutPercentage => data.rolloutPercentage.isSome

/-- Two flags have the same value in the field. -/
def SameField (first second : FeatureFlag) : Field → Prop
  | .description => first.description = second.description
  | .enabled => first.enabled = second.enabled
  | .rolloutPercentage => first.rolloutPercentage = second.rolloutPercentage

/-- The flag has the value that the update names for the field. -/
def FlagData.Agrees (data : FlagData) (flag : FeatureFlag) : Field → Prop
  | .description => data.description = some flag.description
  | .enabled => data.enabled = some flag.enabled
  | .rolloutPercentage => data.rolloutPercentage = some flag.rolloutPercentage

section Fields
variable {data : FlagData} {flag other : FeatureFlag} {field : Field}

theorem FlagData.agrees_apply (named : data.names field = true) :
    data.Agrees (data.apply flag) field := by
  cases field with
  | description | enabled | rolloutPercentage =>
    obtain ⟨value, same⟩ := Option.isSome_iff_exists.mp named
    simp [FlagData.Agrees, FlagData.apply, same]

theorem FlagData.sameField_apply (unnamed : data.names field = false) :
    SameField (data.apply flag) flag field := by
  cases field with
  | description | enabled | rolloutPercentage =>
    have none := Option.not_isSome_iff_eq_none.mp (Bool.not_eq_true _ ▸ unnamed)
    simp [SameField, FlagData.apply, none]

theorem FlagData.Agrees.congr (agrees : data.Agrees flag field)
    (same : SameField other flag field) : data.Agrees other field := by
  cases field with
  | description | enabled | rolloutPercentage => exact agrees.trans (congrArg some same.symm)

theorem SameField.refl (flag : FeatureFlag) (field : Field) : SameField flag flag field := by
  cases field <;> rfl

@[simp] theorem FlagData.apply_id (data : FlagData) (flag : FeatureFlag) :
    (data.apply flag).id = flag.id := rfl

theorem FeatureFlag.conflicts_comm (first second : FeatureFlag) :
    first.conflicts second = second.conflicts first := by
  simp only [FeatureFlag.conflicts, eq_comm]

end Fields

/-! ### What one request does -/

/-- The request sets the field of the flag. -/
def FlagRequest.sets (organizationId id : String) (field : Field) : FlagRequest → Bool
  | .create flag => flag.id = id
  | .update organization other data =>
      organization = organizationId && other = id && data.names field
  | _ => false

/-- The request creates the flag. -/
def FlagRequest.creates (id : String) : FlagRequest → Bool
  | .create flag => flag.id = id
  | _ => false

theorem FlagRequest.sets_of_creates {organizationId id : String} {field : Field}
    {request : FlagRequest} (creates : request.creates id = true) :
    request.sets organizationId id field = true := by
  cases request with
  | create flag => exact creates
  | findById | update | delete => cases creates

section Requests
variable {database after : FlagDatabase} {request : FlagRequest} {response : FlagResponse}
  {oracle : FlagOracle} {now : Int}

/-- Where a flag comes from: it is new, or it was there and keeps every field that the request does
not set. -/
theorem origin_executeFlag {flag : FeatureFlag}
    (member : flag ∈ (executeFlag database now request).1.flags) :
    request.creates flag.id = true ∨
      ∃ old ∈ database.flags, old.id = flag.id ∧ old.organizationId = flag.organizationId ∧
        ∀ field, request.sets flag.organizationId flag.id field = false →
          SameField flag old field := by
  have unchanged : flag ∈ database.flags →
      ∃ old ∈ database.flags, old.id = flag.id ∧ old.organizationId = flag.organizationId ∧
        ∀ field, request.sets flag.organizationId flag.id field = false →
          SameField flag old field :=
    fun own => ⟨flag, own, rfl, rfl, fun field _ => .refl flag field⟩
  cases request with
  | create new =>
    simp only [executeFlag] at member
    split at member
    · split at member
      · rcases (RecordTable.mem_insertMany ‹_›).mp member with old | same
        · exact .inr (unchanged old)
        · obtain rfl := List.mem_singleton.mp same
          exact .inl (decide_eq_true rfl)
      · exact .inr (unchanged member)
    · exact .inr (unchanged member)
  | findById => exact .inr (unchanged member)
  | update organizationId id data =>
    right
    obtain ⟨old, own, rfl⟩ := RecordTable.mem_updateMany.mp member
    by_cases selected : flagOf organizationId id old = true
    · rw [if_pos selected]
      refine ⟨old, own, rfl, rfl, fun field unset => data.sameField_apply ?_⟩
      simp only [flagOf, Bool.and_eq_true, decide_eq_true_eq] at selected
      simpa [FlagRequest.sets, FlagData.apply, selected.1, selected.2] using unset
    · rw [if_neg selected]
      exact ⟨old, own, rfl, rfl, fun field _ => .refl old field⟩
  | delete organizationId id =>
    exact .inr (unchanged (RecordTable.mem_deleteMany.mp member).1)

end Requests

/-! ### What the tables keep -/

/-- The tables keep their keys, and every flag is one that its entity accepts. -/
structure FlagDatabase.Kept (database : FlagDatabase) : Prop where
  unique : RecordTable.Unique FeatureFlag.conflicts database.flags
  keys : ∀ flag ∈ database.flags, isKey flag.key = true
  rollouts : ∀ flag ∈ database.flags, 0 ≤ flag.rolloutPercentage ∧ flag.rolloutPercentage ≤ 100
  organizations : ∀ flag ∈ database.flags, flag.organizationId ∈ database.organizations

/-- What the entity has checked before a request is sent. -/
def FlagRequest.Lawful : FlagRequest → Prop
  | .create flag => isKey flag.key = true ∧ 0 ≤ flag.rolloutPercentage ∧
      flag.rolloutPercentage ≤ 100
  | .update _ _ data => ∀ percentage ∈ data.rolloutPercentage, 0 ≤ percentage ∧ percentage ≤ 100
  | _ => True

section Kept
variable {database after : FlagDatabase} {request : FlagRequest} {response : FlagResponse}
  {oracle : FlagOracle} {now : Int}

theorem kept_executeFlag (kept : database.Kept) (lawful : request.Lawful) :
    (executeFlag database now request).1.Kept := by
  cases request with
  | create flag =>
    simp only [executeFlag]
    split
    · rename_i there
      split
      · rename_i flags inserted
        have members : ∀ {holds : FeatureFlag → Prop}, (∀ other ∈ database.flags, holds other) →
            holds flag → ∀ other ∈ flags, holds other := by
          intro holds old new other member
          rcases (RecordTable.mem_insertMany inserted).mp member with own | same
          · exact old other own
          · obtain rfl := List.mem_singleton.mp same
            exact new
        refine ⟨kept.unique.insertMany inserted, ?_, ?_, ?_⟩
        · exact members kept.keys lawful.1
        · exact members kept.rollouts lawful.2
        · exact members kept.organizations (by simpa using there)
      · exact kept
    · exact kept
  | findById => exact kept
  | update organizationId id data =>
    refine ⟨?_, ?_, ?_, ?_⟩
    · apply kept.unique.updateMany
      intro first second
      split_ifs <;> rfl
    · intro flag member
      obtain ⟨old, own, rfl⟩ := RecordTable.mem_updateMany.mp member
      split_ifs <;> exact kept.keys old own
    · intro flag member
      obtain ⟨old, own, rfl⟩ := RecordTable.mem_updateMany.mp member
      split_ifs
      · cases named : data.rolloutPercentage with
        | none => simpa [FlagData.apply, named] using kept.rollouts old own
        | some percentage => simpa [FlagData.apply, named] using lawful percentage named
      · exact kept.rollouts old own
    · intro flag member
      obtain ⟨old, own, rfl⟩ := RecordTable.mem_updateMany.mp member
      split_ifs <;> exact kept.organizations old own
  | delete organizationId id =>
    have among : ∀ flag ∈ RecordTable.deleteMany (flagOf organizationId id) database.flags,
        flag ∈ database.flags := fun flag member => (RecordTable.mem_deleteMany.mp member).1
    exact ⟨kept.unique.deleteMany, fun flag member => kept.keys flag (among flag member),
      fun flag member => kept.rollouts flag (among flag member),
      fun flag member => kept.organizations flag (among flag member)⟩

theorem kept_performFlag (kept : database.Kept) (lawful : request.Lawful)
    (performed : performFlag database request oracle = some (after, response)) : after.Kept := by
  rcases SharedService.Course.apply_state (Option.some.inj performed) with rfl | ⟨-, rfl⟩
  · exact kept
  · exact kept_executeFlag kept lawful

/-- No flag comes of what happens to the organizations, and none is changed by it. -/
theorem flags_happen {event : OrganizationEvent} {flag : FeatureFlag}
    (member : flag ∈ (database.happen event).flags) : flag ∈ database.flags := by
  cases event with
  | create => exact member
  | delete => exact (RecordTable.mem_deleteMany.mp member).1

theorem kept_happen (kept : database.Kept) (event : OrganizationEvent) :
    (database.happen event).Kept := by
  refine ⟨?_, fun flag member => kept.keys flag (flags_happen member),
    fun flag member => kept.rollouts flag (flags_happen member), ?_⟩
  · cases event with
    | create => exact kept.unique
    | delete => exact kept.unique.deleteMany
  · intro flag member
    cases event with
    | create organizationId => exact List.mem_cons_of_mem _ (kept.organizations flag member)
    | delete organizationId =>
      obtain ⟨own, other⟩ := RecordTable.mem_deleteMany.mp member
      apply List.mem_filter.mpr
      exact ⟨kept.organizations flag own, by simpa using other⟩

end Kept

/-! ### What the entity accepts -/

section Entity

theorem of_assertRollout {number : Number} {percentage : Int}
    (asserted : assertRollout number = .ok percentage) :
    number = .integer percentage ∧ 0 ≤ percentage ∧ percentage ≤ 100 := by
  cases number with
  | other => cases asserted
  | integer value =>
    simp only [assertRollout] at asserted
    split_ifs at asserted with outside
    obtain rfl := Except.ok.inj asserted
    exact ⟨rfl, by omega⟩

theorem lawful_of_create {command : CreateFeatureFlagCommand} {id : String} {now : Int}
    {flag : FeatureFlag} (made : FeatureFlag.create command id now = .ok flag) :
    (FlagRequest.create flag).Lawful := by
  unfold FeatureFlag.create assertKey at made
  split_ifs at made with valid
  · cases asserted : assertRollout (command.rolloutPercentage.getD (.integer 100)) with
    | error => simp [asserted, Except.bind, Except.map] at made
    | ok percentage =>
      simp only [asserted, Except.bind, Except.map] at made
      obtain rfl := Except.ok.inj made
      exact ⟨valid, (of_assertRollout asserted).2⟩
  · cases made

/-- The data of an update is what the flag looks like after it, where it names a field. -/
theorem agrees_of_withChanges {flag updated : FeatureFlag} {changes : FeatureFlagChanges}
    {now : Int} (changed : flag.withChanges changes now = .ok updated) :
    (∀ field, (FlagPhase.dataOf changes updated).names field = true →
      (FlagPhase.dataOf changes updated).Agrees updated field) ∧
    ∀ percentage ∈ (FlagPhase.dataOf changes updated).rolloutPercentage,
      0 ≤ percentage ∧ percentage ≤ 100 := by
  unfold FeatureFlag.withChanges FeatureFlag.rolloutAfter at changed
  cases asked : changes.rolloutPercentage with
  | none =>
    rw [asked] at changed
    obtain rfl := Except.ok.inj changed
    refine ⟨?_, by simp [FlagPhase.dataOf, asked]⟩
    intro field named
    cases field with
    | description | enabled =>
      obtain ⟨value, same⟩ := Option.isSome_iff_exists.mp named
      simp only [FlagPhase.dataOf] at same
      simp [FlagData.Agrees, FlagPhase.dataOf, same]
    | rolloutPercentage => simp [FlagData.names, FlagPhase.dataOf, asked] at named
  | some number =>
    rw [asked] at changed
    simp only at changed
    cases asserted : assertRollout number with
    | error => simp [asserted, Except.map] at changed
    | ok percentage =>
      obtain ⟨rfl, within⟩ := of_assertRollout asserted
      simp only [asserted, Except.map] at changed
      obtain rfl := Except.ok.inj changed
      refine ⟨?_, by simpa [FlagPhase.dataOf, asked, Number.value?] using within⟩
      intro field named
      cases field with
      | description | enabled =>
        obtain ⟨value, same⟩ := Option.isSome_iff_exists.mp named
        simp only [FlagPhase.dataOf] at same
        simp [FlagData.Agrees, FlagPhase.dataOf, same]
      | rolloutPercentage => simp [FlagData.Agrees, FlagPhase.dataOf, asked, Number.value?]

end Entity

/-! ### What the handlers know -/

/-- The data of an update is in bounds, and the answer shows it where it names a field. -/
structure Prepared (command : UpdateFeatureFlagCommand) (updated : FeatureFlag) : Prop where
  shown : ∀ field, (FlagPhase.dataOf command.changes updated).names field = true →
    (FlagPhase.dataOf command.changes updated).Agrees updated field
  within : ∀ percentage ∈ (FlagPhase.dataOf command.changes updated).rolloutPercentage,
    0 ≤ percentage ∧ percentage ≤ 100

/-- What a handler may rely on. -/
def FlagPhase.Knows : FlagPhase → Prop
  | applying command flag => Prepared command flag
  | _ => True

section Knows
variable {database after : FlagDatabase} {phase : FlagPhase} {request : FlagRequest}
  {response : FlagResponse} {oracle : FlagOracle}

theorem FlagPhase.knows_of_isStart (start : phase.isStart = true) : phase.Knows := by
  cases phase with
  | create | update | delete => trivial
  | applying | created | updated | deleted | failed => cases start

/-- A handler sends lawful requests only. -/
theorem FlagPhase.lawful_of_request (knows : phase.Knows)
    (requested : phase.request = some request) : request.Lawful := by
  cases phase with
  | create command id now =>
    obtain ⟨flag, made, rfl⟩ := Option.map_eq_some_iff.mp requested
    cases outcome : FeatureFlag.create command id now with
    | error => simp [outcome, Except.toOption] at made
    | ok own =>
      rw [outcome] at made
      obtain rfl := Option.some.inj made
      exact lawful_of_create outcome
  | applying command updated =>
    obtain rfl := Option.some.inj requested
    exact knows.within
  | update | delete =>
    obtain rfl := Option.some.inj requested
    trivial
  | created | updated | deleted | failed => cases requested

theorem FlagPhase.resume_failed (phase : FlagPhase) :
    phase.resume .failed = .failed .infrastructure := by
  cases phase <;> rfl

/-- A handler is about to apply what the entity has accepted. -/
theorem FlagPhase.knows_resume (phase : FlagPhase) (response : FlagResponse) :
    (phase.resume response).Knows := by
  cases phase with
  | update command =>
    cases response with
    | flag found now =>
      cases found with
      | none => trivial
      | some existing =>
        simp only [FlagPhase.resume, FlagPhase.resumeFound]
        cases changed : existing.withChanges command.changes now with
        | error => trivial
        | ok updated =>
          obtain ⟨shown, within⟩ := agrees_of_withChanges changed
          exact ⟨shown, within⟩
    | created | updated | deleted | failed => trivial
  | create command id now =>
    cases response with
    | created inserted =>
      simp only [FlagPhase.resume]
      cases FeatureFlag.create command id now with
      | error => trivial
      | ok flag => cases inserted <;> trivial
    | flag | updated | deleted | failed => trivial
  | applying command updated =>
    cases response with
    | updated applied => cases applied <;> trivial
    | created | flag | deleted | failed => trivial
  | delete command =>
    cases response with
    | deleted removed => cases removed <;> trivial
    | created | flag | updated | failed => trivial
  | created | updated | deleted | failed => cases response <;> trivial

/-- Only the answer to its statement lets a handler report an update. -/
theorem FlagPhase.eq_applying_of_resume {command : UpdateFeatureFlagCommand}
    {dto : FeatureFlagDto} (reported : phase.resume response = .updated command dto) :
    ∃ updated, phase = .applying command updated ∧ toFeatureFlagDto updated = dto ∧
      response ≠ .failed := by
  cases phase with
  | applying own updated =>
    cases response with
    | updated applied =>
      cases applied with
      | true =>
        obtain ⟨rfl, rfl⟩ := FlagPhase.updated.inj reported
        exact ⟨updated, rfl, rfl, by simp⟩
      | false => cases reported
    | created | flag | deleted | failed => cases reported
  | create own id now =>
    cases response with
    | created inserted =>
      simp only [FlagPhase.resume] at reported
      cases made : FeatureFlag.create own id now with
      | ok flag => cases inserted <;> simp [made] at reported
      | error => simp [made] at reported
    | flag | updated | deleted | failed => cases reported
  | update own =>
    cases response with
    | flag found now =>
      cases found with
      | none => cases reported
      | some existing =>
        simp only [FlagPhase.resume, FlagPhase.resumeFound] at reported
        cases changed : existing.withChanges own.changes now <;> simp [changed] at reported
    | created | updated | deleted | failed => cases reported
  | delete own =>
    cases response with
    | deleted removed => cases removed <;> cases reported
    | created | flag | updated | failed => cases reported
  | created | updated | deleted | failed => cases response <;> cases reported

/-- Only the answer to its statement lets a handler report a deletion. -/
theorem FlagPhase.eq_delete_of_resume {command : DeleteFeatureFlagCommand}
    (reported : phase.resume response = .deleted command) :
    phase = .delete command ∧ response = .deleted true := by
  cases phase with
  | delete own =>
    cases response with
    | deleted removed =>
      cases removed with
      | true =>
        obtain rfl := FlagPhase.deleted.inj reported
        exact ⟨rfl, rfl⟩
      | false => cases reported
    | created | flag | updated | failed => cases reported
  | create own id now =>
    cases response with
    | created inserted =>
      simp only [FlagPhase.resume] at reported
      cases made : FeatureFlag.create own id now with
      | ok flag => cases inserted <;> simp [made] at reported
      | error => simp [made] at reported
    | flag | updated | deleted | failed => cases reported
  | update own =>
    cases response with
    | flag found now =>
      cases found with
      | none => cases reported
      | some existing =>
        simp only [FlagPhase.resume, FlagPhase.resumeFound] at reported
        cases changed : existing.withChanges own.changes now <;> simp [changed] at reported
    | created | updated | deleted | failed => cases reported
  | applying own updated =>
    cases response with
    | updated applied => cases applied <;> cases reported
    | created | flag | deleted | failed => cases reported
  | created | updated | deleted | failed => cases response <;> cases reported

end Knows

/-! ### Runs -/

abbrev FlagWorld : Type := SharedService.World FlagDatabase FlagPhase

abbrev FlagEvent : Type := SharedService.Event FlagPhase FlagOracle OrganizationEvent

abbrev FlagHistory : Type := List (FlagWorld × FlagEvent)

/-- The tables keep their keys, and every handler knows what it may rely on. -/
def flagOutline : SharedService.Outline FlagDatabase FlagPhase where
  invariant := FlagDatabase.Kept
  assertion := fun _ phase => phase.Knows
  apart := fun _ _ => True

theorem flagOutline_sound : SharedService.Outline.Sound flagService .trivial .none flagOutline where
  initial database start := by
    have empty : database.flags = [] := start
    refine ⟨?_, ?_, ?_, ?_⟩ <;> simp [empty, RecordTable.Unique]
  symmetric _ _ _ := trivial
  spawned _ _ _ _ start := ⟨FlagPhase.knows_of_isStart start, fun _ _ _ => trivial⟩
  performed _ phase _ _ _ response _ _ _ _ kept knows requested performed _ :=
    ⟨kept_performFlag kept (FlagPhase.lawful_of_request knows requested) performed,
      phase.knows_resume response⟩
  undisturbed _ _ _ _ _ _ _ _ _ _ _ _ _ _ knows _ _ _ _ _ := ⟨knows, trivial⟩
  external database event after _ kept happened := by
    obtain rfl := Option.some.inj happened
    exact ⟨kept_happen kept event, fun _ _ knows => knows⟩

/-- The step carries the request out. -/
def CarriesOut (entry : FlagWorld × FlagEvent) (request : FlagRequest) : Prop :=
  ∃ process oracle phase, entry.2 = .advance process oracle ∧
    entry.1.processes process = .running phase ∧ phase.request = some request ∧
    oracle.course ≠ .refused

/-- One of the steps has set the field of the flag. -/
def SetSince (later : FlagHistory) (organizationId id : String) (field : Field) : Prop :=
  ∃ entry ∈ later, ∃ request, CarriesOut entry request ∧
    request.sets organizationId id field = true

/-- One of the steps has created the flag. -/
def CreatedSince (later : FlagHistory) (id : String) : Prop :=
  ∃ entry ∈ later, ∃ request, CarriesOut entry request ∧ request.creates id = true

/-- The flag has the values of the update, but where a later step has set the field. -/
def Shown (later : FlagHistory) (world : FlagWorld) (organizationId id : String)
    (data : FlagData) : Prop :=
  ∀ flag ∈ world.shared.flags, flagOf organizationId id flag = true → ∀ field,
    data.names field = true → data.Agrees flag field ∨ SetSince later organizationId id field

/-- The flag is gone, unless a later step has created it. -/
def Gone (later : FlagHistory) (world : FlagWorld) (id : String) : Prop :=
  ∀ flag ∈ world.shared.flags, flag.id = id → CreatedSince later id

/-- A reported update was carried out in one of the steps, and the answer and the flag show it. -/
def UpdateStands (history : FlagHistory) (world : FlagWorld) (command : UpdateFeatureFlagCommand)
    (dto : FeatureFlagDto) : Prop :=
  ∃ later entry earlier updated, history = later ++ entry :: earlier ∧
    toFeatureFlagDto updated = dto ∧ Prepared command updated ∧
    CarriesOut entry (.update command.organizationId command.id
      (FlagPhase.dataOf command.changes updated)) ∧
    Shown later world command.organizationId command.id
      (FlagPhase.dataOf command.changes updated)

/-- A reported deletion was carried out in one of the steps, and the flag is gone. -/
def DeletionStands (history : FlagHistory) (world : FlagWorld)
    (command : DeleteFeatureFlagCommand) : Prop :=
  ∃ later entry earlier, history = later ++ entry :: earlier ∧
    CarriesOut entry (.delete command.organizationId command.id) ∧ Gone later world command.id

/-- What holds after any run of the commands.  `evaluated`: a subject has a flag if it is enabled
and the bucket of the subject is below the percentage. -/
structure FlagsKept (history : FlagHistory) (world : FlagWorld) : Prop where
  tables : world.shared.Kept
  updates : ∀ process command dto,
    world.processes process = .running (.updated command dto) →
    UpdateStands history world command dto
  deletions : ∀ process command, world.processes process = .running (.deleted command) →
    DeletionStands history world command
  evaluated : ∀ digest subjectId, ∀ flag ∈ world.shared.flags,
    (evaluateFeatureFlags digest world.shared flag.organizationId subjectId).lookup flag.key =
      some (flag.enabled && ((bucketOf digest flag.key subjectId : Int) < flag.rolloutPercentage))

section Runs
variable {history later : FlagHistory} {world after : FlagWorld} {event : FlagEvent}
  {organizationId id : String} {data : FlagData}

/-- Where a flag comes from in a step. -/
theorem origin_of_step (taken : flagService.system.step world event = some after)
    {flag : FeatureFlag} (member : flag ∈ after.shared.flags) :
    (∃ request, CarriesOut (world, event) request ∧ request.creates flag.id = true) ∨
      ∃ old ∈ world.shared.flags, old.id = flag.id ∧ old.organizationId = flag.organizationId ∧
        ∀ field, SameField flag old field ∨
          ∃ request, CarriesOut (world, event) request ∧
            request.sets flag.organizationId flag.id field = true := by
  have unchanged : flag ∈ world.shared.flags →
      ∃ old ∈ world.shared.flags, old.id = flag.id ∧ old.organizationId = flag.organizationId ∧
        ∀ field, SameField flag old field ∨
          ∃ request, CarriesOut (world, event) request ∧
            request.sets flag.organizationId flag.id field = true :=
    fun own => ⟨flag, own, rfl, rfl, fun field => .inl (.refl flag field)⟩
  cases SharedService.step_cases taken with
  | spawn | crash => exact .inr (unchanged member)
  | external happened =>
    obtain rfl := Option.some.inj happened
    exact .inr (unchanged (flags_happen member))
  | @advance process oracle phase request shared response running requested performed =>
    rcases SharedService.Course.apply_state (Option.some.inj performed) with rfl | ⟨carried, rfl⟩
    · exact .inr (unchanged member)
    · have here : CarriesOut (world, .advance process oracle) request :=
        ⟨process, oracle, phase, rfl, running, requested, carried⟩
      rcases origin_executeFlag member with created | ⟨old, own, sameId, sameOrg, fields⟩
      · exact .inl ⟨request, here, created⟩
      · refine .inr ⟨old, own, sameId, sameOrg, fun field => ?_⟩
        by_cases sets : request.sets flag.organizationId flag.id field = true
        · exact .inr ⟨request, here, sets⟩
        · exact .inl (fields field ((Bool.not_eq_true _).mp sets))

theorem SetSince.cons {field : Field} (since : SetSince later organizationId id field)
    (entry : FlagWorld × FlagEvent) : SetSince (entry :: later) organizationId id field := by
  obtain ⟨earlier, member, rest⟩ := since
  exact ⟨earlier, List.mem_cons_of_mem _ member, rest⟩

theorem CreatedSince.cons (since : CreatedSince later id) (entry : FlagWorld × FlagEvent) :
    CreatedSince (entry :: later) id := by
  obtain ⟨earlier, member, rest⟩ := since
  exact ⟨earlier, List.mem_cons_of_mem _ member, rest⟩

theorem Shown.step (shown : Shown later world organizationId id data)
    (taken : flagService.system.step world event = some after) :
    Shown ((world, event) :: later) after organizationId id data := by
  intro flag member own field named
  obtain ⟨rfl, rfl⟩ : flag.id = id ∧ flag.organizationId = organizationId := by
    simpa [flagOf] using own
  rcases origin_of_step taken member with
    ⟨request, carried, creates⟩ | ⟨old, there, sameId, sameOrg, fields⟩
  · exact .inr ⟨_, List.mem_cons_self, request, carried,
      FlagRequest.sets_of_creates creates⟩
  · have before := shown old there (by simp [flagOf, sameId, sameOrg]) field named
    rcases fields field with same | ⟨request, carried, sets⟩
    · exact before.imp (fun agrees => agrees.congr same) fun since => since.cons _
    · exact .inr ⟨_, List.mem_cons_self, request, carried, sets⟩

theorem Gone.step (gone : Gone later world id)
    (taken : flagService.system.step world event = some after) :
    Gone ((world, event) :: later) after id := by
  rintro flag member rfl
  rcases origin_of_step taken member with ⟨request, carried, creates⟩ | ⟨old, there, same, -⟩
  · exact ⟨_, List.mem_cons_self, request, carried, creates⟩
  · exact (gone old there same).cons _

theorem UpdateStands.step {command : UpdateFeatureFlagCommand} {dto : FeatureFlagDto}
    (stands : UpdateStands history world command dto)
    (taken : flagService.system.step world event = some after) :
    UpdateStands ((world, event) :: history) after command dto := by
  obtain ⟨later, entry, earlier, updated, rfl, same, prepared, carried, shown⟩ := stands
  exact ⟨(world, event) :: later, entry, earlier, updated, rfl, same, prepared, carried,
    shown.step taken⟩

theorem DeletionStands.step {command : DeleteFeatureFlagCommand}
    (stands : DeletionStands history world command)
    (taken : flagService.system.step world event = some after) :
    DeletionStands ((world, event) :: history) after command := by
  obtain ⟨later, entry, earlier, rfl, carried, gone⟩ := stands
  exact ⟨(world, event) :: later, entry, earlier, rfl, carried, gone.step taken⟩

theorem flagOutline_holds (run : flagService.system.Run history world) :
    flagOutline.Holds world :=
  flagOutline_sound.reachable (fun world _ => SharedService.Outline.trivial_holds world)
    ⟨history, run⟩

theorem updateStands_of_run (run : flagService.system.Run history world) {process : Nat}
    {command : UpdateFeatureFlagCommand} {dto : FeatureFlagDto}
    (running : world.processes process = .running (.updated command dto)) :
    UpdateStands history world command dto := by
  refine SharedService.held (fun history world phase => ∀ command dto,
    phase = .updated command dto → UpdateStands history world command dto)
    ?spawned ?resumed ?kept run running command dto rfl
  case spawned =>
    rintro history world process phase - start command dto rfl
    cases start
  case kept =>
    intro history before event after phase _ taken stands command dto same
    exact (stands command dto same).step taken
  case resumed =>
    intro history world process oracle phase request after response run was requested performed
      command dto reported
    obtain ⟨updated, rfl, same, answered⟩ := FlagPhase.eq_applying_of_resume reported
    have prepared : Prepared command updated := (flagOutline_holds run).assertion _ _ was
    rcases SharedService.Course.apply_cases (Option.some.inj performed) with
      ⟨carried, executed⟩ | failed
    · refine ⟨[], _, history, updated, rfl, same, prepared,
        ⟨_, _, _, rfl, was, rfl, carried⟩, ?_⟩
      obtain rfl := Option.some.inj requested
      obtain ⟨rfl, -⟩ := Prod.mk.inj executed
      intro flag member own field named
      obtain ⟨old, there, rfl⟩ := RecordTable.mem_updateMany.mp member
      have selected : flagOf command.organizationId command.id old = true := by
        split_ifs at own with selected
        · exact selected
        · exact own
      rw [if_pos selected]
      exact .inl (FlagData.agrees_apply named)
    · exact absurd failed answered

theorem deletionStands_of_run (run : flagService.system.Run history world) {process : Nat}
    {command : DeleteFeatureFlagCommand}
    (running : world.processes process = .running (.deleted command)) :
    DeletionStands history world command := by
  refine SharedService.held (fun history world phase => ∀ command,
    phase = .deleted command → DeletionStands history world command)
    ?spawned ?resumed ?kept run running command rfl
  case spawned =>
    rintro history world process phase - start command rfl
    cases start
  case kept =>
    intro history before event after phase _ taken stands command same
    exact (stands command same).step taken
  case resumed =>
    intro history world process oracle phase request after response run was requested performed
      command reported
    obtain ⟨rfl, rfl⟩ := FlagPhase.eq_delete_of_resume reported
    have kept : world.shared.Kept := (flagOutline_holds run).invariant
    rcases SharedService.Course.apply_cases (Option.some.inj performed) with
      ⟨carried, executed⟩ | failed
    · refine ⟨[], _, history, rfl, ⟨_, _, _, rfl, was, rfl, carried⟩, ?_⟩
      obtain rfl := Option.some.inj requested
      obtain ⟨rfl, removed⟩ := Prod.mk.inj executed
      rw [FlagResponse.deleted.injEq, decide_eq_true_eq] at removed
      obtain ⟨row, there, selected⟩ := RecordTable.updatedCount_pos_iff.mp removed
      intro flag member named
      obtain ⟨own, unselected⟩ := RecordTable.mem_deleteMany.mp member
      have sameId : row.id = command.id := by
        rw [flagOf, Bool.and_eq_true, decide_eq_true_eq] at selected
        exact selected.1
      obtain rfl : flag = row := by
        apply kept.unique.eq FeatureFlag.conflicts_comm own there
        simp [FeatureFlag.conflicts, named, sameId]
      rw [selected] at unselected
      cases unselected
    · cases failed

/-- The percentages at both ends are no exceptions: every subject has a bucket. -/
theorem isEnabledFor_eq (digest : List Char → Nat) {flag : FeatureFlag}
    (within : 0 ≤ flag.rolloutPercentage ∧ flag.rolloutPercentage ≤ 100)
    (subjectId : List Char) :
    flag.isEnabledFor digest subjectId = (flag.enabled &&
      ((bucketOf digest flag.key subjectId : Int) < flag.rolloutPercentage)) := by
  have bucket : bucketOf digest flag.key subjectId < 100 := Nat.mod_lt _ (by omega)
  unfold FeatureFlag.isEnabledFor
  split_ifs with disabled full empty
  · simp [disabled]
  · have below : (bucketOf digest flag.key subjectId : Int) < flag.rolloutPercentage := by omega
    simp [disabled, below]
  · have above : ¬(bucketOf digest flag.key subjectId : Int) < flag.rolloutPercentage := by omega
    simp [above]
  · simp [disabled]

/-- The key of a flag finds the entry of the flag. -/
theorem lookup_evaluate (digest : List Char → Nat) {database : FlagDatabase}
    (kept : database.Kept) {flag : FeatureFlag} (member : flag ∈ database.flags)
    (subjectId : List Char) :
    (evaluateFeatureFlags digest database flag.organizationId subjectId).lookup flag.key =
      some (flag.isEnabledFor digest subjectId) := by
  have own : flag ∈ database.flags.filter (·.organizationId = flag.organizationId) :=
    List.mem_filter.mpr ⟨member, by simp⟩
  have only : ∀ other ∈ database.flags.filter (·.organizationId = flag.organizationId),
      other.key = flag.key → other = flag := by
    intro other among same
    obtain ⟨there, organization⟩ := List.mem_filter.mp among
    apply kept.unique.eq FeatureFlag.conflicts_comm there member
    simp [FeatureFlag.conflicts, same, of_decide_eq_true organization]
  unfold evaluateFeatureFlags
  generalize database.flags.filter (·.organizationId = flag.organizationId) = flags at own only
  induction flags with
  | nil => cases own
  | cons first rest ih =>
    rw [List.map_cons, List.lookup_cons]
    by_cases same : first.key = flag.key
    · rw [only first List.mem_cons_self same]
      simp
    · have later : flag ∈ rest := by
        rcases List.mem_cons.mp own with rfl | later
        · exact absurd rfl same
        · exact later
      rw [beq_false_of_ne (Ne.symm same)]
      exact ih later fun other among => only other (List.mem_cons_of_mem _ among)

/-- What holds after any run of any number of commands. -/
theorem flagsKept (run : flagService.system.Run history world) : FlagsKept history world where
  tables := (flagOutline_holds run).invariant
  updates _ _ _ running := updateStands_of_run run running
  deletions _ _ running := deletionStands_of_run run running
  evaluated digest subjectId flag member := by
    have kept : world.shared.Kept := (flagOutline_holds run).invariant
    rw [lookup_evaluate digest kept member, isEnabledFor_eq digest (kept.rollouts flag member)]

/-- Two updates find one flag and change two fields.  Neither undoes the other, though the second
answer still shows what it has found. -/
theorem flagsKept_example :
    ∃ history world first second, flagService.system.Run history world ∧
      world.processes 1 = .running (.updated ⟨"org", "id", ⟨none, some true, none⟩⟩ first) ∧
      world.processes 2 =
        .running (.updated ⟨"org", "id", ⟨none, none, some (.integer 50)⟩⟩ second) ∧
      second.enabled = false ∧
      world.shared.flags.map (fun flag => (flag.enabled, flag.rolloutPercentage)) =
        [(true, 50)] ∧ FlagsKept history world := by
  have start : flagService.system.Run [] (SharedService.start ⟨["org"], []⟩) :=
    .start ⟨rfl, fun _ => rfl⟩
  have creation :=
    @TransitionSystem.Run.step _ _ _ _ _ _
      (.spawn 0 (.create ⟨"org", "new-flow".toList, none, none, none⟩ "id" 1)) start rfl
  have created := @TransitionSystem.Run.step _ _ _ _ _ _ (.advance 0 ⟨.done, 2⟩) creation rfl
  have enabling :=
    @TransitionSystem.Run.step _ _ _ _ _ _
      (.spawn 1 (.update ⟨"org", "id", ⟨none, some true, none⟩⟩)) created rfl
  have halving :=
    @TransitionSystem.Run.step _ _ _ _ _ _
      (.spawn 2 (.update ⟨"org", "id", ⟨none, none, some (.integer 50)⟩⟩)) enabling rfl
  have found := @TransitionSystem.Run.step _ _ _ _ _ _ (.advance 1 ⟨.done, 3⟩) halving rfl
  have both := @TransitionSystem.Run.step _ _ _ _ _ _ (.advance 2 ⟨.done, 4⟩) found rfl
  have enabled := @TransitionSystem.Run.step _ _ _ _ _ _ (.advance 1 ⟨.done, 5⟩) both rfl
  have halved := @TransitionSystem.Run.step _ _ _ _ _ _ (.advance 2 ⟨.done, 6⟩) enabled rfl
  exact ⟨_, _, _, _, halved, rfl, rfl, rfl, rfl, flagsKept halved⟩

end Runs

end NestjsFastify.FeatureFlags
