import NestjsFastify.RoleCommands

/-! # No escalation by commands on roles and API keys

What a command stores, the acting user holds while the command runs.  So no run of commands brings
about a permission that nobody in the organization held at the start.
-/
namespace NestjsFastify.Authorization

/-! ### What is stored -/

/-- The request writes the permission into a role or a key of the organization. -/
def CommandRequest.Stores (organizationId text : String) : CommandRequest → Prop
  | createRole role => role.organizationId = organizationId ∧
      text ∈ role.permissions.map Permission.text
  | updateRole role => role.organizationId = organizationId ∧
      text ∈ role.permissions.map Permission.text
  | createApiKey key => key.organizationId = organizationId ∧ text ∈ key.scopes
  | _ => False

/-- The user for whom a phase acts. -/
def CommandPhase.actor : CommandPhase → Option String
  | findingExisting command => some command.actorUserId
  | findingMembership use => some use.actor
  | findingCustomRoles use _ => some use.actor
  | checkingName command _ => some command.actorUserId
  | creatingRole command _ => some command.actorUserId
  | updatingRole command _ => some command.actorUserId
  | creatingKey command _ => some command.userId
  | deletingRole .. => none
  | returned => none
  | threw _ => none

/-- The permission is held in the organization: by a member, by a role that it has defined, or by an
API key. -/
def AuthorizationDatabase.Holds (database : AuthorizationDatabase) (organizationId : String)
    (permission : Permission) : Prop :=
  (∃ row ∈ database.members, row.organizationId = organizationId ∧
    permission ∈ resolvePermissions database.organizationRoles organizationId row.role) ∨
  (∃ row ∈ database.organizationRoles, row.organizationId = organizationId ∧
    permission ∈ row.granted) ∨
  ∃ key ∈ database.apiKeys, key.organizationId = organizationId ∧ permission.text ∈ key.scopes

abbrev CommandWorld : Type := SharedService.World AuthorizationDatabase CommandPhase

abbrev CommandEvent : Type := SharedService.Event CommandPhase StatementOutcome Empty

abbrev CommandHistory : Type := List (CommandWorld × CommandEvent)

section Runs
variable {isSpace : Char → Bool} {start : AuthorizationDatabase} {history : CommandHistory}
  {world : CommandWorld}

/-- At some moment of the history, the process was running and the user held the permission. -/
def HeldDuring (history : CommandHistory) (process : Nat)
    (organizationId actor text : String) : Prop :=
  ∃ moment ∈ history, (∃ phase, moment.1.processes process = .running phase) ∧
    text ∈ (moment.1.shared.heldBy organizationId actor).map Permission.text

theorem HeldDuring.cons {process : Nat} {organizationId actor text : String}
    (held : HeldDuring history process organizationId actor text)
    (entry : CommandWorld × CommandEvent) :
    HeldDuring (entry :: history) process organizationId actor text := by
  obtain ⟨moment, member, rest⟩ := held
  exact ⟨moment, List.mem_cons_of_mem _ member, rest⟩

/-! ### No command writes to the members -/

theorem members_executeCommand (database : AuthorizationDatabase) (request : CommandRequest) :
    (executeCommand isSpace database request).1.members = database.members := by
  cases request with
  | createRole role => simp only [executeCommand]; split <;> rfl
  | createApiKey key => simp only [executeCommand]; split <;> rfl
  | deleteUnlessHeld organizationId role =>
    simp only [executeCommand, deleteUnlessHeld]
    split_ifs <;> rfl
  | _ => rfl

theorem performCommand_cases {database after : AuthorizationDatabase} {request : CommandRequest}
    {outcome : StatementOutcome} {response : CommandResponse}
    (performed : performCommand isSpace database request outcome = some (after, response)) :
    (after = database ∧ response = .failed) ∨
      (after = (executeCommand isSpace database request).1 ∧
        (response = .failed ∨ response = (executeCommand isSpace database request).2)) := by
  cases outcome with
  | refused =>
    obtain ⟨rfl, rfl⟩ := Prod.mk.inj (Option.some.inj performed)
    exact .inl ⟨rfl, rfl⟩
  | lost =>
    obtain ⟨rfl, rfl⟩ := Prod.mk.inj (Option.some.inj performed)
    exact .inr ⟨rfl, .inl rfl⟩
  | done =>
    have both := Option.some.inj performed
    exact .inr ⟨by rw [both], .inr (by rw [both])⟩

theorem members_of_run (run : (commandService isSpace start).system.Run history world) :
    world.shared.members = start.members := by
  refine @TransitionSystem.Run.invariant _ _ _ _ _
    (fun world => world.shared.members = start.members) (fun state initial => by rw [initial.1])
    (fun before event after kept taken => ?_) run
  cases SharedService.step_cases taken with
  | spawn => exact kept
  | crash => exact kept
  | @external event => exact nomatch event
  | advance running requested performed =>
    rcases performCommand_cases performed with ⟨same, -⟩ | ⟨same, -⟩
    · rw [same]
      exact kept
    · rw [same, members_executeCommand]
      exact kept

/-! ### What the history shows of a command -/

/-- The role that an update has found is one of the organization. -/
def GrantUse.Fits : GrantUse → Prop
  | update command existing => existing.organizationId = command.organizationId
  | _ => True

/-- What the phase is about to store. -/
def CommandPhase.pending : CommandPhase → Option CommandRequest
  | checkingName _ role => some (.createRole role)
  | creatingRole _ role => some (.createRole role)
  | updatingRole _ role => some (.updateRole role)
  | creatingKey _ issued => some (.createApiKey issued.entity)
  | _ => none

theorem pending_of_stores {phase : CommandPhase} {request : CommandRequest}
    (requested : phase.request = some request) {organizationId text : String}
    (stores : request.Stores organizationId text) : phase.pending = some request := by
  cases phase <;> simp only [CommandPhase.request, Option.some.injEq, reduceCtorEq] at requested <;>
    subst requested <;> first | rfl | exact absurd stores not_false

def GrantUse.Of (use : GrantUse) : CommandPhase → Prop
  | .findingMembership other => use = other
  | .findingCustomRoles other _ => use = other
  | _ => False

structure CommandTrace (start : AuthorizationDatabase) (history : CommandHistory) (process : Nat)
    (phase : CommandPhase) : Prop where
  fits : ∀ use : GrantUse, use.Of phase → use.Fits
  membership : ∀ use rawRole, phase = .findingCustomRoles use rawRole →
    membershipRole start.members use.organizationId use.actor = some rawRole
  held : ∀ request, phase.pending = some request → ∀ organizationId text,
    request.Stores organizationId text →
      ∃ actor, phase.actor = some actor ∧ HeldDuring history process organizationId actor text

theorem CommandTrace.threw {process : Nat} (failure : Failure) :
    CommandTrace start history process (.threw failure) :=
  ⟨fun _ impossible => impossible.elim, fun _ _ impossible => (nomatch impossible),
    fun _ impossible => (nomatch impossible)⟩

theorem CommandTrace.returned {process : Nat} :
    CommandTrace start history process .returned :=
  ⟨fun _ impossible => impossible.elim, fun _ _ impossible => (nomatch impossible),
    fun _ impossible => (nomatch impossible)⟩

/-- What the entities let through is held. -/
theorem CommandTrace.proceed {process : Nat} {use : GrantUse} {granted : List Permission}
    (fits : use.Fits) (held : ∀ permission ∈ granted,
      HeldDuring history process use.organizationId use.actor permission.text) :
    CommandTrace start history process (use.proceed granted) := by
  cases use with
  | create command =>
    simp only [GrantUse.proceed]
    split
    next role created =>
      obtain ⟨here, -, within⟩ := OrganizationRole.create_ok created
      refine ⟨fun _ impossible => impossible.elim, fun _ _ impossible => (nomatch impossible), ?_⟩
      intro request pending organizationId text stores
      obtain rfl := Option.some.inj pending
      obtain ⟨rfl, member⟩ := stores
      obtain ⟨permission, own, rfl⟩ := List.mem_map.mp member
      exact ⟨_, rfl, here ▸ held permission (within permission own)⟩
    next => exact .threw _
  | update command existing =>
    simp only [GrantUse.proceed]
    split
    next role changed =>
      obtain ⟨here, -, within⟩ := OrganizationRole.withPermissions_ok changed
      refine ⟨fun _ impossible => impossible.elim, fun _ _ impossible => (nomatch impossible), ?_⟩
      intro request pending organizationId text stores
      obtain rfl := Option.some.inj pending
      obtain ⟨rfl, member⟩ := stores
      obtain ⟨permission, own, rfl⟩ := List.mem_map.mp member
      exact ⟨_, rfl, (here.trans fits) ▸ held permission (within permission own)⟩
    next => exact .threw _
  | issue command =>
    simp only [GrantUse.proceed]
    split
    next issued accepted =>
      obtain ⟨here, within⟩ := ApiKey.issue_ok accepted
      refine ⟨fun _ impossible => impossible.elim, fun _ _ impossible => (nomatch impossible), ?_⟩
      intro request pending organizationId text stores
      obtain rfl := Option.some.inj pending
      obtain ⟨rfl, member⟩ := stores
      obtain ⟨permission, own, rfl⟩ := within text member
      exact ⟨_, rfl, here ▸ held permission own⟩
    next => exact .threw _

theorem CommandTrace.cons {process : Nat} {phase : CommandPhase}
    (trace : CommandTrace start history process phase) (entry : CommandWorld × CommandEvent) :
    CommandTrace start (entry :: history) process phase where
  fits := trace.fits
  membership := trace.membership
  held request pending organizationId text stores := by
    obtain ⟨actor, acts, held⟩ := trace.held request pending organizationId text stores
    exact ⟨actor, acts, held.cons entry⟩

/-- The permissions that the adapter has resolved are held when its last statement is carried
out. -/
theorem heldDuring_now {process : Nat} {phase : CommandPhase} {event : CommandEvent}
    (run : (commandService isSpace start).system.Run history world)
    (running : world.processes process = .running phase) {organizationId actor : String}
    {rawRole : List Char} (member : membershipRole start.members organizationId actor = some rawRole)
    {permission : Permission} (resolved : permission ∈
      resolvePermissions world.shared.organizationRoles organizationId rawRole) :
    HeldDuring ((world, event) :: history) process organizationId actor permission.text := by
  refine ⟨(world, event), List.mem_cons_self, ⟨phase, running⟩, List.mem_map_of_mem ?_⟩
  simp only [AuthorizationDatabase.heldBy, memberPermissions, members_of_run run, member]
  exact resolved

theorem CommandTrace.resume {process : Nat} {phase : CommandPhase} {event : CommandEvent}
    (run : (commandService isSpace start).system.Run history world)
    (running : world.processes process = .running phase)
    (trace : CommandTrace start history process phase) {request : CommandRequest}
    (requested : phase.request = some request) :
    CommandTrace start ((world, event) :: history) process
      (phase.resume (executeCommand isSpace world.shared request).2) := by
  have members := members_of_run run
  cases phase with
  | returned => simp [CommandPhase.request] at requested
  | threw => simp [CommandPhase.request] at requested
  | findingExisting command =>
    obtain rfl := Option.some.inj requested
    simp only [executeCommand, CommandPhase.resume]
    cases found : world.shared.organizationRoles.find?
        (·.isNamed command.organizationId command.role) with
    | none => exact .threw _
    | some row =>
      have named := List.find?_some found
      simp only [OrganizationRoleRow.isNamed, decide_eq_true_eq] at named
      simp only [CommandPhase.resumeExisting]
      split
      · exact .threw _
      · refine ⟨?_, fun _ _ impossible => (by cases impossible),
          fun _ impossible => (by cases impossible)⟩
        rintro _ rfl
        exact named.1
  | findingMembership use =>
    obtain rfl := Option.some.inj requested
    have fits := trace.fits use rfl
    simp only [executeCommand, CommandPhase.resume, members]
    cases member : membershipRole start.members use.organizationId use.actor with
    | none => exact .proceed fits fun _ impossible => absurd impossible List.not_mem_nil
    | some rawRole =>
      simp only [CommandPhase.resumeMembership]
      split_ifs with onlySystem
      · refine .proceed fits fun permission granted => heldDuring_now run running member ?_
        rwa [resolvePermissions, if_pos onlySystem]
      · refine ⟨?_, ?_, fun _ impossible => (by cases impossible)⟩
        · rintro _ rfl
          exact fits
        · rintro _ _ same
          obtain ⟨rfl, rfl⟩ := CommandPhase.findingCustomRoles.inj same
          exact member
  | findingCustomRoles use rawRole =>
    obtain rfl := Option.some.inj requested
    refine .proceed (trace.fits use rfl) fun permission granted =>
      heldDuring_now run running (trace.membership use rawRole rfl) ?_
    unfold resolvePermissions
    split_ifs with onlySystem
    · rw [onlySystem] at granted
      simpa [findCustomRoles] using granted
    · exact granted
  | checkingName command role =>
    obtain rfl := Option.some.inj requested
    simp only [executeCommand, CommandPhase.resume]
    cases world.shared.organizationRoles.find? (·.isNamed command.organizationId role.role) with
    | none =>
      refine ⟨fun _ impossible => impossible.elim, fun _ _ impossible => (by cases impossible), ?_⟩
      intro request pending organizationId text stores
      obtain ⟨actor, acts, held⟩ := trace.held request pending organizationId text stores
      exact ⟨actor, acts, held.cons _⟩
    | some row =>
      simp only [CommandPhase.resumeName]
      split <;> exact .threw _
  | creatingRole command role =>
    obtain rfl := Option.some.inj requested
    simp only [executeCommand]
    split
    · exact .returned
    · exact .threw _
  | updatingRole command role =>
    obtain rfl := Option.some.inj requested
    simp only [executeCommand, CommandPhase.resume]
    split_ifs
    · exact .returned
    · exact .threw _
  | creatingKey command issued =>
    obtain rfl := Option.some.inj requested
    simp only [executeCommand]
    split
    · exact .returned
    · exact .threw _
  | deletingRole organizationId role =>
    obtain rfl := Option.some.inj requested
    simp only [executeCommand, CommandPhase.resume]
    cases (deleteUnlessHeld isSpace world.shared organizationId role).2 with
    | deleted => exact .returned
    | inUse => exact .threw _
    | notFound => exact .threw _

theorem commandTrace_of_run (run : (commandService isSpace start).system.Run history world)
    {process : Nat} {phase : CommandPhase} (running : world.processes process = .running phase) :
    CommandTrace start history process phase := by
  refine SharedService.traced (CommandTrace start) ?spawned ?resumed
    (fun entry _ _ _ trace => trace.cons entry) run running
  case spawned =>
    intro history world process phase run admitted
    have begins : phase.isStart = true := admitted
    cases phase with
    | findingExisting command =>
      exact ⟨fun _ impossible => impossible.elim, fun _ _ impossible => (nomatch impossible),
        fun _ impossible => (nomatch impossible)⟩
    | findingMembership use =>
      refine ⟨?_, fun _ _ impossible => (nomatch impossible),
        fun _ impossible => (nomatch impossible)⟩
      rintro other rfl
      cases other with
      | update => exact absurd begins Bool.false_ne_true
      | create => exact trivial
      | issue => exact trivial
    | deletingRole organizationId role =>
      exact ⟨fun _ impossible => impossible.elim, fun _ _ impossible => (nomatch impossible),
        fun _ impossible => (nomatch impossible)⟩
    | _ => exact absurd begins Bool.false_ne_true
  case resumed =>
    intro history world process oracle phase request after response run running requested
      performed trace
    have failing : CommandTrace start ((world, .advance process oracle) :: history) process
        (phase.resume .failed) := by
      cases phase <;> exact .threw _
    rcases performCommand_cases performed with ⟨-, rfl⟩ | ⟨-, rfl | rfl⟩
    · exact failing
    · exact failing
    · exact trace.resume run running requested

/-! ### What an organization holds -/

/-- The roles that members have among the roles of the organization add nothing to the latter. -/
theorem holds_iff {database : AuthorizationDatabase} {organizationId : String}
    {permission : Permission} :
    database.Holds organizationId permission ↔
      (∃ row ∈ database.members, row.organizationId = organizationId ∧
        ∃ role ∈ splitRoles row.role, permission ∈ systemPermissionsOf role) ∨
      (∃ row ∈ database.organizationRoles, row.organizationId = organizationId ∧
        permission ∈ row.granted) ∨
      ∃ key ∈ database.apiKeys, key.organizationId = organizationId ∧
        permission.text ∈ key.scopes := by
  constructor
  · rintro (⟨row, member, here, resolved⟩ | others)
    · rcases mem_resolvePermissions.mp resolved with system | ⟨custom, own, there, -, -, granted⟩
      · exact .inl ⟨row, member, here, system⟩
      · exact .inr (.inl ⟨custom, own, there, granted⟩)
    · exact .inr others
  · rintro (⟨row, member, here, system⟩ | others)
    · exact .inl ⟨row, member, here, mem_resolvePermissions.mpr (.inl system)⟩
    · exact .inr others

/-- What a user holds is held in the organization. -/
theorem holds_of_heldBy {database : AuthorizationDatabase} {organizationId actor : String}
    {permission : Permission} (held : permission ∈ database.heldBy organizationId actor) :
    database.Holds organizationId permission := by
  unfold AuthorizationDatabase.heldBy memberPermissions membershipRole at held
  cases found : database.members.find? fun row =>
      row.organizationId = organizationId ∧ row.userId = actor with
  | none => simp only [found, Option.map_none, Option.getD_none, List.not_mem_nil] at held
  | some row =>
    have same := List.find?_some found
    simp only [decide_eq_true_eq] at same
    simp only [found, Option.map_some, Option.getD_some] at held
    exact .inl ⟨row, List.mem_of_find?_eq_some found, same.1, held⟩

theorem mem_roles_executeCommand {database : AuthorizationDatabase} {request : CommandRequest}
    {row : OrganizationRoleRow}
    (member : row ∈ (executeCommand isSpace database request).1.organizationRoles) :
    row ∈ database.organizationRoles ∨ ∃ role : OrganizationRole,
      (request = .createRole role ∨ request = .updateRole role) ∧
        role.organizationId = row.organizationId ∧ row.granted = role.toRow.granted := by
  cases request with
  | createRole role =>
    simp only [executeCommand] at member
    split at member
    next rows inserted =>
      rcases (RecordTable.mem_insertMany inserted).mp member with old | new
      · exact .inl old
      · obtain rfl := List.mem_singleton.mp new
        exact .inr ⟨role, .inl rfl, rfl, rfl⟩
    next => exact .inl member
  | updateRole role =>
    obtain ⟨old, own, rfl⟩ := RecordTable.mem_updateMany.mp member
    split_ifs with named
    · simp only [OrganizationRoleRow.isNamed, decide_eq_true_eq] at named
      exact .inr ⟨role, .inr rfl, named.1.symm, rfl⟩
    · exact .inl own
  | createApiKey key =>
    simp only [executeCommand] at member
    split at member <;> exact .inl member
  | deleteUnlessHeld organizationId name =>
    simp only [executeCommand, deleteUnlessHeld] at member
    split_ifs at member
    · exact .inl member
    · exact .inl (RecordTable.mem_deleteMany.mp member).1
    · exact .inl member
  | _ => exact .inl member

theorem mem_keys_executeCommand {database : AuthorizationDatabase} {request : CommandRequest}
    {key : ApiKey} (member : key ∈ (executeCommand isSpace database request).1.apiKeys) :
    key ∈ database.apiKeys ∨ request = .createApiKey key := by
  cases request with
  | createApiKey issued =>
    simp only [executeCommand] at member
    split at member
    next rows inserted =>
      rcases (RecordTable.mem_insertMany inserted).mp member with old | new
      · exact .inl old
      · obtain rfl := List.mem_singleton.mp new
        exact .inr rfl
    next => exact .inl member
  | createRole role =>
    simp only [executeCommand] at member
    split at member <;> exact .inl member
  | deleteUnlessHeld organizationId name =>
    simp only [executeCommand, deleteUnlessHeld] at member
    split_ifs at member <;> exact .inl member
  | _ => exact .inl member

/-- A statement adds to what an organization holds only what it stores. -/
theorem holds_executeCommand {database : AuthorizationDatabase} {request : CommandRequest}
    {organizationId : String} {permission : Permission}
    (held : (executeCommand isSpace database request).1.Holds organizationId permission) :
    database.Holds organizationId permission ∨ request.Stores organizationId permission.text := by
  rw [holds_iff, members_executeCommand] at held
  rw [holds_iff]
  rcases held with system | ⟨row, own, here, granted⟩ | ⟨key, own, here, scope⟩
  · exact .inl (.inl system)
  · rcases mem_roles_executeCommand own with old | ⟨role, stored, same, grants⟩
    · exact .inl (.inr (.inl ⟨row, old, here, granted⟩))
    · refine .inr ?_
      have member : permission ∈ role.permissions := mem_granted_toRow.mp (grants ▸ granted)
      rcases stored with rfl | rfl <;> exact ⟨same.trans here, List.mem_map_of_mem member⟩
  · rcases mem_keys_executeCommand own with old | rfl
    · exact .inl (.inr (.inr ⟨key, old, here, scope⟩))
    · exact .inr ⟨here, scope⟩

/-! ### No escalation -/

/-- What a command stores was held by its actor at a moment at which the command was running, and a
permission that nobody in an organization held at the start is not held there. -/
structure NoEscalation (start : AuthorizationDatabase) (history : CommandHistory)
    (world : CommandWorld) : Prop where
  stored : ∀ later earlier before process oracle phase request,
    history = later ++ (before, .advance process oracle) :: earlier →
    before.processes process = .running phase → phase.request = some request →
    ∀ organizationId text, request.Stores organizationId text →
      ∃ actor, phase.actor = some actor ∧ HeldDuring earlier process organizationId actor text
  contained : ∀ organizationId permission, ¬ start.Holds organizationId permission →
    ¬ world.shared.Holds organizationId permission

/-- A request that stores a permission follows a moment at which its actor held it. -/
theorem heldDuring_of_stores (run : (commandService isSpace start).system.Run history world)
    {process : Nat} {phase : CommandPhase} (running : world.processes process = .running phase)
    {request : CommandRequest} (requested : phase.request = some request)
    {organizationId text : String} (stores : request.Stores organizationId text) :
    ∃ actor, phase.actor = some actor ∧ HeldDuring history process organizationId actor text :=
  (commandTrace_of_run run running).held request (pending_of_stores requested stores)
    organizationId text stores

/-- In no state of a run is anything held that was not held at the start. -/
theorem not_holds_of_run (run : (commandService isSpace start).system.Run history world)
    {organizationId : String} {permission : Permission}
    (unheld : ¬ start.Holds organizationId permission) :
    (∀ moment ∈ history, ¬ moment.1.shared.Holds organizationId permission) ∧
      ¬ world.shared.Holds organizationId permission := by
  induction run with
  | start initial =>
    have same : _ = start := initial.1
    exact ⟨fun _ impossible => absurd impossible List.not_mem_nil, by rwa [same]⟩
  | @step history before after event run taken ih =>
    refine ⟨fun moment member => ?_, fun held => ?_⟩
    · rcases List.mem_cons.mp member with rfl | earlier
      · exact ih.2
      · exact ih.1 moment earlier
    cases SharedService.step_cases taken with
    | spawn => exact ih.2 held
    | crash => exact ih.2 held
    | @external event => exact nomatch event
    | advance running requested performed =>
      rcases performCommand_cases performed with ⟨rfl, -⟩ | ⟨rfl, -⟩
      · exact ih.2 held
      rcases holds_executeCommand held with before | stores
      · exact ih.2 before
      -- the actor held it earlier, so the organization did
      obtain ⟨actor, -, moment, member, -, text⟩ := heldDuring_of_stores run running requested stores
      obtain ⟨other, own, same⟩ := List.mem_map.mp text
      obtain rfl := Permission.text_injective same
      exact ih.1 moment member (holds_of_heldBy own)

/-- No interleaving of commands escalates privileges. -/
theorem noEscalation_of_run (isSpace : Char → Bool) (start : AuthorizationDatabase)
    (history : CommandHistory) (world : CommandWorld)
    (run : (commandService isSpace start).system.Run history world) :
    NoEscalation start history world where
  stored _ _ _ _ _ _ _ split running requested _ _ stores :=
    heldDuring_of_stores (run.before split) running requested stores
  contained _ _ unheld := (not_holds_of_run run unheld).2

end Runs

/-- The owner of an organization issues a key with one of its permissions. -/
theorem noEscalation_example : ∃ history world,
    NoEscalation ⟨[⟨"org", "user", "owner".toList⟩], [], []⟩ history world ∧
      world.shared.apiKeys.map ApiKey.scopes = [["file:read"]] := by
  obtain ⟨history, world, run, -, -, issued⟩ := @TransitionSystem.run_of_execute _ _
    (commandService Char.isWhitespace _).system (fun _ _ => true) (fun _ _ => True)
    (fun _ _ _ => trivial) (SharedService.start ⟨[⟨"org", "user", "owner".toList⟩], [], []⟩)
    [.spawn 0 (.findingMembership (.issue
      ⟨"org", "user", "key".toList, ["file:read"], none, ⟨"raw", "prefix", "hash"⟩, 0⟩)),
      .advance 0 .done, .advance 0 .done]
    (fun world => world.shared.apiKeys.map ApiKey.scopes = [["file:read"]])
    ⟨rfl, fun _ => rfl⟩ (by decide)
  exact ⟨history, world, noEscalation_of_run _ _ _ _ run, of_decide_eq_true issued⟩

end NestjsFastify.Authorization
