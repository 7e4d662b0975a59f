import NestjsFastify.PersonalOrganizationRuns

/-! # Personal organizations among other memberships

Meanwhile users join organizations of others, and of several equally old memberships the database
may pick another one for each query.  A user is still given no second organization.
-/
namespace NestjsFastify.PersonalOrganization

/-- A statement of a command, whose query picks among equally old rows in its own way, or a
membership that comes from elsewhere. -/
inductive Event where
  | act (earliest : EarliestFirst) (action : Action)
  | join (member : Member)

/-- The row of an accepted invitation; a user is a member of an organization once. -/
def Database.join (database : Database) (member : Member) : Option Database :=
  if database.members.any fun other =>
      other.organizationId = member.organizationId && other.userId = member.userId then none
  else some { database with members := database.members ++ [member] }

def State.happen (hashtextextended : String → Int) (state : State) : Event → Option State
  | .act earliest action => state.step earliest hashtextextended action
  | .join member => (state.database.join member).map fun database => { state with database }

def openSystem (hashtextextended : String → Int) (before : Database) :
    TransitionSystem State Event where
  initial state := state = { database := before }
  step := State.happen hashtextextended

variable {hashtextextended : String → Int} {earliest : EarliestFirst} {state after : State}
  {action : Action} {before database : Database} {created : List Workspace} {joined : List Member}

/-! ### Rows -/

/-- The database has the rows from before, those of the workspaces and the memberships from
elsewhere. -/
structure Grown (before database : Database) (created : List Workspace) (joined : List Member) :
    Prop where
  users : database.users = before.users
  organizations : database.organizations =
    before.organizations ++ created.map Workspace.organization
  members : database.members.Perm (before.members ++ (created.map Workspace.owner ++ joined))

theorem mem_memberships {member : Member} {userId : String} :
    member ∈ database.memberships userId ↔
      member ∈ database.members ∧ member.userId = userId := by
  rw [Database.memberships, List.mem_filter, decide_eq_true_iff]

/-- Where a membership comes from. -/
theorem Grown.mem (grown : Grown before database created joined) {member : Member}
    {userId : String} : member ∈ database.memberships userId ↔
      member ∈ before.memberships userId ∨
        (∃ workspace ∈ created, workspace.userId = userId ∧ workspace.owner = member) ∨
        member ∈ joined ∧ member.userId = userId := by
  rw [mem_memberships, grown.members.mem_iff, List.mem_append, List.mem_append, mem_memberships,
    List.mem_map]
  constructor
  · rintro ⟨old | ⟨workspace, among, rfl⟩ | other, rfl⟩
    · exact .inl ⟨old, rfl⟩
    · exact .inr (.inl ⟨workspace, among, rfl, rfl⟩)
    · exact .inr (.inr ⟨other, rfl⟩)
  · rintro (⟨old, rfl⟩ | ⟨workspace, among, rfl, rfl⟩ | ⟨other, rfl⟩)
    · exact ⟨.inl old, rfl⟩
    · exact ⟨.inr (.inl ⟨workspace, among, rfl⟩), rfl⟩
    · exact ⟨.inr (.inr other), rfl⟩

theorem Grown.add (grown : Grown before database created joined) (workspace : Workspace) :
    Grown before (database.add [workspace]) (created ++ [workspace]) joined where
  users := grown.users
  organizations := by
    rw [Database.add, grown.organizations, List.map_append, List.append_assoc]
  members := by
    rw [Database.add, List.map_append, List.append_assoc (created.map Workspace.owner)]
    refine (grown.members.append_right _).trans ?_
    rw [List.append_assoc, List.append_assoc]
    exact (List.perm_append_comm.append_left _).append_left _

theorem Grown.join (grown : Grown before database created joined) (member : Member) :
    Grown before { database with members := database.members ++ [member] } created
      (joined ++ [member]) where
  users := grown.users
  organizations := grown.organizations
  members := by
    refine (grown.members.append_right _).trans ?_
    rw [List.append_assoc, List.append_assoc]

/-! ### What a command knows -/

/-- The run has given the user nothing yet. -/
def Unserved (before : Database) (created : List Workspace) (userId : String) : Prop :=
  before.memberships userId = [] ∧ ∀ workspace ∈ created, workspace.userId ≠ userId

/-- An organization of the user, none of whose memberships from before is older. -/
def Answers (before database : Database) (userId organizationId : String) : Prop :=
  ∃ member ∈ database.memberships userId, member.organizationId = organizationId ∧
    ∀ other ∈ before.memberships userId, member.createdAt ≤ other.createdAt

/-- What a phase knows, whoever else writes memberships. -/
def Phase.Known (before database : Database) (created : List Workspace) (userId : String) :
    Phase → Prop
  | creatingOrganization .. | creatingMember _ => Unserved before created userId
  | committing (some workspace) organizationId => Unserved before created userId ∧
      workspace.userId = userId ∧ workspace.organization.id = organizationId
  | committing none organizationId | returned organizationId =>
      Answers before database userId organizationId
  | rejected => before.users.find? (·.id = userId) = none
  | _ => True

/-- What holds between any two events. -/
structure OpenInvariant (hashtextextended : String → Int) (before : Database) (state : State)
    (created : List Workspace) (joined : List Member) : Prop where
  locks : LocksHeld hashtextextended state.locks state.commands
  slugs : SlugsUnused state.slugs state.database.slugs state.commands
  grown : Grown before state.database created joined
  provisioned : Provisioned before created
  known : ∀ command userId phase, state.commands command = some ⟨userId, phase⟩ →
    phase.Known before state.database created userId

theorem Answers.mono {next : Database} {userId organizationId : String}
    (answers : Answers before database userId organizationId)
    (kept : ∀ member ∈ database.members, member ∈ next.members) :
    Answers before next userId organizationId := by
  obtain ⟨member, own, same, least⟩ := answers
  obtain ⟨among, user⟩ := mem_memberships.mp own
  exact ⟨member, mem_memberships.mpr ⟨kept member among, user⟩, same, least⟩

/-- Memberships that come from elsewhere take nothing away. -/
theorem Phase.Known.mono {next : Database} {userId : String} {phase : Phase}
    (known : phase.Known before database created userId)
    (kept : ∀ member ∈ database.members, member ∈ next.members) :
    phase.Known before next created userId := by
  cases phase with
  | committing written organizationId =>
    cases written with
    | none => exact Answers.mono known kept
    | some workspace => exact known
  | returned organizationId => exact Answers.mono known kept
  | creatingOrganization name slug => exact known
  | creatingMember organization => exact known
  | rejected => exact known
  | _ => trivial

/-- What a query of the memberships answers. -/
theorem Grown.answers (grown : Grown before database created joined)
    {userId organizationId : String}
    (answer : database.findFirstOrganizationId earliest userId = some organizationId) :
    Answers before database userId organizationId := by
  obtain ⟨member, found, rfl⟩ := Option.map_eq_some_iff.mp answer
  refine ⟨member, earliest.mem _ _ found, rfl, ?_⟩
  intro other old
  exact earliest.least _ _ found other (grown.mem.mpr (.inl old))

theorem Grown.unserved (grown : Grown before database created joined) {userId : String}
    (answer : database.findFirstOrganizationId earliest userId = none) :
    Unserved before created userId := by
  have empty := Database.findFirst_eq_none.mp answer
  constructor
  · rw [List.eq_nil_iff_forall_not_mem] at empty ⊢
    intro member old
    exact empty member (grown.mem.mpr (.inl old))
  · rintro workspace member rfl
    rw [List.eq_nil_iff_forall_not_mem] at empty
    exact empty workspace.owner (grown.mem.mpr (.inr (.inl ⟨workspace, member, rfl, rfl⟩)))

theorem OpenInvariant.put (invariant : OpenInvariant hashtextextended before state created joined)
    {command : Nat} {userId : String} {next : Phase}
    (own : next.Known before state.database created userId) :
    ∀ other userId' phase',
      Function.update state.commands command (some ⟨userId, next⟩) other =
        some ⟨userId', phase'⟩ → phase'.Known before state.database created userId' := by
  intro other userId' phase' now
  rcases update_command now with ⟨-, rfl, rfl⟩ | ⟨-, old⟩
  · exact own
  · exact invariant.known _ _ _ old

/-- A new workspace matters to its own user only. -/
theorem Phase.Known.add {userId : String} {phase : Phase} {workspace : Workspace}
    (known : phase.Known before database created userId)
    (other : workspace.userId ≠ userId ∨ phase.locked = false) :
    phase.Known before (database.add [workspace]) (created ++ [workspace]) userId := by
  have kept : ∀ member ∈ database.members, member ∈ (database.add [workspace]).members :=
    fun member own => List.mem_append_left _ own
  have unserved : workspace.userId ≠ userId → Unserved before created userId →
      Unserved before (created ++ [workspace]) userId := by
    rintro different ⟨empty, absent⟩
    refine ⟨empty, fun another member => ?_⟩
    rcases List.mem_append.mp member with old | new
    · exact absent another old
    · rw [List.mem_singleton.mp new]
      exact different
  have different : phase.locked = true → workspace.userId ≠ userId := by
    intro locked
    exact other.resolve_right (by simp [locked])
  cases phase with
  | creatingOrganization name slug => exact unserved (different rfl) known
  | creatingMember organization => exact unserved (different rfl) known
  | committing written organizationId =>
    cases written with
    | none => exact Answers.mono known kept
    | some own => exact ⟨unserved (different rfl) known.1, known.2⟩
  | returned organizationId => exact Answers.mono known kept
  | rejected => exact known
  | _ => trivial

/-- What a commit brings about. -/
theorem OpenInvariant.commit
    (invariant : OpenInvariant hashtextextended before state created joined) {command : Nat}
    {userId organizationId : String} {workspace : Workspace}
    (current : state.commands command =
      some ⟨userId, .committing (some workspace) organizationId⟩) :
    Provisioned before (created ++ [workspace]) ∧
      ∀ other userId' phase', Function.update state.commands command
          (some ⟨userId, .returned organizationId⟩) other = some ⟨userId', phase'⟩ →
        phase'.Known before (state.database.add [workspace]) (created ++ [workspace]) userId' := by
  obtain ⟨⟨empty, absent⟩, rfl, rfl⟩ := invariant.known _ _ _ current
  constructor
  · apply invariant.provisioned.append
    rw [Database.memberships_add, empty, List.nil_append, List.map_eq_nil_iff,
      List.filter_eq_nil_iff]
    intro other member
    simpa using absent other member
  · intro other userId' phase' now
    rcases update_command now with ⟨-, rfl, rfl⟩ | ⟨different, old⟩
    · refine ⟨workspace.owner, ?_, rfl, ?_⟩
      · rw [Database.memberships_add]
        simp
      · intro member old
        rw [empty] at old
        cases old
    · refine (invariant.known _ _ _ old).add ?_
      by_cases user : workspace.userId = userId'
      · right
        by_contra locked
        rw [Bool.not_eq_false] at locked
        subst user
        exact different (invariant.locks.exclusive old locked current rfl)
      · exact .inl user

/-- What an event keeps. -/
theorem OpenInvariant.act (invariant : OpenInvariant hashtextextended before state created joined)
    (taken : Step earliest hashtextextended state action after) :
    ∃ more, OpenInvariant hashtextextended before after (created ++ more) joined := by
  have locks := invariant.locks.step taken
  have slugs := invariant.slugs.step taken
  have unchanged : after.database = state.database →
      (∀ command userId phase, after.commands command = some ⟨userId, phase⟩ →
        phase.Known before state.database created userId) →
      ∃ more, OpenInvariant hashtextextended before after (created ++ more) joined := by
    intro same known
    refine ⟨[], locks, slugs, ?_, ?_, ?_⟩
    · rw [same, List.append_nil]
      exact invariant.grown
    · rw [List.append_nil]
      exact invariant.provisioned
    · rw [same, List.append_nil]
      exact known
  cases taken with
  | start => exact unchanged rfl (invariant.put trivial)
  | found _ answer => exact unchanged rfl (invariant.put (invariant.grown.answers answer))
  | missing => exact unchanged rfl (invariant.put trivial)
  | unknown _ noUser =>
    rw [invariant.grown.users] at noUser
    exact unchanged rfl (invariant.put noUser)
  | named => exact unchanged rfl (invariant.put trivial)
  | lock => exact unchanged rfl (invariant.put trivial)
  | existing _ answer => exact unchanged rfl (invariant.put (invariant.grown.answers answer))
  | vacant _ answer => exact unchanged rfl (invariant.put (invariant.grown.unserved answer))
  | conflict current used => exact absurd used (invariant.slugs.unused _ _ _ _ current rfl).2
  | organization current =>
    have unserved := invariant.known _ _ _ current
    exact unchanged rfl (invariant.put unserved)
  | member current =>
    have unserved := invariant.known _ _ _ current
    exact unchanged rfl (invariant.put ⟨unserved, rfl, rfl⟩)
  | @commit command generated userId organizationId written current =>
    cases written with
    | none =>
      have answers := invariant.known _ _ _ current
      exact unchanged (Database.add_nil _) (invariant.put answers)
    | some workspace =>
      obtain ⟨provisioned, known⟩ := invariant.commit current
      exact ⟨[workspace], locks, slugs, invariant.grown.add workspace, provisioned, known⟩
  | abort => exact unchanged rfl (invariant.put trivial)

theorem OpenInvariant.join (invariant : OpenInvariant hashtextextended before state created joined)
    (member : Member) :
    OpenInvariant hashtextextended before
      { state with
        database := { state.database with members := state.database.members ++ [member] } }
      created (joined ++ [member]) where
  locks := invariant.locks
  slugs := invariant.slugs
  grown := invariant.grown.join member
  provisioned := invariant.provisioned
  known command userId phase current :=
    (invariant.known command userId phase current).mono fun _ own => List.mem_append_left _ own

/-! ### Every run -/

section Runs
variable {history : List (State × Event)}

/-- The memberships that came from elsewhere, in their order. -/
def joinedOf : List (State × Event) → List Member
  | [] => []
  | (_, .join member) :: history => joinedOf history ++ [member]
  | (_, .act _ _) :: history => joinedOf history

/-- The event is one of the command's. -/
def Event.isOf (command : Nat) : Event → Bool
  | act _ action => action.command = command
  | join _ => false

theorem Event.isOf_act {command : Nat} :
    (act earliest action).isOf command = true ↔ action.command = command :=
  decide_eq_true_iff

theorem openInvariant_of_run (run : (openSystem hashtextextended before).Run history state) :
    ∃ created, OpenInvariant hashtextextended before state created (joinedOf history) := by
  induction run with
  | start initial =>
    obtain rfl := initial
    refine ⟨[], ⟨?_, ?_⟩, ⟨?_, ?_⟩, ⟨rfl, ?_, ?_⟩, ⟨List.nodup_nil, ?_⟩, ?_⟩ <;>
      simp [joinedOf]
  | @step history current next event run taken ih =>
    obtain ⟨created, invariant⟩ := ih
    cases event with
    | act earliest action =>
      obtain ⟨more, invariant⟩ := invariant.act (step_cases taken)
      exact ⟨_, invariant⟩
    | join member =>
      obtain ⟨database, added, rfl⟩ := Option.map_eq_some_iff.mp taken
      unfold Database.join at added
      split_ifs at added
      obtain rfl := Option.some.inj added
      exact ⟨created, invariant.join member⟩

/-- A command takes at most eight steps, its start among them. -/
theorem events_le (run : (openSystem hashtextextended before).Run history state) (command : Nat) :
    history.countP (·.2.isOf command) ≤ rankOf (state.commands command) := by
  induction run with
  | start => simp
  | @step history current next event run taken ih =>
    rw [List.countP_cons]
    cases event with
    | join member =>
      obtain ⟨database, -, rfl⟩ := Option.map_eq_some_iff.mp taken
      exact ih
    | act earliest action =>
      obtain ⟨less, others⟩ := moved_of_step (step_cases taken)
      by_cases own : action.command = command
      · subst own
        rw [if_pos (Event.isOf_act.mpr rfl)]
        omega
      · rw [others command (Ne.symm own), if_neg (Event.isOf_act.not.mpr own)]
        exact ih

/-- When no command can go on, all have ended. -/
theorem finished_of_settled (locks : LocksHeld hashtextextended state.locks state.commands)
    (settled : Settled .insertionOrder hashtextextended state) {command : Nat} {userId : String}
    {phase : Phase} (current : state.commands command = some ⟨userId, phase⟩) :
    phase.finished = true := by
  have ended : ∀ {command userId phase}, state.commands command = some ⟨userId, phase⟩ →
      phase.locked = true ∨ state.locks (hashtextextended userId) = none →
      phase.finished = true := by
    intro command userId phase current free
    by_contra unfinished
    obtain ⟨generated, goes⟩ := @exists_advance .insertionOrder _ _ _ _ _ current
      ((Bool.not_eq_true _).mp unfinished) free
    exact goes (settled command generated)
  cases lock : state.locks (hashtextextended userId) with
  | none => exact ended current (.inr lock)
  | some holder =>
    obtain ⟨userId', phase', current', locked, -⟩ := locks.held _ _ lock
    have last := ended current' (.inl locked)
    cases phase' <;> simp [Phase.locked, Phase.finished] at locked last

theorem aborted_of_events (run : (openSystem hashtextextended before).Run history state)
    {command : Nat} {userId : String} (now : state.commands command = some ⟨userId, .aborted⟩) :
    ∃ entry ∈ history, ∃ earliest, entry.2 = .act earliest (.abort command) := by
  induction run with
  | start initial =>
    obtain rfl := initial
    cases now
  | @step history current next event run taken ih =>
    have later : current.commands command = some ⟨userId, .aborted⟩ →
        ∃ entry ∈ (current, event) :: history, ∃ earliest,
          entry.2 = .act earliest (.abort command) := by
      intro old
      obtain ⟨entry, member, aborts⟩ := ih old
      exact ⟨entry, List.mem_cons_of_mem _ member, aborts⟩
    cases event with
    | join member =>
      obtain ⟨database, -, rfl⟩ := Option.map_eq_some_iff.mp taken
      exact later now
    | act earliest action =>
      rcases aborted_of_step (step_cases taken) now with old | rfl
      · exact later old
      · exact ⟨_, List.mem_cons_self, earliest, rfl⟩

/-- What a run has done for a user.  Whoever has joined nothing meanwhile gets one answer only: its
own workspace, or a membership than which none is older. -/
structure ServedOnce (hashtextextended : String → Int) (before : Database)
    (history : List (State × Event)) (state : State) (created : List Workspace)
    (userId : String) : Prop where
  atMostOne : (created.filter (·.userId = userId)).length ≤ 1
  noneAdded : before.memberships userId ≠ [] → created.filter (·.userId = userId) = []
  answers : ∀ command organizationId,
    state.commands command = some ⟨userId, .returned organizationId⟩ →
    Answers before state.database userId organizationId
  ownWorkspace : before.memberships userId = [] → (∀ member ∈ joinedOf history,
      member.userId ≠ userId) → ∀ command organizationId,
    state.commands command = some ⟨userId, .returned organizationId⟩ →
    ∃ workspace, created.filter (·.userId = userId) = [workspace] ∧
      workspace.organization.id = organizationId
  oldMembership : before.memberships userId ≠ [] → (∀ member ∈ joinedOf history,
      member.userId ≠ userId) → ∀ command organizationId,
    state.commands command = some ⟨userId, .returned organizationId⟩ →
    ∃ member ∈ before.memberships userId, member.organizationId = organizationId ∧
      ∀ other ∈ before.memberships userId, member.createdAt ≤ other.createdAt
  allReturn : Settled .insertionOrder hashtextextended state →
    (before.users.find? (·.id = userId)).isSome = true →
    ∀ command phase, state.commands command = some ⟨userId, phase⟩ →
      (∀ entry ∈ history, ∀ earliest, entry.2 ≠ .act earliest (.abort command)) →
      ∃ organizationId, phase = .returned organizationId

/-- The workspace that a user without other memberships is answered with. -/
theorem OpenInvariant.ownWorkspace
    (invariant : OpenInvariant hashtextextended before state created joined) {userId : String}
    (empty : before.memberships userId = [])
    (none : ∀ member ∈ joined, member.userId ≠ userId) {organizationId : String}
    (answers : Answers before state.database userId organizationId) :
    ∃ workspace, created.filter (·.userId = userId) = [workspace] ∧
      workspace.organization.id = organizationId := by
  obtain ⟨member, own, rfl, -⟩ := answers
  rcases invariant.grown.mem.mp own with old | ⟨workspace, among, user, rfl⟩ | ⟨other, user⟩
  · rw [empty] at old
    cases old
  · have few := invariant.provisioned.length_le userId
    have here : workspace ∈ created.filter (·.userId = userId) :=
      List.mem_filter.mpr ⟨among, decide_eq_true user⟩
    obtain ⟨first, rest, split⟩ := List.exists_cons_of_ne_nil (List.ne_nil_of_mem here)
    rw [split, List.length_cons] at few
    obtain rfl := List.eq_nil_of_length_eq_zero (show rest.length = 0 by omega)
    rw [split] at here
    obtain rfl := List.mem_singleton.mp here
    exact ⟨workspace, split, rfl⟩
  · exact absurd user (none member other)

/-- However the commands interleave, whoever joins what meanwhile and whichever membership each
query picks, a user is given one organization at most, and none if it has one. -/
theorem servedOnce (run : (openSystem hashtextextended before).Run history state) :
    (∃ created, Grown before state.database created (joinedOf history) ∧
      ∀ userId, ServedOnce hashtextextended before history state created userId) ∧
    ∀ command, history.countP (·.2.isOf command) ≤ 8 := by
  obtain ⟨created, invariant⟩ := openInvariant_of_run run
  refine ⟨⟨created, invariant.grown, fun userId => ?_⟩, fun command => ?_⟩
  · have answers : ∀ command organizationId,
        state.commands command = some ⟨userId, .returned organizationId⟩ →
        Answers before state.database userId organizationId :=
      fun command organizationId current => invariant.known _ _ _ current
    constructor
    case atMostOne => exact invariant.provisioned.length_le userId
    case noneAdded => exact invariant.provisioned.filter_eq_nil
    case answers => exact answers
    case ownWorkspace =>
      intro empty none command organizationId current
      exact invariant.ownWorkspace empty none (answers command organizationId current)
    case oldMembership =>
      intro some none command organizationId current
      obtain ⟨member, own, same, least⟩ := answers command organizationId current
      rcases invariant.grown.mem.mp own with
        old | ⟨workspace, among, user, rfl⟩ | ⟨other, user⟩
      · exact ⟨member, old, same, least⟩
      · exact absurd (user ▸ invariant.provisioned.absent workspace among) some
      · exact absurd user (none member other)
    case allReturn =>
      intro settled known command phase current kept
      have finished := finished_of_settled invariant.locks settled current
      cases phase with
      | returned organizationId => exact ⟨organizationId, rfl⟩
      | rejected =>
        have noUser : before.users.find? (·.id = userId) = none :=
          invariant.known _ _ _ current
        rw [noUser] at known
        cases known
      | aborted =>
        obtain ⟨entry, member, earliest, aborts⟩ := aborted_of_events run current
        exact absurd aborts (kept entry member earliest)
      | _ => simp [Phase.finished] at finished
  · refine (events_le run command).trans ?_
    cases state.commands command with
    | none => exact Nat.zero_le _
    | some command => exact command.phase.rank_le

/-- Two queries that pick different ones of two equally old memberships, and a user that joins an
organization while its own is written. -/
theorem servedOnce_example :
    let before : Database := ⟨[⟨"user", "Ann".toList, "ann@example.org".toList⟩,
        ⟨"guest", "Bo".toList, "bo@example.org".toList⟩],
      [⟨"a", "A".toList, "a".toList⟩, ⟨"b", "B".toList, "b".toList⟩],
      [⟨"a", "user", "member", 1⟩, ⟨"b", "user", "member", 1⟩]⟩
    ∃ history state, (openSystem (fun _ => 0) before).Run history state ∧
      state.commands 0 = some ⟨"user", .returned "a"⟩ ∧
      state.commands 1 = some ⟨"user", .returned "b"⟩ ∧
      state.commands 2 = some ⟨"guest", .returned "new"⟩ ∧
      (state.database.memberships "guest").map Member.organizationId = ["a", "new"] ∧
      (∃ created, Grown before state.database created (joinedOf history) ∧
        ∀ userId, ServedOnce (fun _ => 0) before history state created userId) ∧
      ∀ command, history.countP (·.2.isOf command) ≤ 8 := by
  intro before
  obtain ⟨history, state, run, -, -, passed⟩ :=
    @TransitionSystem.run_of_execute _ _ (openSystem (fun _ => 0) before)
      (fun _ _ => true) (fun _ _ => True) (fun _ _ _ => trivial) { database := before }
      ([.act .insertionOrder (.start 0 "user"), .act .reverseOrder (.start 1 "user"),
          .act .insertionOrder (.start 2 "guest"), .act .insertionOrder (.advance 0 ⟨[], "", 0⟩),
          .act .reverseOrder (.advance 1 ⟨[], "", 0⟩)] ++
        List.replicate 4 (.act .insertionOrder (.advance 2 ⟨['c'], "new", 7⟩)) ++
        [.join ⟨"a", "guest", "member", 6⟩] ++
        List.replicate 3 (.act .insertionOrder (.advance 2 ⟨['c'], "new", 7⟩)))
      (fun state => state.commands 0 = some ⟨"user", .returned "a"⟩ ∧
        state.commands 1 = some ⟨"user", .returned "b"⟩ ∧
        state.commands 2 = some ⟨"guest", .returned "new"⟩ ∧
        (state.database.memberships "guest").map Member.organizationId = ["a", "new"]) rfl
      (by decide)
  obtain ⟨first, second, created, joined⟩ := of_decide_eq_true passed
  exact ⟨history, state, run, first, second, created, joined, servedOnce run⟩

end Runs

end NestjsFastify.PersonalOrganization
