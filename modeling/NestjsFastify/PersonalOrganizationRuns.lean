import Mathlib.Algebra.Order.BigOperators.Group.List
import Mathlib.Algebra.Order.Group.Nat
import NestjsFastify.PersonalOrganization

/-! # One personal organization

Whoever is between its reread and its commit holds the lock of its user, so what it read still holds
when it commits.  From this come the rows that a run adds and the answers of its commands.
-/
namespace NestjsFastify.PersonalOrganization
open ScriptText (trim)

variable {earliest : EarliestFirst} {choices : EarliestFirst → Prop}
  {hashtextextended : String → Int} {state after : State} {action : Action}
  {before database : Database}

/-! ### Rows added -/

@[simp] theorem Database.memberships_add (database : Database) (workspaces : List Workspace)
    (userId : String) : (database.add workspaces).memberships userId =
      database.memberships userId ++
        (workspaces.filter (·.userId = userId)).map Workspace.owner := by
  rw [Database.memberships, Database.add, List.filter_append, List.filter_map]
  rfl

@[simp] theorem Database.slugs_add (database : Database) (workspaces : List Workspace) :
    (database.add workspaces).slugs =
      database.slugs ++ workspaces.map (·.organization.slug) := by
  simp [Database.slugs, Database.add]

@[simp] theorem Database.users_add (database : Database) (workspaces : List Workspace) :
    (database.add workspaces).users = database.users :=
  rfl

@[simp] theorem Database.add_nil (database : Database) : database.add [] = database := by
  simp [Database.add]

theorem Database.add_add (database : Database) (workspaces more : List Workspace) :
    (database.add workspaces).add more = database.add (workspaces ++ more) := by
  simp [Database.add]

theorem Database.findFirst_eq_none {userId : String} :
    database.findFirstOrganizationId earliest userId = none ↔ database.memberships userId = [] := by
  constructor
  · intro none
    by_contra nonempty
    have found := earliest.isSome _ nonempty
    rw [Database.findFirstOrganizationId, Option.map_eq_none_iff] at none
    simp [none] at found
  · intro empty
    cases found : earliest.findFirst [] with
    | none => simp [Database.findFirstOrganizationId, empty, found]
    | some member => exact absurd (earliest.mem _ _ found) List.not_mem_nil

/-- A single membership is the earliest. -/
theorem Database.findFirst_of_single {userId : String} {member : Member}
    (single : database.memberships userId = [member]) :
    database.findFirstOrganizationId earliest userId = some member.organizationId := by
  have found := earliest.isSome [member] (List.cons_ne_nil _ _)
  obtain ⟨first, same⟩ := Option.isSome_iff_exists.mp found
  have first_eq := List.mem_singleton.mp (earliest.mem _ _ same)
  rw [Database.findFirstOrganizationId, single, same, first_eq]
  rfl

/-! ### Commands after a step -/

@[simp] theorem State.put_database (state : State) (command : Nat) (userId : String)
    (phase : Phase) : (state.put command userId phase).database = state.database :=
  rfl

@[simp] theorem State.unlock_database (state : State) (command : Nat) :
    (state.unlock command).database = state.database :=
  rfl

theorem update_command {commands : Nat → Option Command} {command other : Nat}
    {userId userId' : String} {phase phase' : Phase}
    (current : Function.update commands command (some ⟨userId, phase⟩) other =
      some ⟨userId', phase'⟩) :
    (other = command ∧ userId = userId' ∧ phase = phase') ∨
      (other ≠ command ∧ commands other = some ⟨userId', phase'⟩) := by
  by_cases same : other = command
  · subst same
    rw [Function.update_self] at current
    obtain ⟨rfl, rfl⟩ := Command.mk.inj (Option.some.inj current)
    exact .inl ⟨rfl, rfl, rfl⟩
  · rw [Function.update_of_ne same] at current
    exact .inr ⟨same, current⟩

/-! ### The lock -/

/-- A command holds the lock of its user exactly while its transaction is past `locking`. -/
structure LocksHeld (hashtextextended : String → Int) (locks : Int → Option Nat)
    (commands : Nat → Option Command) : Prop where
  holder : ∀ command userId phase, commands command = some ⟨userId, phase⟩ →
    phase.locked = true → locks (hashtextextended userId) = some command
  held : ∀ key command, locks key = some command → ∃ userId phase,
    commands command = some ⟨userId, phase⟩ ∧ phase.locked = true ∧
      hashtextextended userId = key

section Locks
variable {locks : Int → Option Nat} {commands : Nat → Option Command} {command : Nat}
  {userId : String} {phase next : Phase}

/-- A step that neither takes nor gives back the lock. -/
theorem LocksHeld.keep (held : LocksHeld hashtextextended locks commands)
    (current : commands command = some ⟨userId, phase⟩) (same : next.locked = phase.locked) :
    LocksHeld hashtextextended locks
      (Function.update commands command (some ⟨userId, next⟩)) where
  holder other userId' phase' now locked := by
    rcases update_command now with ⟨rfl, rfl, rfl⟩ | ⟨-, old⟩
    · exact held.holder _ _ _ current (same ▸ locked)
    · exact held.holder _ _ _ old locked
  held key other lock := by
    obtain ⟨userId', phase', old, locked, hash⟩ := held.held _ _ lock
    by_cases here : other = command
    · subst here
      obtain ⟨rfl, rfl⟩ := Command.mk.inj (Option.some.inj (old.symm.trans current))
      exact ⟨_, next, Function.update_self .., same.trans locked, hash⟩
    · exact ⟨userId', phase', (Function.update_of_ne here ..).trans old, locked, hash⟩

/-- A new command holds nothing. -/
theorem LocksHeld.start (held : LocksHeld hashtextextended locks commands)
    (unused : commands command = none) (unlocked : next.locked = false) :
    LocksHeld hashtextextended locks
      (Function.update commands command (some ⟨userId, next⟩)) where
  holder other userId' phase' now locked := by
    rcases update_command now with ⟨rfl, rfl, rfl⟩ | ⟨-, old⟩
    · simp [unlocked] at locked
    · exact held.holder _ _ _ old locked
  held key other lock := by
    obtain ⟨userId', phase', old, locked, hash⟩ := held.held _ _ lock
    have different : other ≠ command := by
      rintro rfl
      simp [unused] at old
    exact ⟨userId', phase', (Function.update_of_ne different ..).trans old, locked, hash⟩

theorem LocksHeld.acquire (held : LocksHeld hashtextextended locks commands)
    (current : commands command = some ⟨userId, phase⟩) (unlocked : phase.locked = false)
    (free : locks (hashtextextended userId) = none) (locks_next : next.locked = true) :
    LocksHeld hashtextextended
      (Function.update locks (hashtextextended userId) (some command))
      (Function.update commands command (some ⟨userId, next⟩)) where
  holder other userId' phase' now locked := by
    rcases update_command now with ⟨rfl, rfl, rfl⟩ | ⟨-, old⟩
    · exact Function.update_self ..
    · have lock := held.holder _ _ _ old locked
      have different : hashtextextended userId' ≠ hashtextextended userId := by
        intro same
        rw [same, free] at lock
        simp at lock
      exact (Function.update_of_ne different ..).trans lock
  held key other lock := by
    by_cases same : key = hashtextextended userId
    · subst same
      rw [Function.update_self] at lock
      obtain rfl := Option.some.inj lock
      exact ⟨userId, next, Function.update_self .., locks_next, rfl⟩
    · rw [Function.update_of_ne same] at lock
      obtain ⟨userId', phase', old, locked, hash⟩ := held.held _ _ lock
      have different : other ≠ command := by
        rintro rfl
        obtain ⟨rfl, rfl⟩ := Command.mk.inj (Option.some.inj (old.symm.trans current))
        simp [unlocked] at locked
      exact ⟨userId', phase', (Function.update_of_ne different ..).trans old, locked, hash⟩

theorem LocksHeld.release (held : LocksHeld hashtextextended locks commands)
    (unlocked : next.locked = false) :
    LocksHeld hashtextextended
      (fun key => if locks key = some command then none else locks key)
      (Function.update commands command (some ⟨userId, next⟩)) where
  holder other userId' phase' now locked := by
    rcases update_command now with ⟨rfl, rfl, rfl⟩ | ⟨different, old⟩
    · simp [unlocked] at locked
    · have lock := held.holder _ _ _ old locked
      simp [lock, different]
  held key other lock := by
    have ⟨different, lock⟩ : other ≠ command ∧ locks key = some other := by
      by_cases own : locks key = some command
      · simp [own] at lock
      · rw [if_neg own] at lock
        exact ⟨fun same => own (same ▸ lock), lock⟩
    obtain ⟨userId', phase', old, locked, hash⟩ := held.held _ _ lock
    exact ⟨userId', phase', (Function.update_of_ne different ..).trans old, locked, hash⟩

end Locks

/-- What a step does to the locks. -/
theorem LocksHeld.step (held : LocksHeld hashtextextended state.locks state.commands)
    (taken : Step earliest hashtextextended state action after) :
    LocksHeld hashtextextended after.locks after.commands := by
  cases taken with
  | start unused => exact held.start unused rfl
  | found current => exact held.keep current rfl
  | missing current => exact held.keep current rfl
  | unknown current => exact held.keep current rfl
  | named current => exact held.keep current rfl
  | lock current free => exact held.acquire current rfl free rfl
  | existing current => exact held.keep current rfl
  | vacant current => exact held.keep current rfl
  | conflict => exact held.release rfl
  | organization current => exact held.keep current rfl
  | member current => exact held.keep current rfl
  | commit => exact held.release rfl
  | abort => exact held.release rfl

/-- Two transactions of one user are never past `locking` at once. -/
theorem LocksHeld.exclusive {locks : Int → Option Nat} {commands : Nat → Option Command}
    (held : LocksHeld hashtextextended locks commands) {command other : Nat} {userId : String}
    {phase phase' : Phase} (current : commands command = some ⟨userId, phase⟩)
    (locked : phase.locked = true) (current' : commands other = some ⟨userId, phase'⟩)
    (locked' : phase'.locked = true) : command = other := by
  have first := held.holder _ _ _ current locked
  have second := held.holder _ _ _ current' locked'
  exact Option.some.inj (first.symm.trans second)

/-! ### Slugs -/

/-- The slug that a command has generated and not yet committed. -/
def Phase.slug : Phase → Option (List Char)
  | locking _ slug | rereading _ slug | creatingOrganization _ slug => some slug
  | creatingMember organization => some organization.slug
  | committing written _ => written.map (·.organization.slug)
  | _ => none

/-- No organization and no other command has the slug of a command. -/
structure SlugsUnused (slugs used : List (List Char)) (commands : Nat → Option Command) :
    Prop where
  unused : ∀ command userId phase slug, commands command = some ⟨userId, phase⟩ →
    phase.slug = some slug → slug ∈ slugs ∧ slug ∉ used
  distinct : ∀ command other userId userId' phase phase' slug,
    commands command = some ⟨userId, phase⟩ → commands other = some ⟨userId', phase'⟩ →
    phase.slug = some slug → phase'.slug = some slug → command = other

section Slugs
variable {slugs used : List (List Char)} {commands : Nat → Option Command} {command : Nat}
  {userId : String} {phase next : Phase}

theorem SlugsUnused.keep (free : SlugsUnused slugs used commands)
    (current : commands command = some ⟨userId, phase⟩) (same : next.slug = phase.slug) :
    SlugsUnused slugs used (Function.update commands command (some ⟨userId, next⟩)) where
  unused other userId' phase' slug now has := by
    rcases update_command now with ⟨rfl, rfl, rfl⟩ | ⟨-, old⟩
    · exact free.unused _ _ _ _ current (same ▸ has)
    · exact free.unused _ _ _ _ old has
  distinct first second userId₁ userId₂ phase₁ phase₂ slug now₁ now₂ has₁ has₂ := by
    rcases update_command now₁ with ⟨rfl, rfl, rfl⟩ | ⟨-, old₁⟩ <;>
      rcases update_command now₂ with ⟨rfl, rfl, rfl⟩ | ⟨-, old₂⟩
    · rfl
    · exact free.distinct _ _ _ _ _ _ _ current old₂ (same ▸ has₁) has₂
    · exact free.distinct _ _ _ _ _ _ _ old₁ current has₁ (same ▸ has₂)
    · exact free.distinct _ _ _ _ _ _ _ old₁ old₂ has₁ has₂

theorem SlugsUnused.drop (free : SlugsUnused slugs used commands) (none : next.slug = .none) :
    SlugsUnused slugs used (Function.update commands command (some ⟨userId, next⟩)) where
  unused other userId' phase' slug now has := by
    rcases update_command now with ⟨rfl, rfl, rfl⟩ | ⟨-, old⟩
    · simp [none] at has
    · exact free.unused _ _ _ _ old has
  distinct first second userId₁ userId₂ phase₁ phase₂ slug now₁ now₂ has₁ has₂ := by
    rcases update_command now₁ with ⟨rfl, rfl, rfl⟩ | ⟨-, old₁⟩
    · simp [none] at has₁
    · rcases update_command now₂ with ⟨rfl, rfl, rfl⟩ | ⟨-, old₂⟩
      · simp [none] at has₂
      · exact free.distinct _ _ _ _ _ _ _ old₁ old₂ has₁ has₂

theorem SlugsUnused.generate (free : SlugsUnused slugs used commands) {slug : List Char}
    (unused : slug ∉ used) (new : slug ∉ slugs) (generated : next.slug = some slug) :
    SlugsUnused (slug :: slugs) used
      (Function.update commands command (some ⟨userId, next⟩)) where
  unused other userId' phase' slug' now has := by
    rcases update_command now with ⟨rfl, rfl, rfl⟩ | ⟨-, old⟩
    · obtain rfl := Option.some.inj (generated.symm.trans has)
      exact ⟨List.mem_cons_self, unused⟩
    · obtain ⟨member, absent⟩ := free.unused _ _ _ _ old has
      exact ⟨List.mem_cons_of_mem _ member, absent⟩
  distinct first second userId₁ userId₂ phase₁ phase₂ slug' now₁ now₂ has₁ has₂ := by
    have other : ∀ {id userId phase}, commands id = some ⟨userId, phase⟩ →
        phase.slug ≠ some slug := fun old has => new (free.unused _ _ _ _ old has).1
    rcases update_command now₁ with ⟨rfl, rfl, rfl⟩ | ⟨-, old₁⟩ <;>
      rcases update_command now₂ with ⟨rfl, rfl, rfl⟩ | ⟨-, old₂⟩
    · rfl
    · exact absurd (has₂.trans (has₁.symm.trans generated)) (other old₂)
    · exact absurd (has₁.trans (has₂.symm.trans generated)) (other old₁)
    · exact free.distinct _ _ _ _ _ _ _ old₁ old₂ has₁ has₂

theorem SlugsUnused.publish (free : SlugsUnused slugs used commands)
    (current : commands command = some ⟨userId, phase⟩) (none : next.slug = .none) :
    SlugsUnused slugs (used ++ phase.slug.toList)
      (Function.update commands command (some ⟨userId, next⟩)) where
  unused other userId' phase' slug now has := by
    rcases update_command now with ⟨rfl, rfl, rfl⟩ | ⟨different, old⟩
    · simp [none] at has
    · obtain ⟨member, absent⟩ := free.unused _ _ _ _ old has
      refine ⟨member, fun published => ?_⟩
      rcases List.mem_append.mp published with earlier | own
      · exact absent earlier
      · exact different
          (free.distinct _ _ _ _ _ _ _ old current has (Option.mem_toList.mp own))
  distinct := (free.drop none).distinct

end Slugs

theorem SlugsUnused.step (free : SlugsUnused state.slugs state.database.slugs state.commands)
    (taken : Step earliest hashtextextended state action after) :
    SlugsUnused after.slugs after.database.slugs after.commands := by
  cases taken with
  | start => exact free.drop rfl
  | found => exact free.drop rfl
  | missing => exact free.drop rfl
  | unknown => exact free.drop rfl
  | named _ unused new => exact free.generate unused new rfl
  | lock current => exact free.keep current rfl
  | existing => exact free.drop rfl
  | vacant current => exact free.keep current rfl
  | conflict => exact free.drop rfl
  | organization current => exact free.keep current rfl
  | member current => exact free.keep current rfl
  | @commit command generated userId organizationId written current =>
    have published : SlugsUnused _ _ (Function.update state.commands command
        (some ⟨userId, .returned organizationId⟩)) := free.publish current rfl
    have same : (state.database.add written.toList).slugs = state.database.slugs ++
        (Phase.committing written organizationId).slug.toList := by
      cases written <;> simp [Phase.slug]
    rw [← same] at published
    exact published
  | abort => exact free.drop rfl

/-! ### What the commands have found and written -/

/-- A query that picks in one of these ways answers with the organization. -/
def Database.Chosen (database : Database) (choices : EarliestFirst → Prop)
    (userId organizationId : String) : Prop :=
  ∃ earliest, choices earliest ∧
    database.findFirstOrganizationId earliest userId = some organizationId

/-- What a phase knows of the committed rows. -/
def Phase.Outcome (choices : EarliestFirst → Prop) (database : Database) (userId : String) :
    Phase → Prop
  | creatingOrganization .. | creatingMember _ => database.memberships userId = []
  | committing (some workspace) organizationId => database.memberships userId = [] ∧
      workspace.userId = userId ∧ workspace.organization.id = organizationId
  | committing none organizationId | returned organizationId =>
      database.Chosen choices userId organizationId
  | rejected => database.users.find? (·.id = userId) = none
  | _ => True

/-- Every user that was given an organization had no membership before, and was given one only. -/
structure Provisioned (before : Database) (created : List Workspace) : Prop where
  distinct : (created.map Workspace.userId).Nodup
  absent : ∀ workspace ∈ created, before.memberships workspace.userId = []

/-- What holds between any two steps. -/
structure Invariant (choices : EarliestFirst → Prop) (hashtextextended : String → Int)
    (before : Database) (state : State) : Prop where
  locks : LocksHeld hashtextextended state.locks state.commands
  slugs : SlugsUnused state.slugs state.database.slugs state.commands
  outcomes : ∀ command userId phase, state.commands command = some ⟨userId, phase⟩ →
    phase.Outcome choices state.database userId
  added : ∃ created, state.database = before.add created ∧ Provisioned before created

/-- Rows of other users do not matter. -/
theorem Phase.Outcome.add {userId : String} {phase : Phase} {workspaces : List Workspace}
    (outcome : phase.Outcome choices database userId)
    (others : ∀ workspace ∈ workspaces, workspace.userId ≠ userId) :
    phase.Outcome choices (database.add workspaces) userId := by
  have same : (database.add workspaces).memberships userId = database.memberships userId := by
    have none : workspaces.filter (·.userId = userId) = [] := by
      rw [List.filter_eq_nil_iff]
      simpa using others
    simp [none]
  have answer (organizationId : String) (chosen : database.Chosen choices userId organizationId) :
      (database.add workspaces).Chosen choices userId organizationId := by
    obtain ⟨earliest, own, found⟩ := chosen
    exact ⟨earliest, own, by rwa [Database.findFirstOrganizationId, same]⟩
  cases phase with
  | creatingOrganization name slug => exact same.trans outcome
  | creatingMember organization => exact same.trans outcome
  | committing written organizationId =>
    cases written with
    | none => exact answer _ outcome
    | some workspace => exact ⟨same.trans outcome.1, outcome.2⟩
  | returned organizationId => exact answer _ outcome
  | rejected => exact outcome
  | _ => trivial

theorem Invariant.put (invariant : Invariant choices hashtextextended before state)
    {command : Nat} {userId : String} {next : Phase}
    (own : next.Outcome choices state.database userId) :
    ∀ other userId' phase', Function.update state.commands command (some ⟨userId, next⟩) other =
      some ⟨userId', phase'⟩ → phase'.Outcome choices state.database userId' := by
  intro other userId' phase' now
  rcases update_command now with ⟨-, rfl, rfl⟩ | ⟨-, old⟩
  · exact own
  · exact invariant.outcomes _ _ _ old

/-- While a command is about to commit a workspace, no other command of its user knows anything of
the memberships of the user. -/
theorem Invariant.other_of_committing (invariant : Invariant choices hashtextextended before state)
    {command other : Nat} {userId organizationId : String} {workspace : Workspace} {phase : Phase}
    (current : state.commands command =
      some ⟨userId, .committing (some workspace) organizationId⟩)
    (old : state.commands other = some ⟨userId, phase⟩) (different : other ≠ command)
    (after : Database) (users : after.users = state.database.users) :
    phase.Outcome choices after userId := by
  obtain ⟨empty, -, -⟩ := invariant.outcomes _ _ _ current
  have known := invariant.outcomes _ _ _ old
  have unlocked : phase.locked = false := by
    by_contra locked
    exact different (invariant.locks.exclusive old (by simpa using locked) current rfl)
  cases phase with
  | returned organizationId' =>
    obtain ⟨earliest, -, found⟩ := known
    rw [Database.findFirst_eq_none.mpr empty] at found
    cases found
  | rejected =>
    change after.users.find? _ = none
    exact users ▸ known
  | findingFirst => trivial
  | findingUser => trivial
  | locking name slug => trivial
  | aborted => trivial
  | _ => simp [Phase.locked] at unlocked

theorem Provisioned.append {created : List Workspace} (provisioned : Provisioned before created)
    {workspace : Workspace} (empty : (before.add created).memberships workspace.userId = []) :
    Provisioned before (created ++ [workspace]) := by
  rw [Database.memberships_add, List.append_eq_nil_iff, List.map_eq_nil_iff,
    List.filter_eq_nil_iff] at empty
  obtain ⟨absent, others⟩ := empty
  refine ⟨?_, fun other member => ?_⟩
  · rw [List.map_append, List.map_singleton, List.nodup_append_comm]
    refine List.nodup_cons.mpr ⟨fun repeated => ?_, provisioned.distinct⟩
    obtain ⟨other, member, same⟩ := List.mem_map.mp repeated
    exact others other member (decide_eq_true same)
  · rcases List.mem_append.mp member with old | new
    · exact provisioned.absent other old
    · exact List.mem_singleton.mp new ▸ absent

/-- What a commit brings about. -/
theorem Invariant.commit (invariant : Invariant choices hashtextextended before state)
    (chosen : choices earliest) {command : Nat} {userId organizationId : String}
    {written : Option Workspace}
    (current : state.commands command = some ⟨userId, .committing written organizationId⟩) :
    (∀ other userId' phase', Function.update state.commands command
        (some ⟨userId, .returned organizationId⟩) other = some ⟨userId', phase'⟩ →
      phase'.Outcome choices (state.database.add written.toList) userId') ∧
    ∃ created, state.database.add written.toList = before.add created ∧
      Provisioned before created := by
  obtain ⟨created, same, provisioned⟩ := invariant.added
  have known := invariant.outcomes _ _ _ current
  cases written with
  | none =>
    rw [Option.toList_none, Database.add_nil]
    have answer : (Phase.returned organizationId).Outcome choices state.database userId := known
    exact ⟨invariant.put answer, created, same, provisioned⟩
  | some workspace =>
    obtain ⟨empty, rfl, rfl⟩ := known
    rw [Option.toList_some]
    refine ⟨fun other userId' phase' now => ?_, created ++ [workspace], ?_, ?_⟩
    · rcases update_command now with ⟨-, rfl, rfl⟩ | ⟨different, old⟩
      · have single : (state.database.add [workspace]).memberships workspace.userId =
            [workspace.owner] := by simp [empty]
        exact ⟨earliest, chosen, Database.findFirst_of_single single⟩
      · by_cases user : userId' = workspace.userId
        · subst user
          exact invariant.other_of_committing current old different _ rfl
        · refine (invariant.outcomes _ _ _ old).add fun added member => ?_
          rw [List.mem_singleton.mp member]
          exact Ne.symm user
    · rw [same, Database.add_add]
    · exact provisioned.append (same ▸ empty)

theorem Invariant.step (invariant : Invariant choices hashtextextended before state)
    (chosen : choices earliest) (taken : Step earliest hashtextextended state action after) :
    Invariant choices hashtextextended before after := by
  refine ⟨invariant.locks.step taken, invariant.slugs.step taken, ?_, ?_⟩
  · cases taken with
    | start => exact invariant.put trivial
    | found _ answer => exact invariant.put ⟨earliest, chosen, answer⟩
    | missing => exact invariant.put trivial
    | unknown _ noUser => exact invariant.put noUser
    | named => exact invariant.put trivial
    | lock => exact invariant.put trivial
    | existing _ answer => exact invariant.put ⟨earliest, chosen, answer⟩
    | vacant _ answer => exact invariant.put (Database.findFirst_eq_none.mp answer)
    | conflict current used => exact absurd used (invariant.slugs.unused _ _ _ _ current rfl).2
    | organization current =>
      have empty : state.database.memberships _ = [] := invariant.outcomes _ _ _ current
      exact invariant.put empty
    | member current => exact invariant.put ⟨invariant.outcomes _ _ _ current, rfl, rfl⟩
    | commit current => exact (invariant.commit chosen current).1
    | abort => exact invariant.put trivial
  · cases taken with
    | commit current => exact (invariant.commit chosen current).2
    | _ => exact invariant.added

section Runs
variable {history : List (State × EarliestFirst × Action)}

/-- The queries of a run pick in these ways. -/
def ChoicesOf (history : List (State × EarliestFirst × Action)) (earliest : EarliestFirst) : Prop :=
  ∃ entry ∈ history, entry.2.1 = earliest

theorem invariant_of_run (run : (system hashtextextended before).Run history state) :
    Invariant (ChoicesOf history) hashtextextended before state := by
  refine run.guardedInvariant (fun _ event => ChoicesOf history event.1) ?_
    (fun _ _ _ chosen invariant taken => invariant.step chosen (step_cases taken))
    fun entry member => ⟨entry, member, rfl⟩
  rintro state rfl
  refine ⟨⟨?_, ?_⟩, ⟨?_, ?_⟩, ?_, [], before.add_nil.symm, List.nodup_nil, ?_⟩ <;> simp

/-! ### Every command returns -/

/-- How many steps a command has taken at most. -/
@[simp] def Phase.rank : Phase → Nat
  | findingFirst => 1
  | findingUser => 2
  | locking .. => 3
  | rereading .. => 4
  | creatingOrganization .. => 5
  | creatingMember _ => 6
  | committing .. => 7
  | returned _ | rejected | aborted => 8

@[simp] def rankOf : Option Command → Nat
  | some command => command.phase.rank
  | none => 0

theorem Phase.rank_le (phase : Phase) : phase.rank ≤ 8 := by
  cases phase <;> simp

theorem Phase.rank_lt {phase : Phase} (unfinished : phase.finished = false) : phase.rank < 8 := by
  cases phase <;> simp [Phase.finished] at unfinished ⊢

/-- One command has gone on and the others are where they were. -/
def Moved (commands next : Nat → Option Command) (command : Nat) : Prop :=
  rankOf (commands command) < rankOf (next command) ∧
    ∀ other, other ≠ command → next other = commands other

theorem Moved.update {commands : Nat → Option Command} {command : Nat} {old : Option Command}
    {userId : String} {phase : Phase} (current : commands command = old)
    (less : rankOf old < phase.rank) :
    Moved commands (Function.update commands command (some ⟨userId, phase⟩)) command := by
  refine ⟨?_, fun other different => Function.update_of_ne different ..⟩
  rw [current, Function.update_self]
  exact less

theorem moved_of_step (taken : Step earliest hashtextextended state action after) :
    Moved state.commands after.commands action.command := by
  cases taken with
  | start unused => exact .update unused (by simp)
  | found current => exact .update current (by simp)
  | missing current => exact .update current (by simp)
  | unknown current => exact .update current (by simp)
  | named current => exact .update current (by simp)
  | lock current => exact .update current (by simp)
  | existing current => exact .update current (by simp)
  | vacant current => exact .update current (by simp)
  | conflict current => exact .update current (by simp)
  | organization current => exact .update current (by simp)
  | member current => exact .update current (by simp)
  | commit current => exact .update current (by simp)
  | abort current unfinished => exact .update current (Phase.rank_lt unfinished)

/-- A command takes at most eight steps, its start among them. -/
theorem steps_le (run : (system hashtextextended before).Run history state)
    (command : Nat) :
    history.countP (·.2.2.command = command) ≤ rankOf (state.commands command) := by
  induction run with
  | start => simp
  | @step history current next event run taken ih =>
    obtain ⟨less, others⟩ := moved_of_step (step_cases taken)
    rw [List.countP_cons]
    by_cases own : event.2.command = command
    · subst own
      simp only [decide_true, if_true]
      omega
    · simp only [own, decide_false, others command (Ne.symm own)]
      simpa using ih

theorem exists_unused (used : List (List Char)) : ∃ uuid, workspaceSlug uuid ∉ used := by
  refine ⟨List.replicate ((used.map List.length).sum) '0', fun member => ?_⟩
  have short := List.le_sum_of_mem (@List.mem_map_of_mem _ _ _ _ List.length member)
  simp only [workspaceSlug, List.length_append] at short
  simp at short

theorem exists_new (used : List String) : ∃ id, id ∉ used := by
  refine ⟨String.ofList (List.replicate ((used.map String.length).sum + 1) '0'), fun member => ?_⟩
  have short := List.le_sum_of_mem (@List.mem_map_of_mem _ _ _ _ String.length member)
  simp at short

/-- No command can go on. -/
def Settled (earliest : EarliestFirst) (hashtextextended : String → Int) (state : State) : Prop :=
  ∀ command generated, state.step earliest hashtextextended (.advance command generated) = none

/-- A command can go on unless it waits for the lock. -/
theorem exists_advance {command : Nat} {userId : String} {phase : Phase}
    (current : state.commands command = some ⟨userId, phase⟩) (unfinished : phase.finished = false)
    (free : phase.locked = true ∨ state.locks (hashtextextended userId) = none) :
    ∃ generated, state.step earliest hashtextextended (.advance command generated) ≠ none := by
  obtain ⟨uuid, unused⟩ := exists_unused (state.database.slugs ++ state.slugs)
  obtain ⟨id, new⟩ := exists_new (state.database.organizations.map Organization.id ++ state.ids)
  refine ⟨⟨uuid, id, 0⟩, ?_⟩
  rw [List.mem_append] at unused new
  simp only [State.step, current]
  cases phase with
  | findingUser =>
    simp only [State.advance, if_neg unused]
    split <;> simp
  | locking name slug => simp_all [State.advance, Phase.locked]
  | creatingOrganization name slug =>
    simp only [State.advance, if_neg new]
    split <;> simp
  | returned organizationId => simp [Phase.finished] at unfinished
  | rejected => simp [Phase.finished] at unfinished
  | aborted => simp [Phase.finished] at unfinished
  | _ => simp [State.advance]

/-- There is no deadlock: when no command can go on, all have ended. -/
theorem Invariant.finished (invariant : Invariant choices hashtextextended before state)
    (settled : Settled earliest hashtextextended state) {command : Nat} {userId : String}
    {phase : Phase} (current : state.commands command = some ⟨userId, phase⟩) :
    phase.finished = true := by
  have ended : ∀ {command userId phase}, state.commands command = some ⟨userId, phase⟩ →
      phase.locked = true ∨ state.locks (hashtextextended userId) = none →
      phase.finished = true := by
    intro command userId phase current free
    by_contra unfinished
    obtain ⟨generated, goes⟩ := exists_advance current (by simpa using unfinished) free
    exact goes (settled command generated)
  cases lock : state.locks (hashtextextended userId) with
  | none => exact ended current (.inr lock)
  | some holder =>
    obtain ⟨userId', phase', current', locked, -⟩ := invariant.locks.held _ _ lock
    have last := ended current' (.inl locked)
    cases phase' <;> simp [Phase.locked, Phase.finished] at locked last

/-- Only an abort ends a command without an answer. -/
theorem aborted_of_step (taken : Step earliest hashtextextended state action after)
    {command : Nat} {userId : String} (now : after.commands command = some ⟨userId, .aborted⟩) :
    state.commands command = some ⟨userId, .aborted⟩ ∨ action = .abort command := by
  by_cases own : command = action.command
  · subst own
    cases taken <;> simp_all [State.put, Action.command]
  · exact .inl (((moved_of_step taken).2 command own).symm.trans now)

theorem aborted_of_run (run : (system hashtextextended before).Run history state)
    {command : Nat} {userId : String} (now : state.commands command = some ⟨userId, .aborted⟩) :
    ∃ entry ∈ history, entry.2.2 = .abort command := by
  induction run with
  | start initial =>
    obtain rfl := initial
    simp at now
  | step run taken ih =>
    rcases aborted_of_step (step_cases taken) now with old | aborts
    · obtain ⟨entry, member, aborts⟩ := ih old
      exact ⟨entry, List.mem_cons_of_mem _ member, aborts⟩
    · exact ⟨_, List.mem_cons_self, aborts⟩

/-! ### One organization -/

/-- The queries of a run pick alike among the memberships that a user had before. -/
def PickAlike (before : Database) (history : List (State × EarliestFirst × Action))
    (userId : String) : Prop :=
  ∀ first ∈ history, ∀ second ∈ history,
    first.2.1.findFirst (before.memberships userId) =
      second.2.1.findFirst (before.memberships userId)

/-- What a run has done for a user, where `created` is all that it has added to the database. -/
structure OnePersonalOrganization (hashtextextended : String → Int) (before : Database)
    (history : List (State × EarliestFirst × Action)) (state : State) (created : List Workspace)
    (userId : String) : Prop where
  atMostOne : (created.filter (·.userId = userId)).length ≤ 1
  noneAdded : before.memberships userId ≠ [] → created.filter (·.userId = userId) = []
  oneAdded : before.memberships userId = [] → ∀ command organizationId,
    state.commands command = some ⟨userId, .returned organizationId⟩ →
    ∃ workspace, created.filter (·.userId = userId) = [workspace] ∧
      workspace.organization.id = organizationId
  oldestAnswer : ∀ member ∈ before.memberships userId,
    (∀ other ∈ before.memberships userId, other ≠ member → member.createdAt < other.createdAt) →
    ∀ command organizationId,
      state.commands command = some ⟨userId, .returned organizationId⟩ →
      organizationId = member.organizationId
  sameAnswer : PickAlike before history userId → ∀ command other organizationId organizationId',
    state.commands command = some ⟨userId, .returned organizationId⟩ →
    state.commands other = some ⟨userId, .returned organizationId'⟩ →
    organizationId = organizationId'
  allReturn : Settled .insertionOrder hashtextextended state →
    (before.users.find? (·.id = userId)).isSome = true →
    ∀ command phase, state.commands command = some ⟨userId, phase⟩ →
      (∀ entry ∈ history, entry.2.2 ≠ .abort command) →
      ∃ organizationId, phase = .returned organizationId

theorem Provisioned.length_le {created : List Workspace} (provisioned : Provisioned before created)
    (userId : String) : (created.filter (·.userId = userId)).length ≤ 1 := by
  have count : (created.map Workspace.userId).count userId ≤ 1 :=
    List.nodup_iff_count_le_one.mp provisioned.distinct userId
  rw [List.count, List.countP_map, List.countP_eq_length_filter] at count
  exact count

theorem Provisioned.filter_eq_nil {created : List Workspace}
    (provisioned : Provisioned before created) {userId : String}
    (has : before.memberships userId ≠ []) : created.filter (·.userId = userId) = [] := by
  rw [List.filter_eq_nil_iff]
  intro workspace member same
  exact has (of_decide_eq_true same ▸ provisioned.absent workspace member)

theorem Provisioned.findFirst {created : List Workspace} (provisioned : Provisioned before created)
    {userId organizationId : String} (empty : before.memberships userId = [])
    (answer : (before.add created).findFirstOrganizationId earliest userId = some organizationId) :
    ∃ workspace, created.filter (·.userId = userId) = [workspace] ∧
      workspace.organization.id = organizationId := by
  have rows := before.memberships_add created userId
  rw [empty, List.nil_append] at rows
  have few := provisioned.length_le userId
  match own : created.filter (·.userId = userId) with
  | [] =>
    rw [own] at rows
    simp [Database.findFirst_eq_none.mpr rows] at answer
  | [workspace] =>
    rw [own] at rows
    rw [Database.findFirst_of_single rows] at answer
    exact ⟨workspace, own, Option.some.inj answer⟩
  | _ :: _ :: _ => simp [own] at few

/-- A user with memberships is answered with one of these. -/
theorem Provisioned.findFirst_of_memberships {created : List Workspace}
    (provisioned : Provisioned before created) {userId organizationId : String}
    (has : before.memberships userId ≠ [])
    (answer : (before.add created).findFirstOrganizationId earliest userId = some organizationId) :
    (earliest.findFirst (before.memberships userId)).map Member.organizationId =
      some organizationId := by
  rwa [Database.findFirstOrganizationId, Database.memberships_add, provisioned.filter_eq_nil has,
    List.map_nil, List.append_nil] at answer

/-- A single oldest row is the one that any query picks. -/
theorem EarliestFirst.findFirst_of_oldest (earliest : EarliestFirst) {members : List Member}
    {member : Member} (own : member ∈ members)
    (oldest : ∀ other ∈ members, other ≠ member → member.createdAt < other.createdAt) :
    earliest.findFirst members = some member := by
  obtain ⟨found, same⟩ :=
    Option.isSome_iff_exists.mp (earliest.isSome members (List.ne_nil_of_mem own))
  rw [same]
  by_contra different
  have among := earliest.mem _ _ same
  have younger := oldest found among fun equal => different (congrArg some equal)
  have older := earliest.least _ _ same member own
  omega

end Runs

end NestjsFastify.PersonalOrganization
