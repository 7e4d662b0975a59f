import NestjsFastify.MemberPermissions
import NestjsFastify.ScriptText
import NestjsFastify.TransitionSystem

/-! # The personal organization of a user

A command looks for an organization of its user and creates one if there is none.  Any number of
commands run interleaved, each over a transaction of its own that reads what others have committed;
the transactions of one user exclude one another by an advisory lock, which they hold until they
commit or roll back.
-/
namespace NestjsFastify.PersonalOrganization
open ScriptText (trim)
open Authorization (SystemRole)

/-! ### Rows -/

structure User where
  id : String
  name : List Char
  email : List Char
  deriving DecidableEq, Repr

structure Organization where
  id : String
  name : List Char
  slug : List Char
  deriving DecidableEq, Repr

structure Member where
  organizationId : String
  userId : String
  role : String
  createdAt : Int
  deriving DecidableEq, Repr

/-- What has been committed. -/
structure Database where
  users : List User
  organizations : List Organization
  members : List Member
  deriving DecidableEq, Repr

/-- What one transaction writes: an organization and the membership of its owner. -/
structure Workspace where
  organization : Organization
  userId : String
  createdAt : Int
  deriving DecidableEq, Repr

def Workspace.owner (workspace : Workspace) : Member where
  organizationId := workspace.organization.id
  userId := workspace.userId
  role := SystemRole.owner.text
  createdAt := workspace.createdAt

/-- The members that `where: { userId }` selects. -/
def Database.memberships (database : Database) (userId : String) : List Member :=
  database.members.filter (·.userId = userId)

def Database.slugs (database : Database) : List (List Char) :=
  database.organizations.map Organization.slug

/-- The rows of workspaces committed one after another. -/
def Database.add (database : Database) (workspaces : List Workspace) : Database where
  users := database.users
  organizations := database.organizations ++ workspaces.map Workspace.organization
  members := database.members ++ workspaces.map Workspace.owner

/-- How the database answers `findFirst` with `orderBy: { createdAt: 'asc' }`: with a row of the
least `createdAt` among the rows selected, if there are any.  Which of several such rows is its own
choice. -/
structure EarliestFirst where
  findFirst : List Member → Option Member
  mem : ∀ members member, findFirst members = some member → member ∈ members
  least : ∀ members member, findFirst members = some member →
    ∀ other ∈ members, member.createdAt ≤ other.createdAt
  isSome : ∀ members, members ≠ [] → (findFirst members).isSome = true

/-- Of several equally old rows, the one inserted first. -/
def EarliestFirst.insertionOrder : EarliestFirst where
  findFirst members := members.minOn? Member.createdAt
  mem _ _ found := List.minOn?_mem found
  least _ _ found _ member :=
    (Option.get_of_eq_some (List.isSome_minOn?_of_mem member) found) ▸
      List.apply_get_minOn?_le_of_mem member
  isSome _ nonempty := List.isSome_minOn?_iff.mpr nonempty

/-- Of several equally old rows, the one inserted last. -/
def EarliestFirst.reverseOrder : EarliestFirst where
  findFirst members := insertionOrder.findFirst members.reverse
  mem members member found := List.mem_reverse.mp (insertionOrder.mem _ _ found)
  least members member found other own :=
    insertionOrder.least _ _ found other (List.mem_reverse.mpr own)
  isSome members nonempty := insertionOrder.isSome _ (by simpa using nonempty)

/-! ### Commands -/

/-- What a command does next.  It holds the lock from `rereading` on, until it has committed. -/
inductive Phase where
  | findingFirst
  | findingUser
  | locking (name slug : List Char)
  | rereading (name slug : List Char)
  | creatingOrganization (name slug : List Char)
  | creatingMember (organization : Organization)
  | committing (written : Option Workspace) (organizationId : String)
  | returned (organizationId : String)
  | rejected
  | aborted
  deriving DecidableEq, Repr

def Phase.finished : Phase → Bool
  | returned _ | rejected | aborted => true
  | _ => false

/-- The transaction of the command holds the advisory lock of its user. -/
def Phase.locked : Phase → Bool
  | rereading .. | creatingOrganization .. | creatingMember _ | committing .. => true
  | _ => false

structure Command where
  userId : String
  phase : Phase
  deriving DecidableEq, Repr

/-- The database, who holds which advisory lock, the identifiers generated so far, and the commands
started so far. -/
structure State where
  database : Database
  locks : Int → Option Nat := fun _ => none
  slugs : List (List Char) := []
  ids : List String := []
  commands : Nat → Option Command := fun _ => none

/-- What is generated for a step: by `generateId` for a slug, by the database for a new row. -/
structure Generated where
  uuid : List Char
  id : String
  now : Int
  deriving DecidableEq, Repr

inductive Action where
  | start (command : Nat) (userId : String)
  | advance (command : Nat) (generated : Generated)
  | abort (command : Nat)
  deriving DecidableEq, Repr

def Action.command : Action → Nat
  | start command _ | advance command _ | abort command => command

/-- `user.name.trim() || user.email.split('@')[0]` -/
def organizationName (user : User) : List Char :=
  if trim user.name = [] then user.email.takeWhile (· ≠ '@') else trim user.name

/-- `ws-` and the generated UUID without its hyphens. -/
def workspaceSlug (uuid : List Char) : List Char := "ws-".toList ++ uuid.filter (· ≠ '-')

def State.put (state : State) (command : Nat) (userId : String) (phase : Phase) : State :=
  { state with commands := Function.update state.commands command (some ⟨userId, phase⟩) }

/-- The transaction of the command is over, which gives back its locks. -/
def State.unlock (state : State) (command : Nat) : State :=
  { state with
    locks := fun key => if state.locks key = some command then none else state.locks key }

section Steps
variable (earliest : EarliestFirst) (hashtextextended : String → Int)

/-- `findFirstOrganizationId` and the same query inside `createIfAbsent`: over the rows committed by
the time of the query. -/
def Database.findFirstOrganizationId (database : Database) (userId : String) : Option String :=
  (earliest.findFirst (database.memberships userId)).map Member.organizationId

/-- One statement of a command. -/
def State.advance (state : State) (command : Nat) (userId : String) (generated : Generated) :
    Phase → Option State
  | .findingFirst =>
      some (state.put command userId
        (match state.database.findFirstOrganizationId earliest userId with
        | some organizationId => .returned organizationId
        | none => .findingUser))
  | .findingUser =>
      match state.database.users.find? (·.id = userId) with
      | none => some (state.put command userId .rejected)
      | some user =>
          let slug := workspaceSlug generated.uuid
          if slug ∈ state.database.slugs ∨ slug ∈ state.slugs then none
          else some { state.put command userId (.locking (organizationName user) slug) with
            slugs := slug :: state.slugs }
  | .locking name slug =>
      if state.locks (hashtextextended userId) = none then
        some { state.put command userId (.rereading name slug) with
          locks := Function.update state.locks (hashtextextended userId) (some command) }
      else none
  | .rereading name slug =>
      some (state.put command userId
        (match state.database.findFirstOrganizationId earliest userId with
        | some organizationId => .committing none organizationId
        | none => .creatingOrganization name slug))
  | .creatingOrganization name slug =>
      if generated.id ∈ state.database.organizations.map Organization.id ∨
          generated.id ∈ state.ids then none
      -- the slug is unique among the organizations
      else if slug ∈ state.database.slugs then
        some ((state.unlock command).put command userId .rejected)
      else some { state.put command userId (.creatingMember ⟨generated.id, name, slug⟩) with
        ids := generated.id :: state.ids }
  | .creatingMember organization =>
      some (state.put command userId
        (.committing (some ⟨organization, userId, generated.now⟩) organization.id))
  | .committing written organizationId =>
      some { (state.unlock command).put command userId (.returned organizationId) with
        database := state.database.add written.toList }
  | .returned _ | .rejected | .aborted => none

/-- An abort is any failure that ends the command and its transaction, such as a lost connection or
the end of its replica. -/
def State.step (state : State) : Action → Option State
  | .start command userId =>
      match state.commands command with
      | none => some (state.put command userId .findingFirst)
      | some _ => none
  | .advance command generated =>
      match state.commands command with
      | some ⟨userId, phase⟩ =>
          state.advance earliest hashtextextended command userId generated phase
      | none => none
  | .abort command =>
      match state.commands command with
      | some ⟨userId, phase⟩ =>
          if phase.finished then none
          else some ((state.unlock command).put command userId .aborted)
      | none => none

/-- What a step can do. -/
inductive Step (state : State) : Action → State → Prop
  | start {command : Nat} {userId : String} (unused : state.commands command = none) :
      Step state (.start command userId) (state.put command userId .findingFirst)
  | found {command : Nat} {generated : Generated} {userId organizationId : String}
      (current : state.commands command = some ⟨userId, .findingFirst⟩)
      (answer : state.database.findFirstOrganizationId earliest userId = some organizationId) :
      Step state (.advance command generated) (state.put command userId (.returned organizationId))
  | missing {command : Nat} {generated : Generated} {userId : String}
      (current : state.commands command = some ⟨userId, .findingFirst⟩) :
      Step state (.advance command generated) (state.put command userId .findingUser)
  | unknown {command : Nat} {generated : Generated} {userId : String}
      (current : state.commands command = some ⟨userId, .findingUser⟩)
      (noUser : state.database.users.find? (·.id = userId) = none) :
      Step state (.advance command generated) (state.put command userId .rejected)
  | named {command : Nat} {generated : Generated} {userId : String} {name : List Char}
      (current : state.commands command = some ⟨userId, .findingUser⟩)
      (unused : workspaceSlug generated.uuid ∉ state.database.slugs)
      (new : workspaceSlug generated.uuid ∉ state.slugs) :
      Step state (.advance command generated)
        { state.put command userId (.locking name (workspaceSlug generated.uuid)) with
          slugs := workspaceSlug generated.uuid :: state.slugs }
  | lock {command : Nat} {generated : Generated} {userId : String} {name slug : List Char}
      (current : state.commands command = some ⟨userId, .locking name slug⟩)
      (free : state.locks (hashtextextended userId) = none) :
      Step state (.advance command generated)
        { state.put command userId (.rereading name slug) with
          locks := Function.update state.locks (hashtextextended userId) (some command) }
  | existing {command : Nat} {generated : Generated} {userId organizationId : String}
      {name slug : List Char}
      (current : state.commands command = some ⟨userId, .rereading name slug⟩)
      (answer : state.database.findFirstOrganizationId earliest userId = some organizationId) :
      Step state (.advance command generated)
        (state.put command userId (.committing none organizationId))
  | vacant {command : Nat} {generated : Generated} {userId : String} {name slug : List Char}
      (current : state.commands command = some ⟨userId, .rereading name slug⟩)
      (answer : state.database.findFirstOrganizationId earliest userId = none) :
      Step state (.advance command generated)
        (state.put command userId (.creatingOrganization name slug))
  | conflict {command : Nat} {generated : Generated} {userId : String} {name slug : List Char}
      (current : state.commands command = some ⟨userId, .creatingOrganization name slug⟩)
      (used : slug ∈ state.database.slugs) :
      Step state (.advance command generated) ((state.unlock command).put command userId .rejected)
  | organization {command : Nat} {generated : Generated} {userId : String} {name slug : List Char}
      (current : state.commands command = some ⟨userId, .creatingOrganization name slug⟩) :
      Step state (.advance command generated)
        { state.put command userId (.creatingMember ⟨generated.id, name, slug⟩) with
          ids := generated.id :: state.ids }
  | member {command : Nat} {generated : Generated} {userId : String} {organization : Organization}
      (current : state.commands command = some ⟨userId, .creatingMember organization⟩) :
      Step state (.advance command generated)
        (state.put command userId
          (.committing (some ⟨organization, userId, generated.now⟩) organization.id))
  | commit {command : Nat} {generated : Generated} {userId organizationId : String}
      {written : Option Workspace}
      (current : state.commands command = some ⟨userId, .committing written organizationId⟩) :
      Step state (.advance command generated)
        { (state.unlock command).put command userId (.returned organizationId) with
          database := state.database.add written.toList }
  | abort {command : Nat} {userId : String} {phase : Phase}
      (current : state.commands command = some ⟨userId, phase⟩)
      (unfinished : phase.finished = false) :
      Step state (.abort command) ((state.unlock command).put command userId .aborted)

variable {earliest hashtextextended} {state after : State}

theorem step_of_advance {command : Nat} {userId : String} {generated : Generated} {phase : Phase}
    (current : state.commands command = some ⟨userId, phase⟩)
    (taken : state.advance earliest hashtextextended command userId generated phase = some after) :
    Step earliest hashtextextended state (.advance command generated) after := by
  cases phase with
  | findingFirst =>
    obtain rfl := Option.some.inj taken
    cases answer : state.database.findFirstOrganizationId earliest userId with
    | none => exact .missing current
    | some organizationId => exact .found current answer
  | findingUser =>
    simp only [State.advance] at taken
    split at taken
    · rename_i noUser
      obtain rfl := Option.some.inj taken
      exact .unknown current noUser
    · split at taken
      · simp at taken
      · rename_i unused
        obtain ⟨unused, new⟩ := not_or.mp unused
        obtain rfl := Option.some.inj taken
        exact .named current unused new
  | locking name slug =>
    simp only [State.advance] at taken
    split at taken
    · rename_i free
      obtain rfl := Option.some.inj taken
      exact .lock current free
    · simp at taken
  | rereading name slug =>
    obtain rfl := Option.some.inj taken
    cases answer : state.database.findFirstOrganizationId earliest userId with
    | none => exact .vacant current answer
    | some organizationId => exact .existing current answer
  | creatingOrganization name slug =>
    simp only [State.advance] at taken
    split at taken
    · simp at taken
    · split at taken
      · rename_i used
        obtain rfl := Option.some.inj taken
        exact .conflict current used
      · obtain rfl := Option.some.inj taken
        exact .organization current
  | creatingMember organization =>
    obtain rfl := Option.some.inj taken
    exact .member current
  | committing written organizationId =>
    obtain rfl := Option.some.inj taken
    exact .commit current
  | returned organizationId => simp [State.advance] at taken
  | rejected => simp [State.advance] at taken
  | aborted => simp [State.advance] at taken

theorem step_cases {action : Action}
    (taken : state.step earliest hashtextextended action = some after) :
    Step earliest hashtextextended state action after := by
  cases action with
  | start command userId =>
    simp only [State.step] at taken
    split at taken
    · rename_i unused
      obtain rfl := Option.some.inj taken
      exact .start unused
    · simp at taken
  | advance command generated =>
    simp only [State.step] at taken
    split at taken
    · rename_i userId phase current
      exact step_of_advance current taken
    · simp at taken
  | abort command =>
    simp only [State.step] at taken
    split at taken
    · rename_i userId phase current
      split at taken
      · simp at taken
      · rename_i unfinished
        obtain rfl := Option.some.inj taken
        exact .abort current (Bool.eq_false_iff.mpr unfinished)
    · simp at taken

end Steps

/-- Commands over a database that nothing else changes; each step goes with the way in which its query
picks among equally old rows. -/
def system (hashtextextended : String → Int) (before : Database) :
    TransitionSystem State (EarliestFirst × Action) where
  initial state := state = { database := before }
  step state event := state.step event.1 hashtextextended event.2

end NestjsFastify.PersonalOrganization
