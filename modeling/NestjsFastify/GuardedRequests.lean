import NestjsFastify.RequestGuards
import NestjsFastify.TransitionSystem

/-! # Requests while access changes

Requests pass the guards while keys are issued and revoked, and while sessions, members, teams and
roles come and go.  Who is admitted has shown its right at moments of its own request.
-/
namespace NestjsFastify.RequestGuards
open Authorization

section System
variable {Headers : Type} (platform : Platform Headers)

/-! ### The system -/

structure State (Headers : Type) where
  database : Database
  now : Int
  requests : List (ExecutionContext Headers × Stage)

inductive Action (Headers : Type) where
  | arrive (context : ExecutionContext Headers)
  | advance (index : Nat)
  | issueApiKey (row : ApiKeyRow)
  | revokeApiKey (organizationId id : String)
  | deleteOrganization (organizationId : String)
  | change (database : Database)
  | pass (milliseconds : Nat)

/-- `PrismaApiKeyRepository.create`, which the constraints of the table refuse for a second row. -/
def Database.create (database : Database) (row : ApiKeyRow) : Option Database :=
  if database.apiKeys.any fun other => other.id = row.id || other.keyHash = row.keyHash then none
  else some { database with apiKeys := row :: database.apiKeys }

/-- `PrismaApiKeyRepository.revoke` -/
def Database.revoke (database : Database) (organizationId id : String) (revokedAt : Int) :
    Database :=
  { database with apiKeys := database.apiKeys.map fun row =>
      if row.id = id ∧ row.organizationId = organizationId ∧ row.revokedAt = none then
        { row with revokedAt := some revokedAt }
      else row }

/-- The rows of an organization's keys go with it. -/
def Database.deleteOrganization (database : Database) (organizationId : String) : Database :=
  { database with apiKeys := database.apiKeys.filter fun row =>
      row.organizationId ≠ organizationId }

def State.step (state : State Headers) : Action Headers → Option (State Headers)
  | .arrive context =>
      some { state with requests := state.requests ++ [(context, .apiKeyGuard)] }
  | .advance index =>
      match state.requests[index]? with
      | none => none
      | some (context, stage) =>
          let next := RequestGuards.advance platform context state.database state.now stage
          some { state with requests := state.requests.set index (context, next) }
  | .issueApiKey row =>
      match state.database.create row with
      | none => none
      | some database => some { state with database }
  | .revokeApiKey organizationId id =>
      some { state with database := state.database.revoke organizationId id state.now }
  | .deleteOrganization organizationId =>
      some { state with database := state.database.deleteOrganization organizationId }
  | .change database =>
      -- the tables of Better Auth and of the organizations, by any of their writers
      some { state with database := { database with apiKeys := state.database.apiKeys } }
  | .pass milliseconds => some { state with now := state.now + milliseconds }

/-- The tables may hold anything at the start that their constraints allow. -/
def system : TransitionSystem (State Headers) (Action Headers) where
  initial state := state.requests = [] ∧ (state.database.apiKeys.map ApiKeyRow.id).Nodup ∧
    (state.database.apiKeys.map ApiKeyRow.keyHash).Nodup
  step := State.step platform

/-! ### What an admitted request has shown -/

abbrev History (Headers : Type) : Type := List (State Headers × Action Headers)

/-- Something held of the database at a moment at which the request was looked at. -/
def During (history : History Headers) (index : Nat) (fact : Database → Int → Prop) : Prop :=
  ∃ entry ∈ history, entry.2 = .advance index ∧ fact entry.1.database entry.1.now

/-- The key that the request presents is stored, not revoked and not expired. -/
def KeyAccepted (context : ExecutionContext Headers) (key : AuthenticatedApiKey)
    (database : Database) (now : Int) : Prop :=
  ∃ presented row, context.presented = some presented ∧ row ∈ database.apiKeys ∧
    row.keyHash = platform.hashApiKey presented ∧ row.revokedAt = none ∧
    (∀ expiresAt ∈ row.expiresAt, now < expiresAt) ∧
    key = ⟨row.id, row.organizationId, row.scopes⟩

/-- The session is stored and not expired, and its user is active. -/
def SessionAccepted (session : SessionRow) (user : UserRow) (database : Database) (now : Int) :
    Prop :=
  session ∈ database.sessions ∧ user ∈ database.users ∧ user.id = session.userId ∧
    now ≤ session.expiresAt ∧ user.status = "ACTIVE"

def IsMember (organizationId userId : String) (database : Database) (_ : Int) : Prop :=
  ∃ row ∈ database.members, row.organizationId = organizationId ∧ row.userId = userId

def IsTeamMember (teamId organizationId userId : String) (database : Database) (_ : Int) : Prop :=
  (∃ row ∈ database.teamMembers, row.teamId = teamId ∧ row.userId = userId) ∧
    ∃ team ∈ database.teams, team.id = teamId ∧ team.organizationId = organizationId

/-- The user of a session, with an organization and a team of which it was a member. -/
structure Scoped (history : History Headers) (index : Nat) (session : SessionRow) (row : UserRow)
    (user : AuthenticatedSession) : Prop where
  same : user = authenticatedSession session row user.organizationId user.teamId
  organization : ∀ organizationId ∈ user.organizationId,
    session.activeOrganizationId = some organizationId ∧
      During history index (IsMember organizationId user.userId)
  team : ∀ teamId ∈ user.teamId, session.activeTeamId = some teamId ∧
    ∃ organizationId ∈ user.organizationId,
      During history index (IsTeamMember teamId organizationId user.userId)

/-- How a request came by its caller: none was asked for, or a key or a session was accepted. -/
inductive Identified (history : History Headers) (index : Nat)
    (context : ExecutionContext Headers) : Caller → Prop
  | nobody (skipped : context.skipped = true) : Identified history index context {}
  | machine {key : AuthenticatedApiKey} (asked : context.skipped = false)
      (allowed : context.allowsApiKey = true)
      (accepted : During history index (KeyAccepted platform context key)) :
      Identified history index context { apiKey := some key }
  | person {session : SessionRow} {row : UserRow} {user : AuthenticatedSession}
      (asked : context.skipped = false) (keyless : context.presented = none)
      (accepted : During history index (SessionAccepted session row))
      (scope : Scoped history index session row user) :
      Identified history index context { user := some user }

/-- A role that the route asks for is held. -/
def InRole (context : ExecutionContext Headers) (caller : Caller) : Prop :=
  context.isPublic = true ∨ context.requiredRoles = [] ∨
    ∃ user ∈ roleHolder context caller, user.role ∈ context.requiredRoles

/-- The permission was granted: to the key, to everyone with a session, or to the member by the role
that it had and by what this role meant. -/
inductive Granted (history : History Headers) (index : Nat) (permission : Permission) :
    Caller → Prop
  | scope {key : AuthenticatedApiKey} (named : permission.text ∈ key.scopes) :
      Granted history index permission { apiKey := some key }
  | independent {user : AuthenticatedSession}
      (independent : permission ∈ membershipIndependentPermissions) :
      Granted history index permission { user := some user }
  | role {user : AuthenticatedSession} {organizationId : String} {rawRole : List Char}
      (active : user.organizationId = some organizationId)
      (held : During history index fun database _ =>
        membershipRole database.members organizationId user.userId = some rawRole)
      (grants : During history index fun database _ =>
        permission ∈ resolvePermissions database.organizationRoles organizationId rawRole) :
      Granted history index permission { user := some user }

/-- What an admitted request has shown. -/
structure Admitted (history : History Headers) (index : Nat) (context : ExecutionContext Headers)
    (caller : Caller) : Prop where
  identified : Identified platform history index context caller
  inRole : InRole context caller
  granted : context.skipped = true ∨
    ∀ permission ∈ context.requiredPermissions, Granted history index permission caller

/-- What a request has shown when the guards have come so far. -/
def Shown (history : History Headers) (index : Nat) (context : ExecutionContext Headers) :
    Stage → Prop
  | .apiKeyGuard => True
  | .betterAuthGuard (some key) =>
      context.skipped = false ∧ context.allowsApiKey = true ∧
        During history index (KeyAccepted platform context key)
  | .betterAuthGuard none => context.skipped = true ∨ context.presented = none
  | .memberLookup session user =>
      context.skipped = false ∧ context.presented = none ∧
        During history index (SessionAccepted session user)
  | .teamLookup session user organizationId =>
      context.skipped = false ∧ context.presented = none ∧
        During history index (SessionAccepted session user) ∧
        truthy session.activeOrganizationId = some organizationId ∧
        During history index (IsMember organizationId user.id)
  | .rolesGuard caller => Identified platform history index context caller
  | .permissionGuard caller =>
      Identified platform history index context caller ∧ InRole context caller
  | .customRoles user organizationId rawRole =>
      Identified platform history index context { user := some user } ∧
        InRole context { user := some user } ∧ context.skipped = false ∧
        user.organizationId = some organizationId ∧
        During history index fun database _ =>
          membershipRole database.members organizationId user.userId = some rawRole
  | .admitted caller => Admitted platform history index context caller
  | .rejected _ => True

variable {platform}

/-! ### What has been shown stays shown -/

section Cons
variable {history : History Headers} {index : Nat} {entry : State Headers × Action Headers}

theorem During.cons {fact : Database → Int → Prop} (during : During history index fact) :
    During (entry :: history) index fact := by
  obtain ⟨earlier, member, taken, holds⟩ := during
  exact ⟨earlier, List.mem_cons_of_mem _ member, taken, holds⟩

theorem Scoped.cons {session : SessionRow} {row : UserRow} {user : AuthenticatedSession}
    (scope : Scoped history index session row user) :
    Scoped (entry :: history) index session row user where
  same := scope.same
  organization organizationId active := by
    obtain ⟨own, member⟩ := scope.organization organizationId active
    exact ⟨own, member.cons⟩
  team teamId active := by
    obtain ⟨own, organizationId, within, member⟩ := scope.team teamId active
    exact ⟨own, organizationId, within, member.cons⟩

variable {context : ExecutionContext Headers} {caller : Caller}

theorem Identified.cons (identified : Identified platform history index context caller) :
    Identified platform (entry :: history) index context caller := by
  cases identified with
  | nobody skipped => exact .nobody skipped
  | machine asked allowed accepted => exact .machine asked allowed accepted.cons
  | person asked keyless accepted scope => exact .person asked keyless accepted.cons scope.cons

theorem Granted.cons {permission : Permission} (granted : Granted history index permission caller) :
    Granted (entry :: history) index permission caller := by
  cases granted with
  | scope named => exact .scope named
  | independent independent => exact .independent independent
  | role active held grants => exact .role active held.cons grants.cons

theorem Admitted.cons (admitted : Admitted platform history index context caller) :
    Admitted platform (entry :: history) index context caller where
  identified := admitted.identified.cons
  inRole := admitted.inRole
  granted := admitted.granted.imp_right fun granted permission required =>
    (granted permission required).cons

theorem Shown.cons {stage : Stage} (shown : Shown platform history index context stage) :
    Shown platform (entry :: history) index context stage := by
  cases stage with
  | apiKeyGuard => trivial
  | betterAuthGuard apiKey =>
    cases apiKey with
    | none => exact shown
    | some key =>
      obtain ⟨asked, allowed, accepted⟩ := shown
      exact ⟨asked, allowed, accepted.cons⟩
  | memberLookup session user =>
    obtain ⟨asked, keyless, accepted⟩ := shown
    exact ⟨asked, keyless, accepted.cons⟩
  | teamLookup session user organizationId =>
    obtain ⟨asked, keyless, accepted, active, member⟩ := shown
    exact ⟨asked, keyless, accepted.cons, active, member.cons⟩
  | rolesGuard caller => exact Identified.cons shown
  | permissionGuard caller =>
    obtain ⟨identified, inRole⟩ := shown
    exact ⟨identified.cons, inRole⟩
  | customRoles user organizationId rawRole =>
    obtain ⟨identified, inRole, asked, active, held⟩ := shown
    exact ⟨identified.cons, inRole, asked, active, held.cons⟩
  | admitted caller => exact Admitted.cons shown
  | rejected rejection => trivial

end Cons

/-! ### What each guard has checked -/

section Guards
variable {context : ExecutionContext Headers} {database : Database} {now : Int}

theorem ApiKeyGuard.of_canActivate {apiKey : Option AuthenticatedApiKey}
    (passed : ApiKeyGuard.canActivate platform context database now = .ok apiKey) :
    apiKey = none ∧ (context.skipped = true ∨ context.presented = none) ∨
      ∃ key, apiKey = some key ∧ context.skipped = false ∧ context.allowsApiKey = true ∧
        KeyAccepted platform context key database now := by
  unfold ApiKeyGuard.canActivate at passed
  by_cases skipped : context.skipped = true
  · left
    rw [if_pos skipped] at passed
    exact ⟨(Except.ok.inj passed).symm, .inl skipped⟩
  · rw [if_neg skipped] at passed
    cases presented : context.presented with
    | none =>
      left
      simp only [presented] at passed
      exact ⟨(Except.ok.inj passed).symm, .inr rfl⟩
    | some key =>
      right
      simp only [presented] at passed
      split_ifs at passed with refused
      cases found : database.apiKeys.find? (·.keyHash = platform.hashApiKey key) with
      | none => simp [found] at passed
      | some row =>
        simp only [found] at passed
        split_ifs at passed with revoked expired
        have same := List.find?_some found
        rw [decide_eq_true_iff] at same
        refine ⟨_, (Except.ok.inj passed).symm, (Bool.not_eq_true _).mp skipped,
          (Bool.not_eq_false _).mp refused, key, row, presented, List.mem_of_find?_eq_some found,
          same, ?_, ?_, rfl⟩
        · exact Option.not_isSome_iff_eq_none.mp revoked
        · intro expiresAt stored
          by_contra late
          apply expired
          rw [stored]
          exact decide_eq_true (Int.not_lt.mp late)

theorem BetterAuthGuard.of_resolveSession {session : SessionRow} {user : UserRow}
    (resolved : BetterAuthGuard.resolveSession platform context database now =
      .ok (session, user)) :
    SessionAccepted session user database now := by
  unfold BetterAuthGuard.resolveSession at resolved
  cases found : platform.getSession context.headers database with
  | none => simp [found] at resolved
  | some pair =>
    obtain ⟨own, row⟩ := pair
    simp only [found] at resolved
    split_ifs at resolved with expired inactive
    obtain ⟨rfl, rfl⟩ := Prod.mk.inj (Except.ok.inj resolved)
    obtain ⟨session, user, same⟩ := platform.stored _ _ _ _ found
    exact ⟨session, user, same, Int.not_lt.mp expired, not_not.mp inactive⟩

theorem of_findMembership {organizationId userId found : String}
    (member : findMembership database organizationId userId = some found) :
    found = organizationId ∧ IsMember organizationId userId database now := by
  obtain ⟨row, found, rfl⟩ := Option.map_eq_some_iff.mp member
  have same := List.find?_some found
  rw [decide_eq_true_iff] at same
  exact ⟨same.1, row, List.mem_of_find?_eq_some found, same⟩

theorem of_findTeamMembership {teamId userId organizationId found : String}
    (member : findTeamMembership database teamId userId organizationId = some found) :
    found = teamId ∧ IsTeamMember teamId organizationId userId database now := by
  obtain ⟨row, found, rfl⟩ := Option.map_eq_some_iff.mp member
  have same := List.find?_some found
  rw [decide_eq_true_iff] at same
  obtain ⟨rfl, user, teams⟩ := same
  obtain ⟨team, own, within⟩ := List.any_eq_true.mp teams
  exact ⟨rfl, ⟨row, List.mem_of_find?_eq_some found, rfl, user⟩, team, own,
    of_decide_eq_true within⟩

theorem RolesGuard.of_canActivate {caller : Caller}
    (passed : RolesGuard.canActivate context caller = .ok ()) : InRole context caller := by
  unfold RolesGuard.canActivate at passed
  split_ifs at passed with isPublic none
  · exact .inl isPublic
  · exact .inr (.inl none)
  · cases holder : roleHolder context caller with
    | none => simp [holder] at passed
    | some user =>
      simp only [holder] at passed
      split_ifs at passed with own
      exact .inr (.inr ⟨user, holder, own⟩)

/-- A conclusion admits whoever it is about, if every permission is granted. -/
theorem of_concluded {caller admitted : Caller} {required : List Permission}
    {decide : Permission → AccessDecision}
    (concluded : concluded caller required (required.map decide) = .admitted admitted) :
    admitted = caller ∧ ∀ permission ∈ required, (decide permission).allowed = true := by
  unfold RequestGuards.concluded at concluded
  generalize denied : (required.zip (required.map decide)).find? _ = found at concluded
  cases found with
  | some pair => simp at concluded
  | none =>
    refine ⟨(Stage.admitted.inj concluded).symm, fun permission member => ?_⟩
    have among : (permission, decide permission) ∈ required.zip (required.map decide) := by
      rw [List.zip_map_right]
      exact List.mem_map.mpr ⟨(permission, permission), by
        rw [List.mem_iff_getElem] at member ⊢
        obtain ⟨place, within, rfl⟩ := member
        exact ⟨place, by simpa using within, by simp⟩, rfl⟩
    have allowed := List.find?_eq_none.mp denied _ among
    simpa using allowed

/-- A conclusion is an admission or a rejection. -/
theorem concluded_cases (caller : Caller) (required : List Permission)
    (decisions : List AccessDecision) :
    concluded caller required decisions = .admitted caller ∨
      ∃ rejection, concluded caller required decisions = .rejected rejection := by
  unfold concluded
  split
  · exact .inr ⟨_, rfl⟩
  · exact .inl rfl

theorem ownsResource_eq_false (policy : PolicyContext) (permission : Permission) :
    ownsResource policy { permission } = false := by
  unfold ownsResource
  cases policy.principal <;> simp [Principal.isUser, Principal.userId?, CheckRequest.ownerId]

/-- Without a resource, a permission is granted if it is held. -/
theorem holds_of_decideAccess {policy : PolicyContext} {permission : Permission}
    (allowed : (decideRequest policy { permission }).allowed = true) :
    holds policy permission = true := by
  unfold decideRequest at allowed
  split_ifs at allowed with nonMember crosses held owned
  · exact held
  · rw [ownsResource_eq_false] at owned
    cases owned

end Guards

/-! ### One step of a request -/

section Step
variable {history : History Headers} {index : Nat} {context : ExecutionContext Headers}
  {state : State Headers}

/-- What holds when the request is looked at. -/
theorem During.now {fact : Database → Int → Prop} (holds : fact state.database state.now) :
    During ((state, .advance index) :: history) index fact :=
  ⟨_, List.mem_cons_self, rfl, holds⟩

theorem eq_some_of_truthy {text : Option String} {value : String}
    (used : truthy text = some value) : text = some value := (Option.filter_eq_some_iff.mp used).1

theorem truthy_truthy (text : Option String) : truthy (truthy text) = truthy text := by
  rw [truthy, truthy, Option.filter_filter]
  simp only [Bool.and_self]

theorem authenticatedSession_same (session : SessionRow) (row : UserRow)
    (organizationId teamId : Option String) :
    authenticatedSession session row organizationId teamId =
      authenticatedSession session row (truthy organizationId) (truthy teamId) := by
  rw [authenticatedSession, authenticatedSession, truthy_truthy, truthy_truthy]

theorem identified_of_member {session : SessionRow} {row : UserRow} {organizationId : String}
    {teamId : Option String} (asked : context.skipped = false) (keyless : context.presented = none)
    (accepted : During history index (SessionAccepted session row))
    (active : truthy session.activeOrganizationId = some organizationId)
    (member : During history index (IsMember organizationId row.id))
    (team : ∀ found ∈ teamId, session.activeTeamId = some found ∧
      During history index (IsTeamMember found organizationId row.id)) :
    Identified platform history index context
      { user := some (authenticatedSession session row (some organizationId) teamId) } := by
  have own : truthy (some organizationId) = some organizationId := by
    rw [← active, truthy_truthy]
  refine .person asked keyless accepted ⟨authenticatedSession_same _ _ _ _, ?_, ?_⟩
  · intro found within
    obtain rfl : organizationId = found := Option.some.inj (own.symm.trans within)
    exact ⟨eq_some_of_truthy active, member⟩
  · intro found within
    obtain ⟨same, among⟩ := team found (eq_some_of_truthy within)
    exact ⟨same, organizationId, own, among⟩

theorem identified_of_session {session : SessionRow} {row : UserRow}
    (asked : context.skipped = false) (keyless : context.presented = none)
    (accepted : During history index (SessionAccepted session row)) :
    Identified platform history index context
      { user := some (authenticatedSession session row none none) } := by
  refine .person asked keyless accepted ⟨rfl, ?_, ?_⟩
  · rintro organizationId ⟨⟩
  · rintro teamId ⟨⟩

theorem decideAccess_checkRequests (policy : PolicyContext) (required : List Permission) :
    decideAccess policy (checkRequests required) =
      required.map fun permission => decideRequest policy { permission } := by
  rw [decideAccess, checkRequests, List.map_map]
  rfl

/-- A conclusion about the permissions of the route. -/
theorem shown_concluded {caller : Caller} {decide : Permission → AccessDecision}
    (identified : Identified platform history index context caller)
    (inRole : InRole context caller)
    (grants : ∀ permission, (decide permission).allowed = true →
      Granted history index permission caller) :
    Shown platform history index context
      (concluded caller context.requiredPermissions (context.requiredPermissions.map decide)) := by
  rcases concluded_cases caller context.requiredPermissions
    (context.requiredPermissions.map decide) with admitted | ⟨rejection, rejected⟩
  · obtain ⟨-, allowed⟩ := of_concluded admitted
    rw [admitted]
    exact ⟨identified, inRole, .inr fun permission required =>
      grants permission (allowed permission required)⟩
  · rw [rejected]
    trivial

/-- What a user without a role in an organization may do. -/
theorem granted_of_nobody {user : AuthenticatedSession} {organizationId : String}
    {permission : Permission}
    (allowed : (decideRequest ⟨.user user.userId organizationId none, [], false⟩
      { permission }).allowed = true) :
    Granted history index permission { user := some user } := by
  have held := holds_of_decideAccess allowed
  simp only [holds, List.not_mem_nil, decide_false, Bool.false_or, holdsMembershipIndependentGrant,
    Bool.and_eq_true, decide_eq_true_eq] at held
  exact .independent held.2

theorem shown_permissionGuard {caller : Caller}
    (identified : Identified platform history index context caller)
    (inRole : InRole context caller) :
    Shown platform ((state, .advance index) :: history) index context
      (PermissionGuard.canActivate context caller state.database) := by
  unfold PermissionGuard.canActivate
  by_cases skipped : context.skipped = true
  · rw [if_pos skipped]
    exact ⟨identified.cons, inRole, .inl skipped⟩
  rw [if_neg skipped]
  cases required : context.requiredPermissions with
  | nil =>
    refine ⟨identified.cons, inRole, .inr ?_⟩
    intro permission among
    rw [required] at among
    cases among
  | cons first rest =>
    rw [← required]
    cases identified with
    | nobody free => exact absurd free skipped
    | @machine key asked allowed accepted =>
      simp only [required]
      rw [← required, decideAccess_checkRequests]
      refine shown_concluded (Identified.machine asked allowed accepted).cons inRole ?_
      intro permission granted
      have held := holds_of_decideAccess granted
      simp [holds, policyContext, permissionsForNonUserPrincipal, holdsMembershipIndependentGrant,
        Principal.isUser] at held
      exact .scope held.1
    | @person session row user asked keyless accepted scope =>
      have person : Identified platform history index context { user := some user } :=
        .person asked keyless accepted scope
      simp only [required]
      rw [← required]
      cases active : truthy user.organizationId with
      | none =>
        simp only []
        split_ifs with independent
        · refine shown_concluded person.cons inRole ?_
          intro permission granted
          split_ifs at granted with among
          exact .independent among
        · trivial
      | some organizationId =>
        cases role : membershipRole state.database.members organizationId user.userId with
        | none =>
          simp only [role]
          rw [decideAccess_checkRequests]
          exact shown_concluded person.cons inRole fun permission => granted_of_nobody
        | some rawRole =>
          simp only [role]
          exact ⟨person.cons, inRole, asked, eq_some_of_truthy active, .now role⟩

/-- Each guard shows what the next one relies on. -/
theorem shown_advance {stage : Stage} (shown : Shown platform history index context stage) :
    Shown platform ((state, .advance index) :: history) index context
      (advance platform context state.database state.now stage) := by
  cases stage with
  | apiKeyGuard =>
    simp only [advance]
    cases passed : ApiKeyGuard.canActivate platform context state.database state.now with
    | error rejection => trivial
    | ok apiKey =>
      rcases ApiKeyGuard.of_canActivate passed with
        ⟨rfl, keyless⟩ | ⟨key, rfl, asked, allowed, own⟩
      · exact keyless
      · exact ⟨asked, allowed, .now own⟩
  | betterAuthGuard apiKey =>
    cases apiKey with
    | some key =>
      obtain ⟨asked, allowed, accepted⟩ := shown
      simp only [advance, Option.isSome_some, Bool.or_true, if_true]
      exact .machine asked allowed accepted.cons
    | none =>
      simp only [advance, Option.isSome_none, Bool.or_false]
      split_ifs with skipped
      · exact .nobody skipped
      · have keyless := shown.resolve_left skipped
        cases resolved : BetterAuthGuard.resolveSession platform context state.database
            state.now with
        | error rejection => trivial
        | ok pair =>
          obtain ⟨session, user⟩ := pair
          exact ⟨(Bool.not_eq_true _).mp skipped, keyless,
            .now (BetterAuthGuard.of_resolveSession resolved)⟩
  | memberLookup session user =>
    obtain ⟨asked, keyless, accepted⟩ := shown
    simp only [advance]
    cases active : truthy session.activeOrganizationId with
    | none => exact identified_of_session asked keyless accepted.cons
    | some organizationId =>
      cases found : findMembership state.database organizationId user.id with
      | none =>
        simp only [found]
        exact identified_of_session asked keyless accepted.cons
      | some own =>
        obtain ⟨rfl, member⟩ : own = organizationId ∧
            IsMember organizationId user.id state.database state.now :=
          of_findMembership found
        simp only [found]
        exact ⟨asked, keyless, accepted.cons, active, .now member⟩
  | teamLookup session user organizationId =>
    obtain ⟨asked, keyless, accepted, active, member⟩ := shown
    refine identified_of_member asked keyless accepted.cons active member.cons ?_
    intro found team
    obtain ⟨teamId, own, looked⟩ := Option.bind_eq_some_iff.mp team
    obtain ⟨rfl, among⟩ : found = teamId ∧
        IsTeamMember teamId organizationId user.id state.database state.now :=
      of_findTeamMembership looked
    exact ⟨eq_some_of_truthy own, .now among⟩
  | rolesGuard caller =>
    simp only [advance]
    cases passed : RolesGuard.canActivate context caller with
    | error rejection => trivial
    | ok _ => exact ⟨Identified.cons shown, RolesGuard.of_canActivate passed⟩
  | permissionGuard caller =>
    obtain ⟨identified, inRole⟩ := shown
    exact shown_permissionGuard identified inRole
  | customRoles user organizationId rawRole =>
    obtain ⟨identified, inRole, asked, active, held⟩ := shown
    simp only [advance]
    rw [decideAccess_checkRequests]
    refine shown_concluded identified.cons inRole ?_
    intro permission allowed
    have granted := holds_of_decideAccess allowed
    rw [holds, Bool.or_eq_true, decide_eq_true_eq, holdsMembershipIndependentGrant,
      Bool.and_eq_true, decide_eq_true_eq] at granted
    rcases granted with listed | ⟨-, independent⟩
    · obtain ⟨own, among, same⟩ := List.mem_map.mp listed
      obtain rfl := Permission.text_injective same
      exact .role active held.cons (.now among)
    · exact .independent independent
  | admitted caller => exact Admitted.cons shown
  | rejected rejection => trivial

end Step

/-! ### Every run -/

section Runs
variable {history : History Headers} {state : State Headers}

/-- What a step can do. -/
inductive Step (platform : Platform Headers) (before : State Headers) :
    Action Headers → State Headers → Prop
  | arrive (context : ExecutionContext Headers) :
      Step platform before (.arrive context)
        { before with requests := before.requests ++ [(context, .apiKeyGuard)] }
  | advance {index : Nat} {context : ExecutionContext Headers} {stage : Stage}
      (found : before.requests[index]? = some (context, stage)) :
      Step platform before (.advance index)
        { before with
          requests := before.requests.set index
            (context, RequestGuards.advance platform context before.database before.now stage) }
  | issueApiKey {row : ApiKeyRow} {database : Database}
      (created : before.database.create row = some database) :
      Step platform before (.issueApiKey row) { before with database }
  | revokeApiKey (organizationId id : String) :
      Step platform before (.revokeApiKey organizationId id)
        { before with database := before.database.revoke organizationId id before.now }
  | deleteOrganization (organizationId : String) :
      Step platform before (.deleteOrganization organizationId)
        { before with database := before.database.deleteOrganization organizationId }
  | change (database : Database) :
      Step platform before (.change database)
        { before with database := { database with apiKeys := before.database.apiKeys } }
  | pass (milliseconds : Nat) :
      Step platform before (.pass milliseconds) { before with now := before.now + milliseconds }

theorem step_cases {before after : State Headers} {action : Action Headers}
    (taken : before.step platform action = some after) : Step platform before action after := by
  cases action with
  | arrive context =>
    obtain rfl := Option.some.inj taken
    exact .arrive context
  | advance index =>
    simp only [State.step] at taken
    cases found : before.requests[index]? with
    | none => simp [found] at taken
    | some pair =>
      simp only [found] at taken
      obtain rfl := Option.some.inj taken
      exact .advance found
  | issueApiKey row =>
    simp only [State.step] at taken
    cases created : before.database.create row with
    | none => simp [created] at taken
    | some database =>
      simp only [created] at taken
      obtain rfl := Option.some.inj taken
      exact .issueApiKey created
  | revokeApiKey organizationId id =>
    obtain rfl := Option.some.inj taken
    exact .revokeApiKey organizationId id
  | deleteOrganization organizationId =>
    obtain rfl := Option.some.inj taken
    exact .deleteOrganization organizationId
  | change database =>
    obtain rfl := Option.some.inj taken
    exact .change database
  | pass milliseconds =>
    obtain rfl := Option.some.inj taken
    exact .pass milliseconds

/-- A step leaves the other requests and their stages. -/
theorem requests_of_step {before after : State Headers} {action : Action Headers}
    (taken : before.step platform action = some after) {index : Nat}
    {context : ExecutionContext Headers} {stage : Stage}
    (found : after.requests[index]? = some (context, stage)) :
    before.requests[index]? = some (context, stage) ∨ stage = .apiKeyGuard ∨
      ∃ earlier, action = .advance index ∧ before.requests[index]? = some (context, earlier) ∧
        stage = advance platform context before.database before.now earlier := by
  cases step_cases taken with
  | arrive arrived =>
    rw [List.getElem?_append] at found
    split_ifs at found with known
    · exact .inl found
    · right; left
      have member := List.mem_of_getElem? found
      rw [List.mem_singleton] at member
      exact (Prod.mk.inj member).2
  | @advance moved own earlier known =>
    rw [List.getElem?_set] at found
    split_ifs at found with same within
    · subst same
      obtain ⟨rfl, rfl⟩ := Prod.mk.inj (Option.some.inj found)
      exact .inr (.inr ⟨earlier, rfl, known, rfl⟩)
    · exact .inl found
  | issueApiKey | revokeApiKey | deleteOrganization | change | pass => exact .inl found

theorem shown_of_run (run : (system platform).Run history state) {index : Nat}
    {context : ExecutionContext Headers} {stage : Stage}
    (found : state.requests[index]? = some (context, stage)) :
    Shown platform history index context stage := by
  induction run generalizing stage with
  | start initial =>
    rw [initial.1] at found
    cases found
  | step run taken ih =>
    rcases requests_of_step taken found with same | rfl | ⟨earlier, rfl, known, rfl⟩
    · exact (ih same).cons
    · trivial
    · exact shown_advance (ih known)

/-- Whoever is admitted has shown its right while its request was looked at, however keys, sessions,
members and roles changed meanwhile. -/
theorem admitted_of_run (run : (system platform).Run history state) {index : Nat}
    {context : ExecutionContext Headers} {caller : Caller}
    (found : state.requests[index]? = some (context, .admitted caller)) :
    Admitted platform history index context caller :=
  shown_of_run run found

/-! ### Revocation -/

/-- The constraints of the table of keys. -/
structure Unique (database : Database) : Prop where
  ids : (database.apiKeys.map ApiKeyRow.id).Nodup
  keyHashes : (database.apiKeys.map ApiKeyRow.keyHash).Nodup

/-- No other key with this digest is issued. -/
def Fresh (keyHash : String) (later : History Headers) : Prop :=
  ∀ entry ∈ later, ∀ row, entry.2 = .issueApiKey row → row.keyHash ≠ keyHash

/-- Every row with the digest, if there is one, has been revoked. -/
def KeyRevoked (keyHash : String) (database : Database) : Prop :=
  ∀ row ∈ database.apiKeys, row.keyHash = keyHash → row.revokedAt ≠ none

/-- Revoking changes no more of a row than `revokedAt`. -/
theorem mem_revoke {database : Database} {organizationId id : String} {revokedAt : Int}
    {row : ApiKeyRow} (member : row ∈ (database.revoke organizationId id revokedAt).apiKeys) :
    ∃ old ∈ database.apiKeys, row.id = old.id ∧ row.keyHash = old.keyHash ∧
      (old.revokedAt ≠ none → row.revokedAt ≠ none) ∧
      (old.id = id → old.organizationId = organizationId → row.revokedAt ≠ none) := by
  obtain ⟨old, own, rfl⟩ := List.mem_map.mp member
  refine ⟨old, own, ?_⟩
  split_ifs with hit
  · simp
  · refine ⟨rfl, rfl, fun revoked => revoked, ?_⟩
    intro same within active
    exact hit ⟨same, within, active⟩

theorem Unique.revoke {database : Database} (unique : Unique database)
    (organizationId id : String) (revokedAt : Int) :
    Unique (database.revoke organizationId id revokedAt) := by
  have kept : ∀ {Value : Type} (column : ApiKeyRow → Value),
      (∀ (row : ApiKeyRow) value, column { row with revokedAt := value } = column row) →
        (database.revoke organizationId id revokedAt).apiKeys.map column =
          database.apiKeys.map column := by
    intro Value column other
    rw [Database.revoke, List.map_map]
    refine List.map_congr_left fun row _ => ?_
    rw [Function.comp_apply]
    split_ifs
    · exact other row _
    · rfl
  constructor
  · rw [kept ApiKeyRow.id fun _ _ => rfl]
    exact unique.ids
  · rw [kept ApiKeyRow.keyHash fun _ _ => rfl]
    exact unique.keyHashes

theorem Unique.create {database after : Database} {row : ApiKeyRow} (unique : Unique database)
    (created : database.create row = some after) : Unique after := by
  unfold Database.create at created
  split_ifs at created with taken
  obtain rfl := Option.some.inj created
  simp only [Bool.not_eq_true, List.any_eq_false, Bool.or_eq_false_iff, decide_eq_false_iff_not]
    at taken
  constructor
  · refine List.nodup_cons.mpr ⟨?_, unique.ids⟩
    intro member
    obtain ⟨other, own, same⟩ := List.mem_map.mp member
    exact (taken other own).1 same
  · refine List.nodup_cons.mpr ⟨?_, unique.keyHashes⟩
    intro member
    obtain ⟨other, own, same⟩ := List.mem_map.mp member
    exact (taken other own).2 same

theorem unique_of_run (run : (system platform).Run history state) : Unique state.database := by
  refine @TransitionSystem.Run.invariant _ _ _ _ _ (fun state => Unique state.database) ?_ ?_ run
  · rintro state ⟨-, ids, keyHashes⟩
    exact ⟨ids, keyHashes⟩
  intro before action after unique taken
  cases step_cases taken with
  | issueApiKey created => exact unique.create created
  | revokeApiKey organizationId id => exact unique.revoke organizationId id before.now
  | deleteOrganization =>
    exact ⟨unique.ids.sublist (List.filter_sublist.map _),
      unique.keyHashes.sublist (List.filter_sublist.map _)⟩
  | change => exact ⟨unique.ids, unique.keyHashes⟩
  | arrive | advance | pass => exact unique

/-- Nothing but issuing a key with the same digest brings a revoked one back. -/
theorem KeyRevoked.step {keyHash : String} {before after : State Headers}
    {action : Action Headers} (revoked : KeyRevoked keyHash before.database)
    (taken : before.step platform action = some after)
    (fresh : ∀ row, action = .issueApiKey row → row.keyHash ≠ keyHash) :
    KeyRevoked keyHash after.database := by
  cases step_cases taken with
  | issueApiKey created =>
    unfold Database.create at created
    split_ifs at created
    obtain rfl := Option.some.inj created
    intro other member same
    rcases List.mem_cons.mp member with rfl | own
    · exact absurd same (fresh other rfl)
    · exact revoked other own same
  | revokeApiKey organizationId id =>
    intro row member same
    obtain ⟨old, own, -, hash, kept, -⟩ := mem_revoke member
    exact kept (revoked old own (hash ▸ same))
  | deleteOrganization =>
    intro row member
    exact revoked row (List.mem_filter.mp member).1
  | arrive | advance | change | pass => exact revoked

/-- After its revocation a key stays revoked. -/
theorem keyRevoked_of_run {later earlier : History Headers} {before : State Headers}
    {organizationId id : String} {key : ApiKeyRow}
    (run : (system platform).Run
      (later ++ (before, .revokeApiKey organizationId id) :: earlier) state)
    (stored : key ∈ before.database.apiKeys) (named : key.id = id)
    (own : key.organizationId = organizationId)
    (fresh : Fresh key.keyHash later) :
    KeyRevoked key.keyHash state.database := by
  induction later generalizing state with
  | nil =>
    obtain _ | ⟨run, taken⟩ := run
    obtain rfl := Option.some.inj taken
    intro row member same
    obtain ⟨old, among, -, hash, -, hit⟩ := mem_revoke member
    have unique := unique_of_run run
    obtain rfl : old = key :=
      List.inj_on_of_nodup_map unique.keyHashes among stored (hash.symm.trans same)
    exact hit named own
  | cons entry later ih =>
    obtain _ | ⟨run, taken⟩ := run
    exact (ih run fun entry member => fresh entry (List.mem_cons_of_mem _ member)).step taken
      (fresh _ List.mem_cons_self)

theorem concluded_ne (caller : Caller) (required : List Permission)
    (decisions : List AccessDecision) : concluded caller required decisions ≠ .apiKeyGuard := by
  intro same
  rcases concluded_cases caller required decisions with admitted | ⟨rejection, rejected⟩
  · rw [admitted] at same
    cases same
  · rw [rejected] at same
    cases same

/-- No guard sends a request back to the first. -/
theorem advance_ne (context : ExecutionContext Headers) (database : Database) (now : Int)
    (stage : Stage) : advance platform context database now stage ≠ .apiKeyGuard := by
  cases stage with
  | apiKeyGuard => grind [advance]
  | betterAuthGuard apiKey => grind [advance]
  | memberLookup session user => grind [advance]
  | teamLookup session user organizationId => grind [advance]
  | rolesGuard caller => grind [advance]
  | permissionGuard caller => grind [advance, PermissionGuard.canActivate, concluded_ne]
  | customRoles user organizationId rawRole => exact concluded_ne _ _ _
  | admitted caller => grind [advance]
  | rejected rejection => grind [advance]

/-- A request keeps its context, and its stage unless it is looked at. -/
theorem stage_of_step {before after : State Headers} {action : Action Headers}
    (taken : before.step platform action = some after) {index : Nat}
    {context : ExecutionContext Headers} {stage : Stage}
    (found : before.requests[index]? = some (context, stage)) :
    after.requests[index]? = some (context, stage) ∨ action = .advance index ∧
      after.requests[index]? =
        some (context, advance platform context before.database before.now stage) := by
  have within := (List.getElem?_eq_some_iff.mp found).1
  cases step_cases taken with
  | arrive arrived =>
    left
    rw [List.getElem?_append_left within]
    exact found
  | @advance moved own earlier known =>
    by_cases same : moved = index
    · subst same
      obtain ⟨rfl, rfl⟩ := Prod.mk.inj (Option.some.inj (known.symm.trans found))
      exact .inr ⟨rfl, List.getElem?_set_self within⟩
    · left
      rw [List.getElem?_set_ne same]
      exact found
  | issueApiKey | revokeApiKey | deleteOrganization | change | pass => exact .inl found

/-- The request has been looked at. -/
def Advanced (index : Nat) (state : State Headers) : Prop :=
  ∃ context stage, state.requests[index]? = some (context, stage) ∧ stage ≠ .apiKeyGuard

theorem advanced_of_mem (run : (system platform).Run history state)
    {entry : State Headers × Action Headers} (member : entry ∈ history) {index : Nat}
    (moved : entry.2 = .advance index) : Advanced index state := by
  refine run.stable_after (Advanced index) ?_ member ?_
  · rintro before action after - ⟨context, stage, found, past⟩ taken
    rcases stage_of_step taken found with same | ⟨-, next⟩
    · exact ⟨context, stage, same, past⟩
    · exact ⟨context, _, next, advance_ne context before.database before.now stage⟩
  · intro after taken
    rw [moved] at taken
    have stepped : Step platform entry.1 (.advance index) after := step_cases taken
    cases stepped with
    | advance found =>
      have within := (List.getElem?_eq_some_iff.mp found).1
      exact ⟨_, _, List.getElem?_set_self within, advance_ne _ _ _ _⟩

/-- No request is admitted with a key that was revoked before its turn at the guard. -/
theorem not_admitted_of_revoked {later earlier : History Headers} {before : State Headers}
    {organizationId id : String} {key : ApiKeyRow}
    (run : (system platform).Run
      (later ++ (before, .revokeApiKey organizationId id) :: earlier) state)
    (stored : key ∈ before.database.apiKeys) (named : key.id = id)
    (own : key.organizationId = organizationId)
    (fresh : Fresh key.keyHash later)
    {index : Nat} (waiting : ¬Advanced index before) {context : ExecutionContext Headers}
    {presented : List Char} (presents : context.presented = some presented)
    (same : platform.hashApiKey presented = key.keyHash) (asked : context.skipped = false)
    {caller : Caller} : state.requests[index]? ≠ some (context, .admitted caller) := by
  intro found
  cases (admitted_of_run run found).identified with
  | nobody skipped => simp [asked] at skipped
  | person _ keyless => simp [presents] at keyless
  | machine _ _ accepted =>
    obtain ⟨entry, member, moved, shown, row, given, among, digest, active, -⟩ := accepted
    obtain rfl := Option.some.inj (presents.symm.trans given)
    rcases List.mem_append.mp member with after | past
    · -- the guard looked after the revocation
      obtain ⟨last, first, rfl⟩ := List.append_of_mem after
      rw [List.append_assoc, List.cons_append] at run
      have revoked := keyRevoked_of_run (run.before rfl) stored named own fun entry member =>
        fresh entry (List.mem_append_right _ (List.mem_cons_of_mem _ member))
      exact revoked row among (digest.trans same) active
    · rcases List.mem_cons.mp past with rfl | past
      · cases moved
      · exact waiting (advanced_of_mem (run.before rfl) past moved)

end Runs
end System

/-! ### An example -/

/-- Keys are stored as they are, and the session is the one of the token in the headers. -/
def examplePlatform : Platform String where
  hashApiKey key := String.ofList key
  getSession token database :=
    (database.sessions.find? (·.token = token)).bind fun session =>
      (database.users.find? (·.id = session.userId)).map fun user => (session, user)
  stored headers database session user found := by
    obtain ⟨own, first, rest⟩ := Option.bind_eq_some_iff.mp found
    obtain ⟨row, second, pair⟩ := Option.map_eq_some_iff.mp rest
    obtain ⟨rfl, rfl⟩ := Prod.mk.inj pair
    have same := List.find?_some second
    rw [decide_eq_true_iff] at same
    exact ⟨List.mem_of_find?_eq_some first, List.mem_of_find?_eq_some second, same⟩

def exampleKey : ApiKeyRow := ⟨"k", "o", "sk_0123456789", ["file:read"], none, none⟩

/-- A route for keys that may read files, asked for with the key. -/
def exampleContext : ExecutionContext String where
  type := .http
  handler := { allowApiKey := some true, requiredPermissions := some [.fileRead] }
  controller := {}
  headers := ""
  xApiKey := some "sk_0123456789".toList
  authorization := none
  socketUser := none

def exampleStart : State String := ⟨⟨[exampleKey], [], [], [], [], [], []⟩, 0, []⟩

/-- A session of a member, whose role comes to grant what a route for users asks for. -/
def exampleDatabase : Database where
  apiKeys := [exampleKey]
  sessions := [⟨"s", "token", "u", 60000, some "o", none⟩]
  users := [⟨"u", "ann@example.org", some "Ann", "USER", "ACTIVE"⟩]
  members := [⟨"o", "u", "editor".toList⟩]
  organizationRoles := [⟨"o", "editor".toList, none⟩]
  teams := []
  teamMembers := []

/-- The key is revoked behind its guard and the session behind its own; the role is granted the
permission, and the member removed, after the guard has read which role the member has. -/
def exampleActions : List (Action String) :=
  [.arrive exampleContext,
    .arrive { exampleContext with xApiKey := none, headers := "token" }, .advance 0,
    .revokeApiKey "o" "k", .advance 1, .advance 1, .change { exampleDatabase with sessions := [] },
    .advance 1, .advance 1, .advance 1, .advance 1,
    .change { exampleDatabase with
      sessions := []
      members := []
      organizationRoles :=
        [⟨"o", "editor".toList, some (.object [("file", .array [.string "read"])])⟩] },
    .advance 1, .advance 0, .advance 0, .advance 0]

theorem admitted_of_run_example :
    ∃ history state, (system examplePlatform).Run history state ∧ state.database.sessions = [] ∧
      state.database.members = [] ∧
      Admitted examplePlatform history 0 exampleContext
        { apiKey := some ⟨"k", "o", ["file:read"]⟩ } ∧
      Admitted examplePlatform history 1
        { exampleContext with xApiKey := none, headers := "token" }
        { user := some ⟨"u", "ann@example.org", "Ann", "USER", "ACTIVE", "s", "token", some "o",
          none⟩ } := by
  have start : (system examplePlatform).Run [] ⟨exampleDatabase, 0, []⟩ :=
    .start ⟨rfl, by decide, by decide⟩
  obtain ⟨state, executed⟩ : ∃ state, (system examplePlatform).execute (fun _ _ => true)
      ⟨exampleDatabase, 0, []⟩ exampleActions = some state := ⟨_, rfl⟩
  obtain ⟨history, run, -, -⟩ := start.execute
    (fun _ _ _ => trivial) (fun _ impossible => nomatch impossible) executed
  obtain rfl := Option.some.inj executed
  exact ⟨history, _, run, rfl, rfl, admitted_of_run run rfl, admitted_of_run run rfl⟩

/-- The key is revoked before the request comes. -/
theorem not_admitted_of_revoked_example :
    ∃ history state, (system examplePlatform).Run history state ∧
      history.map (·.2) = [.advance 0, .arrive exampleContext, .revokeApiKey "o" "k"] ∧
      ∀ caller, state.requests[0]? ≠ some (exampleContext, .admitted caller) := by
  have start : (system examplePlatform).Run [] exampleStart :=
    .start ⟨rfl, by decide, by decide⟩
  have revoked := @TransitionSystem.Run.step _ _ _ _ _ _ (.revokeApiKey "o" "k") start rfl
  have arrived := @TransitionSystem.Run.step _ _ _ _ _ _ (.arrive exampleContext) revoked rfl
  have keyed := @TransitionSystem.Run.step _ _ _ _ _ _ (.advance 0) arrived rfl
  refine ⟨_, _, keyed, rfl, fun caller => ?_⟩
  refine @not_admitted_of_revoked _ _ _ [_, _] [] _ _ _ exampleKey keyed
    List.mem_cons_self rfl rfl ?_ _ ?_ _ _ rfl rfl rfl caller
  · intro entry member row issued
    rcases List.mem_cons.mp member with rfl | rest
    · cases issued
    · obtain rfl := List.mem_singleton.mp rest
      cases issued
  · rintro ⟨context, stage, found, -⟩
    cases found

end NestjsFastify.RequestGuards
