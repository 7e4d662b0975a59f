import NestjsFastify.BearerToken
import NestjsFastify.DomainException
import NestjsFastify.MemberPermissions

/-! # The guards of a request

Every request passes the same guards in the same order: the key that a machine presents, the
session of a user, the roles of the platform and the permissions in the organization.  Each of them
reads the database when its turn comes.
-/
namespace NestjsFastify.RequestGuards
open Authorization

/-! ### Rows -/

structure ApiKeyRow where
  id : String
  organizationId : String
  keyHash : String
  scopes : List String
  expiresAt : Option Int
  revokedAt : Option Int
  deriving DecidableEq, Repr

structure SessionRow where
  id : String
  token : String
  userId : String
  expiresAt : Int
  activeOrganizationId : Option String
  activeTeamId : Option String
  deriving DecidableEq, Repr

structure UserRow where
  id : String
  email : String
  name : Option String
  role : String
  status : String
  deriving DecidableEq, Repr

structure TeamRow where
  id : String
  organizationId : String
  deriving DecidableEq, Repr

structure TeamMemberRow where
  teamId : String
  userId : String
  deriving DecidableEq, Repr

structure Database where
  apiKeys : List ApiKeyRow
  sessions : List SessionRow
  users : List UserRow
  members : List MemberRow
  organizationRoles : List OrganizationRoleRow
  teams : List TeamRow
  teamMembers : List TeamMemberRow

/-! ### Requests -/

structure AuthenticatedApiKey where
  apiKeyId : String
  organizationId : String
  scopes : List String
  deriving DecidableEq, Repr

structure AuthenticatedSession where
  userId : String
  email : String
  name : String
  role : String
  status : String
  sessionId : String
  sessionToken : String
  organizationId : Option String := none
  teamId : Option String := none
  deriving DecidableEq, Repr

inductive ContextType where
  | http
  | graphql
  | ws
  deriving DecidableEq, Repr

/-- What the decorators have left on a handler or its class. -/
structure Metadata where
  isPublic : Option Bool := none
  allowApiKey : Option Bool := none
  roles : Option (List String) := none
  requiredPermissions : Option (List Permission) := none
  deriving DecidableEq, Repr

/-- `headers` is what the session is read from; a socket has its user since it connected. -/
structure ExecutionContext (Headers : Type) where
  type : ContextType
  handler : Metadata
  controller : Metadata
  headers : Headers
  xApiKey : Option (List Char)
  authorization : Option (List Char)
  socketUser : Option AuthenticatedSession

variable {Headers : Type}

/-- `reflector.getAllAndOverride` -/
def ExecutionContext.getAllAndOverride {Value : Type} (context : ExecutionContext Headers)
    (read : Metadata → Option Value) : Option Value :=
  (read context.handler).or (read context.controller)

def ExecutionContext.isPublic (context : ExecutionContext Headers) : Bool :=
  (context.getAllAndOverride Metadata.isPublic).getD false

def ExecutionContext.allowsApiKey (context : ExecutionContext Headers) : Bool :=
  (context.getAllAndOverride Metadata.allowApiKey).getD false

def ExecutionContext.requiredRoles (context : ExecutionContext Headers) : List String :=
  (context.getAllAndOverride Metadata.roles).getD []

def ExecutionContext.requiredPermissions (context : ExecutionContext Headers) : List Permission :=
  (context.getAllAndOverride Metadata.requiredPermissions).getD []

/-- The guards of HTTP requests let it pass. -/
def ExecutionContext.skipped (context : ExecutionContext Headers) : Bool :=
  context.type = .ws || context.isPublic

/-- The key that the request presents. -/
def ExecutionContext.presented (context : ExecutionContext Headers) : Option (List Char) :=
  extractKey context.xApiKey context.authorization

/-- What the guards have put on the request. -/
structure Caller where
  user : Option AuthenticatedSession := none
  apiKey : Option AuthenticatedApiKey := none
  deriving DecidableEq, Repr

/-! ### Rejections -/

inductive Rejection where
  | unauthorized (code : Option String) (messageKey message : String)
  | forbidden (messageKey message : String)
  | domain (exception : DomainException)
  deriving DecidableEq, Repr

def invalidCredential : Rejection :=
  .unauthorized (some "api_key_invalid_credential") "errors.api_keys.invalid_credential"
    "API key is missing, revoked, or expired"

def sessionMissing : Rejection :=
  .unauthorized none "errors.auth.session_missing" "Session not found or expired"

def sessionExpired : Rejection :=
  .unauthorized none "errors.auth.session_expired" "Session expired"

def accountInactive : Rejection :=
  .forbidden "errors.auth.account_inactive" "Account is not active"

def insufficientRole : Rejection :=
  .forbidden "errors.auth.insufficient_permissions" "Insufficient permissions"

def forbidden (permission : Permission) : Rejection :=
  .domain (.new {
    kind := some .forbidden
    code := some "forbidden"
    title := some "Insufficient permissions"
    messageKey := some "errors.auth.insufficient_permissions"
    violations := [{
      path := "permission"
      code := "permission_denied"
      message := "Missing permission \"" ++ permission.text ++ "\""
      messageKey := some "errors.auth.insufficient_permissions" }] })

def organizationContextRequired : Rejection :=
  .domain (.new {
    kind := some .forbidden
    code := some "organization_context_required"
    title := some "Organization context required"
    messageKey := some "errors.auth.organization_context_required"
    violations := [{
      path := "session.activeOrganizationId"
      code := "organization_context_required"
      message := "No active organization selected for this session"
      messageKey := some "errors.auth.organization_context_required" }] })

/-! ### The guards -/

/-- Better Auth, which answers with rows of the database as `disableCookieCache` asks for, and the
digest of keys. -/
structure Platform (Headers : Type) where
  hashApiKey : List Char → String
  getSession : Headers → Database → Option (SessionRow × UserRow)
  stored : ∀ headers database session user, getSession headers database = some (session, user) →
    session ∈ database.sessions ∧ user ∈ database.users ∧ user.id = session.userId

/-- A text that is absent or empty is not used. -/
def truthy (text : Option String) : Option String := text.filter (· ≠ "")

variable (platform : Platform Headers)

def ApiKeyGuard.canActivate (context : ExecutionContext Headers) (database : Database) (now : Int) :
    Except Rejection (Option AuthenticatedApiKey) :=
  if context.skipped then .ok none
  else
    match context.presented with
    | none => .ok none
    | some presented =>
        if context.allowsApiKey = false then .error invalidCredential
        else
          match database.apiKeys.find? (·.keyHash = platform.hashApiKey presented) with
          | none => .error invalidCredential
          | some row =>
              if row.revokedAt.isSome then .error invalidCredential
              else if row.expiresAt.any (· ≤ now) then .error invalidCredential
              else .ok (some ⟨row.id, row.organizationId, row.scopes⟩)

/-- The session of the request, up to the scope that it has active. -/
def BetterAuthGuard.resolveSession (context : ExecutionContext Headers) (database : Database)
    (now : Int) : Except Rejection (SessionRow × UserRow) :=
  match platform.getSession context.headers database with
  | none => .error sessionMissing
  | some (session, user) =>
      if session.expiresAt < now then .error sessionExpired
      else if user.status ≠ "ACTIVE" then .error accountInactive
      else .ok (session, user)

def findMembership (database : Database) (organizationId userId : String) : Option String :=
  (database.members.find? fun row =>
    row.organizationId = organizationId ∧ row.userId = userId).map MemberRow.organizationId

def findTeamMembership (database : Database) (teamId userId organizationId : String) :
    Option String :=
  (database.teamMembers.find? fun row => row.teamId = teamId ∧ row.userId = userId ∧
    database.teams.any fun team =>
      team.id = row.teamId ∧ team.organizationId = organizationId).map TeamMemberRow.teamId

def authenticatedSession (session : SessionRow) (user : UserRow) (organizationId : Option String)
    (teamId : Option String) : AuthenticatedSession where
  userId := user.id
  email := user.email
  name := user.name.getD ""
  role := user.role
  status := user.status
  sessionId := session.id
  sessionToken := session.token
  organizationId := truthy organizationId
  teamId := truthy teamId

/-- The user whom `RolesGuard` looks at. -/
def roleHolder (context : ExecutionContext Headers) (caller : Caller) :
    Option AuthenticatedSession :=
  if context.type = .ws then context.socketUser else caller.user

def RolesGuard.canActivate (context : ExecutionContext Headers) (caller : Caller) :
    Except Rejection Unit :=
  if context.isPublic then .ok ()
  else if context.requiredRoles = [] then .ok ()
  else
    match roleHolder context caller with
    | none => .error insufficientRole
    | some user =>
        if user.role ∈ context.requiredRoles then .ok () else .error insufficientRole

def decideWithoutOrganization (permissions : List Permission) : List AccessDecision :=
  permissions.map fun permission =>
    if permission ∈ membershipIndependentPermissions then { allowed := true }
    else { allowed := false, reason := some DenialReason.permissionNotGranted }

/-! ### The way of a request -/

/-- How far the guards have come with a request. -/
inductive Stage where
  | apiKeyGuard
  | betterAuthGuard (apiKey : Option AuthenticatedApiKey)
  | memberLookup (session : SessionRow) (user : UserRow)
  | teamLookup (session : SessionRow) (user : UserRow) (organizationId : String)
  | rolesGuard (caller : Caller)
  | permissionGuard (caller : Caller)
  | customRoles (user : AuthenticatedSession) (organizationId : String) (rawRole : List Char)
  | admitted (caller : Caller)
  | rejected (rejection : Rejection)

/-- The first permission that is denied is the one of the error. -/
def concluded (caller : Caller) (required : List Permission) (decisions : List AccessDecision) :
    Stage :=
  match (required.zip decisions).find? fun (_, decision) => !decision.allowed with
  | some (permission, _) => .rejected (forbidden permission)
  | none => .admitted caller

def checkRequests (required : List Permission) : List CheckRequest :=
  required.map fun permission => { permission }

/-- `PermissionGuard.canActivate`, up to the roles that the organization has defined. -/
def PermissionGuard.canActivate (context : ExecutionContext Headers) (caller : Caller)
    (database : Database) : Stage :=
  if context.skipped then .admitted caller
  else
    match context.requiredPermissions, caller.apiKey, caller.user with
    | [], _, _ => .admitted caller
    | required, some key, _ =>
        concluded caller required
          (decideAccess (policyContext (fun _ _ => none)
            (.apiKey key.apiKeyId key.organizationId key.scopes)) (checkRequests required))
    | first :: _, none, none => .rejected (forbidden first)
    | required, none, some user =>
        match truthy user.organizationId with
        | none =>
            if required.all fun permission => !requiresMembership permission then
              concluded caller required (decideWithoutOrganization required)
            else .rejected organizationContextRequired
        | some organizationId =>
            match membershipRole database.members organizationId user.userId with
            | none =>
                concluded caller required
                  (decideAccess ⟨.user user.userId organizationId none, [], false⟩
                    (checkRequests required))
            | some rawRole => .customRoles user organizationId rawRole

/-- One guard, or one of its lookups. -/
def advance (context : ExecutionContext Headers) (database : Database) (now : Int) :
    Stage → Stage
  | .apiKeyGuard =>
      match ApiKeyGuard.canActivate platform context database now with
      | .error rejection => .rejected rejection
      | .ok apiKey => .betterAuthGuard apiKey
  | .betterAuthGuard apiKey =>
      if context.skipped || apiKey.isSome then .rolesGuard { apiKey }
      else
        match BetterAuthGuard.resolveSession platform context database now with
        | .error rejection => .rejected rejection
        | .ok (session, user) => .memberLookup session user
  | .memberLookup session user =>
      match truthy session.activeOrganizationId with
      | none => .rolesGuard { user := some (authenticatedSession session user none none) }
      | some active =>
          match findMembership database active user.id with
          | none => .rolesGuard { user := some (authenticatedSession session user none none) }
          | some organizationId => .teamLookup session user organizationId
  | .teamLookup session user organizationId =>
      .rolesGuard { user := some (authenticatedSession session user (some organizationId)
        ((truthy session.activeTeamId).bind fun active =>
          findTeamMembership database active user.id organizationId)) }
  | .rolesGuard caller =>
      match RolesGuard.canActivate context caller with
      | .error rejection => .rejected rejection
      | .ok () => .permissionGuard caller
  | .permissionGuard caller => PermissionGuard.canActivate context caller database
  | .customRoles user organizationId rawRole =>
      concluded { user := some user } context.requiredPermissions
        (decideAccess ⟨.user user.userId organizationId none,
          (resolvePermissions database.organizationRoles organizationId rawRole).map
            Permission.text, true⟩ (checkRequests context.requiredPermissions))
  | .admitted caller => .admitted caller
  | .rejected rejection => .rejected rejection

end NestjsFastify.RequestGuards
