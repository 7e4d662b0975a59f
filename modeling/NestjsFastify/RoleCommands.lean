import NestjsFastify.ApiKeyEntity
import NestjsFastify.RecordTable
import NestjsFastify.SharedService

/-! # Commands on roles and API keys

The handlers that create, change and delete the roles of an organization and that issue API keys,
as processes over one database.  Each asks the authorization adapter what the acting user holds.
-/
namespace NestjsFastify.Authorization

/-! ### The database -/

structure AuthorizationDatabase where
  members : List MemberRow
  organizationRoles : List OrganizationRoleRow
  apiKeys : List ApiKey

/-- The texts of the permissions that a user holds in an organization: `permissionsFor`. -/
def AuthorizationDatabase.heldBy (database : AuthorizationDatabase)
    (organizationId userId : String) : List Permission :=
  (memberPermissions database.members database.organizationRoles organizationId userId).getD []

inductive RoleDeletionOutcome where
  | notFound
  | deleted
  | inUse
  deriving DecidableEq, Repr

inductive CommandRequest where
  | findByName (organizationId : String) (role : List Char)
  | findMembership (organizationId userId : String)
  | findCustomRoles (organizationId : String) (names : List (List Char))
  | createRole (role : OrganizationRole)
  | updateRole (role : OrganizationRole)
  | deleteUnlessHeld (organizationId : String) (role : List Char)
  | createApiKey (key : ApiKey)

inductive CommandResponse where
  | role (row : Option OrganizationRoleRow)
  | membership (role : Option (List Char))
  | customRoles (rows : List OrganizationRoleRow)
  | created (unique : Bool)
  | updated (count : Nat)
  | deletion (outcome : RoleDeletionOutcome)
  | failed

/-- A statement is carried out, or it fails without or with its effect. -/
inductive StatementOutcome where
  | done
  | refused
  | lost
  deriving DecidableEq, Repr

/-- The row has the name in the organization. -/
def OrganizationRoleRow.isNamed (organizationId : String) (role : List Char)
    (row : OrganizationRoleRow) : Bool :=
  row.organizationId = organizationId ∧ row.role = role

section Statements
variable (isSpace : Char → Bool)

/-- `role = ANY(string_to_array(regexp_replace(...), ','))`; what `\s` matches depends on the
database's locale. -/
def MemberRow.holdsRole (row : MemberRow) (role : List Char) : Bool :=
  let stored := row.role.filter fun character => !isSpace character
  stored ≠ [] && role ∈ stored.splitOn ','

/-- The statement of `deleteUnlessHeld`. -/
def deleteUnlessHeld (database : AuthorizationDatabase) (organizationId : String)
    (role : List Char) : AuthorizationDatabase × RoleDeletionOutcome :=
  let holders := database.members.countP fun row =>
    row.organizationId = organizationId && row.holdsRole isSpace role
  if (database.organizationRoles.any (·.isNamed organizationId role)) = false then
    (database, .notFound)
  else if holders = 0 then
    ({ database with
      organizationRoles :=
        RecordTable.deleteMany (·.isNamed organizationId role) database.organizationRoles },
      .deleted)
  else (database, .inUse)

def executeCommand (database : AuthorizationDatabase) :
    CommandRequest → AuthorizationDatabase × CommandResponse
  | .findByName organizationId role =>
      (database, .role (database.organizationRoles.find? (·.isNamed organizationId role)))
  | .findMembership organizationId userId =>
      (database, .membership (membershipRole database.members organizationId userId))
  | .findCustomRoles organizationId names =>
      (database, .customRoles (findCustomRoles database.organizationRoles organizationId names))
  | .createRole role =>
      match RecordTable.insertMany (fun row other => other.isNamed row.organizationId row.role)
          [role.toRow] database.organizationRoles with
      | some rows => ({ database with organizationRoles := rows }, .created true)
      | none => (database, .created false)
  | .updateRole role =>
      ({ database with
        organizationRoles := RecordTable.updateMany (·.isNamed role.organizationId role.role)
          (fun row => { row with permission := role.toRow.permission })
          database.organizationRoles },
        .updated (RecordTable.updatedCount (·.isNamed role.organizationId role.role)
          database.organizationRoles))
  | .deleteUnlessHeld organizationId role =>
      ((deleteUnlessHeld isSpace database organizationId role).1,
        .deletion (deleteUnlessHeld isSpace database organizationId role).2)
  | .createApiKey key =>
      match RecordTable.insertMany (fun row other => row.keyHash = other.keyHash) [key]
          database.apiKeys with
      | some rows => ({ database with apiKeys := rows }, .created true)
      | none => (database, .created false)

def performCommand (database : AuthorizationDatabase) (request : CommandRequest) :
    StatementOutcome → Option (AuthorizationDatabase × CommandResponse)
  | .done => some (executeCommand isSpace database request)
  | .refused => some (database, .failed)
  | .lost => some ((executeCommand isSpace database request).1, .failed)

end Statements

/-! ### The handlers -/

structure CreateOrganizationRoleCommand where
  organizationId : String
  actorUserId : String
  role : List Char
  permissions : List String
  deriving DecidableEq, Repr

structure UpdateOrganizationRoleCommand where
  organizationId : String
  actorUserId : String
  role : List Char
  permissions : List String
  deriving DecidableEq, Repr

/-- The command with the key that is generated for it and the time at which it is issued. -/
structure CreateApiKeyCommand where
  organizationId : String
  userId : String
  name : List Char
  scopes : List String
  expiresAt : Option Int
  secret : GeneratedApiKey
  now : Int

/-- What a handler does with the permissions of the acting user. -/
inductive GrantUse where
  | create (command : CreateOrganizationRoleCommand)
  | update (command : UpdateOrganizationRoleCommand) (existing : OrganizationRole)
  | issue (command : CreateApiKeyCommand)

inductive CommandPhase where
  | findingExisting (command : UpdateOrganizationRoleCommand)
  | findingMembership (use : GrantUse)
  | findingCustomRoles (use : GrantUse) (rawRole : List Char)
  | checkingName (command : CreateOrganizationRoleCommand) (role : OrganizationRole)
  | creatingRole (command : CreateOrganizationRoleCommand) (role : OrganizationRole)
  | updatingRole (command : UpdateOrganizationRoleCommand) (role : OrganizationRole)
  | creatingKey (command : CreateApiKeyCommand) (issued : IssuedApiKey)
  | deletingRole (organizationId : String) (role : List Char)
  | returned
  | threw (failure : Failure)

def roleNotFound : DomainException :=
  fieldProblem {
    kind := .notFound, code := "organization_role_not_found", path := "role"
    message := "Role not found", messageKey := "errors.organizations.role_not_found" }

/-- `conflict` of the organization errors. -/
def roleConflict (code message messageKey : String) : DomainException :=
  fieldProblem {
    kind := .conflict, code, path := "role", message, messageKey, permanent := some false }

def roleAlreadyExists : DomainException :=
  roleConflict "organization_role_already_exists"
    "A role with this name already exists in the organization"
    "errors.organizations.role_already_exists"

def roleInUse : DomainException :=
  roleConflict "organization_role_in_use" "Role is still assigned to at least one member"
    "errors.organizations.role_in_use"

namespace GrantUse

def organizationId : GrantUse → String
  | create command => command.organizationId
  | update command _ => command.organizationId
  | issue command => command.organizationId

def actor : GrantUse → String
  | create command => command.actorUserId
  | update command _ => command.actorUserId
  | issue command => command.userId

/-- The checks of the entity, with the permissions of the acting user. -/
def proceed (granted : List Permission) : GrantUse → CommandPhase
  | create command =>
      match OrganizationRole.create ⟨command.organizationId, command.role, command.permissions,
          granted⟩ with
      | .ok role => .checkingName command role
      | .error exception => .threw (.domain exception)
  | update command existing =>
      match existing.withPermissions command.permissions granted with
      | .ok role => .updatingRole command role
      | .error exception => .threw (.domain exception)
  | issue command =>
      match ApiKey.issue ⟨command.organizationId, command.name, command.scopes,
          some command.userId, command.expiresAt, granted⟩ command.secret command.now with
      | .ok issued => .creatingKey command issued
      | .error exception => .threw (.domain exception)

end GrantUse

namespace CommandPhase

/-- The phases in which a command starts. -/
def isStart : CommandPhase → Bool
  | findingExisting _ => true
  | findingMembership (.create _) => true
  | findingMembership (.issue _) => true
  | deletingRole .. => true
  | _ => false

def request : CommandPhase → Option CommandRequest
  | findingExisting command => some (.findByName command.organizationId command.role)
  | findingMembership use => some (.findMembership use.organizationId use.actor)
  | findingCustomRoles use rawRole =>
      some (.findCustomRoles use.organizationId (customRoleNames (splitRoles rawRole)))
  | checkingName command role => some (.findByName command.organizationId role.role)
  | creatingRole _ role => some (.createRole role)
  | updatingRole _ role => some (.updateRole role)
  | creatingKey _ issued => some (.createApiKey issued.entity)
  | deletingRole organizationId role => some (.deleteUnlessHeld organizationId role)
  | returned => none
  | threw _ => none

/-- `findByName` of the update; the row's payload is parsed. -/
def resumeExisting (command : UpdateOrganizationRoleCommand) :
    Option OrganizationRoleRow → CommandPhase
  | none => .threw (.domain roleNotFound)
  | some row =>
      match row.permission with
      | none => .threw .infrastructure  -- the payload does not parse
      | some _ => .findingMembership (.update command ⟨row.organizationId, row.role, row.granted⟩)

/-- `findByName` of the creation. -/
def resumeName (command : CreateOrganizationRoleCommand) (role : OrganizationRole) :
    Option OrganizationRoleRow → CommandPhase
  | none => .creatingRole command role
  | some row =>
      match row.permission with
      | none => .threw .infrastructure
      | some _ => .threw (.domain roleAlreadyExists)

/-- `permissionsFor` after its first statement. -/
def resumeMembership (use : GrantUse) : Option (List Char) → CommandPhase
  | none => use.proceed []
  | some rawRole =>
      if customRoleNames (splitRoles rawRole) = [] then
        use.proceed (grantedPermissions (splitRoles rawRole) [])
      else .findingCustomRoles use rawRole

def resumeDeletion : RoleDeletionOutcome → CommandPhase
  | .deleted => .returned
  | .inUse => .threw (.domain roleInUse)
  | .notFound => .threw (.domain roleNotFound)

def resume : CommandPhase → CommandResponse → CommandPhase
  | findingExisting command, .role row => resumeExisting command row
  | findingMembership use, .membership role => resumeMembership use role
  | findingCustomRoles use rawRole, .customRoles rows =>
      use.proceed (grantedPermissions (splitRoles rawRole) rows)
  | checkingName command role, .role row => resumeName command role row
  | creatingRole _ _, .created unique =>
      if unique then .returned else .threw (.domain roleAlreadyExists)
  | updatingRole _ _, .updated count =>
      if 0 < count then .returned else .threw (.domain roleNotFound)
  | creatingKey _ _, .created unique => if unique then .returned else .threw .infrastructure
  | deletingRole _ _, .deletion outcome => resumeDeletion outcome
  | _, _ => .threw .infrastructure

end CommandPhase

/-- The commands over a database that is given at the start; nothing else writes to it. -/
def commandService (isSpace : Char → Bool) (start : AuthorizationDatabase) :
    SharedService AuthorizationDatabase CommandPhase CommandRequest CommandResponse
      StatementOutcome Empty where
  initial database := database = start
  admits _ phase := phase.isStart
  request := CommandPhase.request
  resume := CommandPhase.resume
  perform := performCommand isSpace
  external _ event := nomatch event

end NestjsFastify.Authorization
