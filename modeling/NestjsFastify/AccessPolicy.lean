import NestjsFastify.AccessFilter
import NestjsFastify.Permissions

/-! # The access policy

One policy decides single requests (`decideAccess`) and answers for whole lists (`decideFilter`).
The adapters differ only in where they find the permissions of a member.
-/
namespace NestjsFastify.Authorization

inductive Principal where
  | user (userId organizationId : String) (membershipId : Option String)
  | apiKey (apiKeyId organizationId : String) (scopes : List String)
  | system (reason : String)
  deriving DecidableEq, Repr

def Principal.isUser : Principal → Bool
  | user .. => true
  | _ => false

def Principal.isSystem : Principal → Bool
  | system _ => true
  | _ => false

/-- `principal.organizationId`, which the system has not. -/
def Principal.organizationId? : Principal → Option String
  | user _ organizationId _ => some organizationId
  | apiKey _ organizationId _ => some organizationId
  | system _ => none

/-- `principal.userId`, which only a user has. -/
def Principal.userId? : Principal → Option String
  | user userId _ _ => some userId
  | _ => none

structure ResourceRef where
  type : ResourceType
  id : String
  ownerId : Option String := none
  organizationId : Option String := none
  deriving DecidableEq, Repr

structure CheckRequest where
  permission : Permission
  resource : Option ResourceRef := none
  deriving DecidableEq, Repr

structure AccessDecision where
  allowed : Bool
  reason : Option String := none
  deriving DecidableEq, Repr

def ownerScopedPermissions : List Permission := [.fileRead, .fileDelete]

def membershipIndependentPermissions : List Permission :=
  [.sessionRead, .sessionRevoke, .termRead, .termAccept]

namespace DenialReason

def crossOrganization : String := "resource belongs to another organization"
def notAMember : String := "principal is not a member of the organization"
def permissionNotGranted : String := "permission not granted"

end DenialReason

inductive ResourceScope where
  | organization
  | organizationSelf
  | self
  | global
  deriving DecidableEq, Repr

def resourceScope : ResourceType → ResourceScope
  | .organization => .organization
  | .member => .organization
  | .team => .organization
  | .invitation => .organization
  | .role => .organization
  | .file => .organization
  | .auditLog => .organization
  | .apiKey => .organization
  | .featureFlag => .organization
  | .notification => .organizationSelf
  | .session => .self
  | .term => .global

def scopeOf (permission : Permission) : ResourceScope := resourceScope (resourceTypeOf permission)

def requiresMembership (permission : Permission) : Bool :=
  scopeOf permission = .organization || scopeOf permission = .organizationSelf

/-- Permissions are texts: the scopes of an API key may name any. -/
structure PolicyContext where
  principal : Principal
  permissions : List String
  isMember : Bool
  deriving DecidableEq, Repr

def holdsMembershipIndependentGrant (principal : Principal) (permission : Permission) : Bool :=
  principal.isUser && permission ∈ membershipIndependentPermissions

def holds (context : PolicyContext) (permission : Permission) : Bool :=
  permission.text ∈ context.permissions ||
    holdsMembershipIndependentGrant context.principal permission

/-- A user without membership, whom nothing of an organization is granted. -/
def PolicyContext.nonMember (context : PolicyContext) : Bool :=
  context.principal.isUser && !context.isMember

def CheckRequest.organizationId (request : CheckRequest) : Option String :=
  request.resource.bind ResourceRef.organizationId

def CheckRequest.ownerId (request : CheckRequest) : Option String :=
  request.resource.bind ResourceRef.ownerId

/-- The request names an organization (an empty name is none), and not the principal's. -/
def crossesOrganization (principal : Principal) (request : CheckRequest) : Bool :=
  (request.organizationId.any (· ≠ "")) && !principal.isSystem &&
    request.organizationId ≠ principal.organizationId?

/-- The member owns the resource and the permission is granted to owners. -/
def ownsResource (context : PolicyContext) (request : CheckRequest) : Bool :=
  context.principal.isUser && context.isMember &&
    request.ownerId = context.principal.userId? && request.permission ∈ ownerScopedPermissions

def decideRequest (context : PolicyContext) (request : CheckRequest) : AccessDecision :=
  if context.nonMember && requiresMembership request.permission then
    { allowed := false, reason := some DenialReason.notAMember }
  else if crossesOrganization context.principal request then
    { allowed := false, reason := some DenialReason.crossOrganization }
  else if holds context request.permission then { allowed := true }
  else if ownsResource context request then { allowed := true }
  else { allowed := false, reason := some DenialReason.permissionNotGranted }

def decideAccess (context : PolicyContext) (requests : List CheckRequest) : List AccessDecision :=
  requests.map (decideRequest context)

/-- `{ id }` -/
def idClause (id : String) : WhereClause String ColumnCondition :=
  AList.singleton "id" (.equals id)

/-- `{ organizationId }` -/
def organizationClause (organizationId : String) : WhereClause String ColumnCondition :=
  AList.singleton "organizationId" (.equals organizationId)

/-- `{ userId }` -/
def userClause (userId : String) : WhereClause String ColumnCondition :=
  AList.singleton "userId" (.equals userId)

/-- `{ organizationId, userId }` -/
def memberClause (organizationId userId : String) : WhereClause String ColumnCondition :=
  (userClause userId).insert "organizationId" (.equals organizationId)

/-- The filter of a permission that the context of a user or an API key holds. -/
def grantedFilter (organizationId : String) (userId : Option String) (resourceType : ResourceType) :
    AccessFilter ColumnCondition :=
  if resourceType = .organization then .predicate (idClause organizationId)
  else
    match resourceScope resourceType, userId with
    | .organization, _ => .predicate (organizationClause organizationId)
    | .organizationSelf, some userId => .predicate (memberClause organizationId userId)
    | .organizationSelf, none => .predicate (organizationClause organizationId)
    | .self, some userId => .predicate (userClause userId)
    | .self, none => .none
    | .global, _ => .all

/-- The filter of a permission that the context does not hold: a member's own resources, where the
permission is granted to owners. -/
def ownedFilter (context : PolicyContext) (organizationId : String) (permission : Permission) :
    AccessFilter ColumnCondition :=
  match context.principal.userId? with
  | some userId =>
    if context.isMember && permission ∈ ownerScopedPermissions then
      .predicate (memberClause organizationId userId)
    else .none
  | none => .none

def decideFilter (context : PolicyContext) (permission : Permission)
    (resourceType : ResourceType) : AccessFilter ColumnCondition :=
  if resourceTypeOf permission ≠ resourceType then .none
  else
    match context.principal.organizationId? with
    | none => .all  -- the system
    | some organizationId =>
      if context.nonMember && requiresMembership permission then .none
      else if holds context permission then
        grantedFilter organizationId context.principal.userId? resourceType
      else ownedFilter context organizationId permission

/-! ### The adapters -/

/-- `SYSTEM_ROLE_PERMISSIONS.owner` -/
def ownerPermissions : List String := allPermissions.map Permission.text

def permissionsForNonUserPrincipal : Principal → Option (List String)
  | .system _ => some ownerPermissions
  | .apiKey _ _ scopes => some (scopes.filter fun scope => scope.toList.contains ':')
  | .user .. => none

section Adapter
variable (memberPermissions : String → String → Option (List String))

/-- What an adapter knows of a principal; `memberPermissions` finds the permissions of an
organization's member, and nothing for a user who is no member. -/
def policyContext (principal : Principal) : PolicyContext :=
  match principal with
  | .user userId organizationId _ =>
    match memberPermissions organizationId userId with
    | none => { principal, permissions := [], isMember := false }
    | some permissions => { principal, permissions, isMember := true }
  | _ =>
    { principal
      permissions := (permissionsForNonUserPrincipal principal).getD []
      isMember := true }

def check (principal : Principal) (permission : Permission) (resource : Option ResourceRef) :
    AccessDecision :=
  match decideAccess (policyContext memberPermissions principal) [{ permission, resource }] with
  | decision :: _ => decision
  | [] => { allowed := false, reason := some "no decision produced" }

def filter (principal : Principal) (permission : Permission) (resourceType : ResourceType) :
    AccessFilter ColumnCondition :=
  decideFilter (policyContext memberPermissions principal) permission resourceType

end Adapter

/-- A context that an adapter can build: the system holds every permission. -/
structure AdapterContext extends PolicyContext where
  holds_system : principal.isSystem = true → ∀ permission, holds toPolicyContext permission = true

/-- Both adapters build such contexts. -/
def adapterContext (memberPermissions : String → String → Option (List String))
    (principal : Principal) : AdapterContext where
  toPolicyContext := policyContext memberPermissions principal
  holds_system := by
    intro isSystem permission
    cases principal with
    | user => simp [policyContext, Principal.isSystem] at isSystem; grind
    | apiKey => simp [policyContext, Principal.isSystem] at isSystem
    | system reason =>
      have granted : permission.text ∈ ownerPermissions :=
        List.mem_map_of_mem (mem_allPermissions permission)
      simp [holds, policyContext, permissionsForNonUserPrincipal, granted]

end NestjsFastify.Authorization
