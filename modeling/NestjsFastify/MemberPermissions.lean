import NestjsFastify.AccessPolicy
import NestjsFastify.PermissionStatements
import NestjsFastify.ScriptText

/-! # The permissions of a member

A member has the roles that its row lists, separated by commas.  System roles ship with the product;
other names are looked up among the roles that the organization has defined.
-/
namespace NestjsFastify.Authorization
open ScriptText (trim isBlank)

/-! ### System roles -/

inductive SystemRole where
  | owner
  | admin
  | member
  | billing
  | viewer
  deriving DecidableEq, Repr

def SystemRole.text : SystemRole → String
  | owner => "owner"
  | admin => "admin"
  | member => "member"
  | billing => "billing"
  | viewer => "viewer"

def selfServicePermissions : List Permission :=
  [.notificationRead, .notificationUpdate, .sessionRead, .sessionRevoke, .termRead, .termAccept]

/-- `SYSTEM_ROLE_PERMISSIONS` -/
def systemRolePermissions : SystemRole → List Permission
  | .owner => allPermissions
  | .admin => allPermissions.filter (· ≠ .organizationDelete)
  | .member =>
      [.organizationRead, .memberRead, .teamRead, .fileRead, .fileCreate, .fileDelete,
        .featureFlagRead] ++ selfServicePermissions
  | .billing => [.organizationRead, .memberRead] ++ selfServicePermissions
  | .viewer =>
      [.organizationRead, .memberRead, .teamRead, .fileRead, .featureFlagRead] ++
        selfServicePermissions

/-- The system role of this name, if it is one. -/
def systemRoleOf (role : List Char) : Option SystemRole :=
  [SystemRole.owner, .admin, .member, .billing, .viewer].find? fun system =>
    system.text.toList = role

def isSystemRole (role : List Char) : Bool := (systemRoleOf role).isSome

/-- The permissions of a name as a system role. -/
def systemPermissionsOf (role : List Char) : List Permission :=
  match systemRoleOf role with
  | some system => systemRolePermissions system
  | none => []

/-! ### Rows -/

structure MemberRow where
  organizationId : String
  userId : String
  role : List Char
  deriving DecidableEq, Repr

/-- A role of an organization; a payload that does not parse has no value. -/
structure OrganizationRoleRow where
  organizationId : String
  role : List Char
  permission : Option Json

/-- What a row grants; a malformed one is skipped. -/
def OrganizationRoleRow.granted (row : OrganizationRoleRow) : List Permission :=
  match row.permission with
  | some parsed => (parsePermissionStatements parsed).granted
  | none => []

/-! ### `PostgresPbacAdapter` -/

/-- `membershipRole` of a user. -/
def membershipRole (members : List MemberRow) (organizationId userId : String) :
    Option (List Char) :=
  (members.find? fun row => row.organizationId = organizationId ∧ row.userId = userId).map
    MemberRow.role

/-- The roles that a stored text lists. -/
def splitRoles (rawRole : List Char) : List (List Char) :=
  ((rawRole.splitOn ',').map trim).filter (· ≠ [])

def customRoleNames (roles : List (List Char)) : List (List Char) :=
  roles.filter fun role => !isSystemRole role

/-- Roles are compared by their names' characters. -/
instance lawfulBEqRole : LawfulBEq (List Char) := inferInstance

/-- `organizationRole.findMany` for names of an organization. -/
def findCustomRoles (organizationRoles : List OrganizationRoleRow) (organizationId : String)
    (names : List (List Char)) : List OrganizationRoleRow :=
  organizationRoles.filter fun row => row.organizationId = organizationId ∧ row.role ∈ names

/-- What the system roles and the rows that were found grant, each once. -/
def grantedPermissions (roles : List (List Char)) (found : List OrganizationRoleRow) :
    List Permission :=
  (roles.flatMap systemPermissionsOf ++ found.flatMap OrganizationRoleRow.granted).eraseDups

/-- `resolvePermissions`, which asks for no rows where all roles are system roles. -/
def resolvePermissions (organizationRoles : List OrganizationRoleRow) (organizationId : String)
    (rawRole : List Char) : List Permission :=
  if customRoleNames (splitRoles rawRole) = [] then grantedPermissions (splitRoles rawRole) []
  else grantedPermissions (splitRoles rawRole)
    (findCustomRoles organizationRoles organizationId (customRoleNames (splitRoles rawRole)))

/-- The permissions of a user in an organization; a user who is no member has none. -/
def memberPermissions (members : List MemberRow) (organizationRoles : List OrganizationRoleRow)
    (organizationId userId : String) : Option (List Permission) :=
  (membershipRole members organizationId userId).map
    (resolvePermissions organizationRoles organizationId)

/-- A permission of a system role, or of a row that the organization has for another name. -/
theorem mem_resolvePermissions {organizationRoles : List OrganizationRoleRow}
    {organizationId : String} {rawRole : List Char} {permission : Permission} :
    permission ∈ resolvePermissions organizationRoles organizationId rawRole ↔
      (∃ role ∈ splitRoles rawRole, permission ∈ systemPermissionsOf role) ∨
        ∃ row ∈ organizationRoles, row.organizationId = organizationId ∧
          row.role ∈ splitRoles rawRole ∧ isSystemRole row.role = false ∧
            permission ∈ row.granted := by
  have granted : permission ∈ resolvePermissions organizationRoles organizationId rawRole ↔
      permission ∈ grantedPermissions (splitRoles rawRole) (findCustomRoles organizationRoles
        organizationId (customRoleNames (splitRoles rawRole))) := by
    unfold resolvePermissions
    split_ifs with none
    · simp [none, findCustomRoles]
    · rfl
  rw [granted, grantedPermissions, List.mem_eraseDups, List.mem_append, List.mem_flatMap,
    List.mem_flatMap]
  simp only [findCustomRoles, customRoleNames, List.mem_filter, decide_eq_true_eq, and_assoc,
    Bool.not_eq_true']

end NestjsFastify.Authorization
