import Mathlib.Data.List.Nodup

/-! # The permission catalogue

A permission names a resource type and an action on it.  Its text is stored in the roles that
tenants define.
-/
namespace NestjsFastify.Authorization

inductive ResourceType where
  | organization
  | member
  | team
  | invitation
  | role
  | file
  | auditLog
  | apiKey
  | featureFlag
  | notification
  | session
  | term
  deriving DecidableEq, Repr

def ResourceType.text : ResourceType → String
  | organization => "organization"
  | member => "member"
  | team => "team"
  | invitation => "invitation"
  | role => "role"
  | file => "file"
  | auditLog => "audit_log"
  | apiKey => "api_key"
  | featureFlag => "feature_flag"
  | notification => "notification"
  | session => "session"
  | term => "term"

inductive Permission where
  | organizationRead
  | organizationUpdate
  | organizationDelete
  | memberRead
  | memberInvite
  | memberUpdate
  | memberRemove
  | teamRead
  | teamCreate
  | teamUpdate
  | teamDelete
  | invitationRead
  | invitationCancel
  | roleRead
  | roleCreate
  | roleUpdate
  | roleDelete
  | fileRead
  | fileCreate
  | fileDelete
  | auditLogRead
  | apiKeyRead
  | apiKeyCreate
  | apiKeyRevoke
  | featureFlagRead
  | featureFlagManage
  | notificationRead
  | notificationUpdate
  | sessionRead
  | sessionRevoke
  | termRead
  | termAccept
  deriving DecidableEq, Repr

def Permission.text : Permission → String
  | organizationRead => "organization:read"
  | organizationUpdate => "organization:update"
  | organizationDelete => "organization:delete"
  | memberRead => "member:read"
  | memberInvite => "member:invite"
  | memberUpdate => "member:update"
  | memberRemove => "member:remove"
  | teamRead => "team:read"
  | teamCreate => "team:create"
  | teamUpdate => "team:update"
  | teamDelete => "team:delete"
  | invitationRead => "invitation:read"
  | invitationCancel => "invitation:cancel"
  | roleRead => "role:read"
  | roleCreate => "role:create"
  | roleUpdate => "role:update"
  | roleDelete => "role:delete"
  | fileRead => "file:read"
  | fileCreate => "file:create"
  | fileDelete => "file:delete"
  | auditLogRead => "audit_log:read"
  | apiKeyRead => "api_key:read"
  | apiKeyCreate => "api_key:create"
  | apiKeyRevoke => "api_key:revoke"
  | featureFlagRead => "feature_flag:read"
  | featureFlagManage => "feature_flag:manage"
  | notificationRead => "notification:read"
  | notificationUpdate => "notification:update"
  | sessionRead => "session:read"
  | sessionRevoke => "session:revoke"
  | termRead => "term:read"
  | termAccept => "term:accept"

/-- `Object.values(PERMISSIONS)` -/
def allPermissions : List Permission :=
  [.organizationRead, .organizationUpdate, .organizationDelete,
    .memberRead, .memberInvite, .memberUpdate, .memberRemove,
    .teamRead, .teamCreate, .teamUpdate, .teamDelete,
    .invitationRead, .invitationCancel,
    .roleRead, .roleCreate, .roleUpdate, .roleDelete,
    .fileRead, .fileCreate, .fileDelete,
    .auditLogRead,
    .apiKeyRead, .apiKeyCreate, .apiKeyRevoke,
    .featureFlagRead, .featureFlagManage,
    .notificationRead, .notificationUpdate,
    .sessionRead, .sessionRevoke,
    .termRead, .termAccept]

theorem mem_allPermissions (permission : Permission) : permission ∈ allPermissions := by
  cases permission <;> decide

/-- The part of the permission's text before its colon, as a resource type. -/
def resourceTypeOf : Permission → ResourceType
  | .organizationRead | .organizationUpdate | .organizationDelete => .organization
  | .memberRead | .memberInvite | .memberUpdate | .memberRemove => .member
  | .teamRead | .teamCreate | .teamUpdate | .teamDelete => .team
  | .invitationRead | .invitationCancel => .invitation
  | .roleRead | .roleCreate | .roleUpdate | .roleDelete => .role
  | .fileRead | .fileCreate | .fileDelete => .file
  | .auditLogRead => .auditLog
  | .apiKeyRead | .apiKeyCreate | .apiKeyRevoke => .apiKey
  | .featureFlagRead | .featureFlagManage => .featureFlag
  | .notificationRead | .notificationUpdate => .notification
  | .sessionRead | .sessionRevoke => .session
  | .termRead | .termAccept => .term

theorem resourceTypeOf_text (permission : Permission) :
    permission.text.toList.takeWhile (· ≠ ':') = (resourceTypeOf permission).text.toList := by
  cases permission <;> decide

/-- Persisted texts name one permission each. -/
theorem Permission.text_injective {left right : Permission} (same : left.text = right.text) :
    left = right := by
  have distinct : (allPermissions.map Permission.text).Nodup := by decide
  exact List.inj_on_of_nodup_map distinct (mem_allPermissions left) (mem_allPermissions right) same

end NestjsFastify.Authorization
