import NestjsFastify.MemberPermissions

/-! # Roles that an organization defines

A role is created and changed with permissions that the acting user holds.
-/
namespace NestjsFastify.Authorization
open ScriptText (isBlank)

structure OrganizationRole where
  organizationId : String
  role : List Char
  permissions : List Permission
  deriving DecidableEq, Repr

structure CreateOrganizationRoleInput where
  organizationId : String
  role : List Char
  permissions : List String
  grantedToActor : List Permission

/-! ### Names -/

def isRoleNameCharacter (character : Char) : Bool :=
  ('a' ≤ character && character ≤ 'z') || character.isDigit || character = '_' || character = '-'

/-- The pattern `^[a-z][a-z0-9_-]{1,49}$`. -/
def isRoleName : List Char → Bool
  | [] => false
  | first :: rest => 'a' ≤ first && first ≤ 'z' && rest.all isRoleNameCharacter &&
      1 ≤ rest.length && rest.length ≤ 49

theorem isRoleNameCharacter_of_mem {role : List Char} (named : isRoleName role = true) :
    ∀ character ∈ role, isRoleNameCharacter character = true := by
  cases role with
  | nil => simp [isRoleName] at named
  | cons first rest =>
    simp only [isRoleName, Bool.and_eq_true] at named
    obtain ⟨⟨⟨⟨low, high⟩, others⟩, -⟩, -⟩ := named
    refine List.forall_mem_cons.mpr ⟨?_, List.all_eq_true.mp others⟩
    simp [isRoleNameCharacter, low, high]

theorem isRoleNameCharacter_plain {character : Char}
    (allowed : isRoleNameCharacter character = true) :
    character ≠ ',' ∧ character ≠ ':' ∧ isBlank character = false := by
  have code : (97 ≤ character.toNat ∧ character.toNat ≤ 122) ∨
      (48 ≤ character.toNat ∧ character.toNat ≤ 57) ∨ character.toNat = 95 ∨
        character.toNat = 45 := by
    simp only [isRoleNameCharacter, Bool.or_eq_true, Bool.and_eq_true, decide_eq_true_eq] at allowed
    rcases allowed with ((⟨low, high⟩ | digit) | rfl) | rfl
    · exact .inl ⟨low, high⟩
    · have range := Bool.and_eq_true_iff.mp digit
      exact .inr (.inl ⟨of_decide_eq_true range.1, of_decide_eq_true range.2⟩)
    · exact .inr (.inr (.inl rfl))
    · exact .inr (.inr (.inr rfl))
  refine ⟨?_, ?_, ?_⟩
  · rintro rfl
    exact absurd code (by decide)
  · rintro rfl
    exact absurd code (by decide)
  · simp only [isBlank, Bool.or_eq_false_iff, Bool.and_eq_false_iff, decide_eq_false_iff_not]
    omega

/-- `invalid` -/
def invalidRole (path code message messageKey : String) : DomainException :=
  .new {
    kind := some .validation
    code := some "validation_failed"
    title := some "common.unprocessable_entity"
    messageKey := some messageKey
    violations := [{ path, code, message, messageKey := some messageKey }] }

def assertRoleName (role : List Char) : Except DomainException Unit :=
  if isRoleName role = false then
    .error (invalidRole "role" "invalid_role_name"
      ("role must be 2-50 characters of lowercase letters, digits, hyphen or underscore, " ++
        "starting with a letter") "errors.organizations.invalid_role_name")
  else if isSystemRole role then
    .error (invalidRole "role" "reserved_role_name"
      "role name is reserved by a built-in system role" "errors.organizations.reserved_role_name")
  else .ok ()

/-! ### Permissions -/

def assertKnownPermissions (permissions : List String) : Except DomainException (List Permission) :=
  if permissions = [] then
    .error (invalidRole "permissions" "empty_permissions" "a role must grant at least one permission"
      "errors.organizations.empty_permissions")
  else if (permissions.filter fun permission => (permissionOf permission).isNone) ≠ [] then
    .error (invalidRole "permissions" "unknown_permission"
      ("unknown permissions: " ++ ", ".intercalate
        (permissions.filter fun permission => (permissionOf permission).isNone))
      "errors.organizations.unknown_permission")
  else .ok (permissions.eraseDups.filterMap permissionOf)

def assertWithinActorGrant (permissions grantedToActor : List Permission) :
    Except DomainException (List Permission) :=
  if (permissions.filter (· ∉ grantedToActor)) ≠ [] then
    .error (.new {
      kind := some .forbidden
      code := some "forbidden"
      title := some "common.forbidden"
      violations := [{
        path := "permissions"
        code := "permission_exceeds_grant"
        message := "permissions exceed the caller's own grant: " ++
          ", ".intercalate ((permissions.filter (· ∉ grantedToActor)).map Permission.text) }] })
  else .ok permissions

def resolveGrantablePermissions (permissions : List String) (grantedToActor : List Permission) :
    Except DomainException (List Permission) := do
  assertWithinActorGrant (← assertKnownPermissions permissions) grantedToActor

/-! ### The entity -/

def OrganizationRole.create (input : CreateOrganizationRoleInput) :
    Except DomainException OrganizationRole := do
  assertRoleName input.role
  let permissions ← resolveGrantablePermissions input.permissions input.grantedToActor
  .ok { organizationId := input.organizationId, role := input.role, permissions }

def OrganizationRole.withPermissions (existing : OrganizationRole) (permissions : List String)
    (grantedToActor : List Permission) : Except DomainException OrganizationRole := do
  let permissions ← resolveGrantablePermissions permissions grantedToActor
  .ok { existing with permissions }

/-- The row that `PrismaOrganizationRoleRepository` stores. -/
def OrganizationRole.toRow (role : OrganizationRole) : OrganizationRoleRow where
  organizationId := role.organizationId
  role := role.role
  permission := some (serializePermissionStatements role.permissions)

theorem mem_granted_toRow {role : OrganizationRole} {permission : Permission} :
    permission ∈ role.toRow.granted ↔ permission ∈ role.permissions :=
  (granted_serialize role.permissions).mem_iff

/-- A computation succeeds when its first part does and then the rest. -/
theorem bind_ok {Error First Second : Type} {first : Except Error First}
    {rest : First → Except Error Second} {result : Second} (done : (first >>= rest) = .ok result) :
    ∃ value, first = .ok value ∧ rest value = .ok result := by
  cases first with
  | error error => cases done
  | ok value => exact ⟨value, rfl, done⟩

section
variable {permissions : List String} {granted result : List Permission}

theorem resolveGrantablePermissions_subset
    (resolved : resolveGrantablePermissions permissions granted = .ok result) :
    ∀ permission ∈ result, permission ∈ granted := by
  obtain ⟨known, -, within⟩ := bind_ok resolved
  unfold assertWithinActorGrant at within
  split_ifs at within with escalating
  obtain rfl := Except.ok.inj within
  rw [not_not, List.filter_eq_nil_iff] at escalating
  simpa using escalating

end

/-- A role that is created has the organization and the name of the command, and grants nothing that
the actor does not hold. -/
theorem OrganizationRole.create_ok {input : CreateOrganizationRoleInput} {role : OrganizationRole}
    (created : OrganizationRole.create input = .ok role) :
    role.organizationId = input.organizationId ∧ role.role = input.role ∧
      ∀ permission ∈ role.permissions, permission ∈ input.grantedToActor := by
  obtain ⟨_, -, named⟩ := bind_ok created
  obtain ⟨permissions, resolved, made⟩ := bind_ok named
  obtain rfl := Except.ok.inj made
  exact ⟨rfl, rfl, resolveGrantablePermissions_subset resolved⟩

theorem OrganizationRole.withPermissions_ok {existing role : OrganizationRole}
    {permissions : List String} {grantedToActor : List Permission}
    (changed : existing.withPermissions permissions grantedToActor = .ok role) :
    role.organizationId = existing.organizationId ∧ role.role = existing.role ∧
      ∀ permission ∈ role.permissions, permission ∈ grantedToActor := by
  obtain ⟨permissions, resolved, made⟩ := bind_ok changed
  obtain rfl := Except.ok.inj made
  exact ⟨rfl, rfl, resolveGrantablePermissions_subset resolved⟩

end NestjsFastify.Authorization
