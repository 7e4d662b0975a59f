import NestjsFastify.OrganizationRoleEntity

/-! # API keys

A key is issued with scopes that the issuing user holds.
-/
namespace NestjsFastify.Authorization
open ScriptText (trim)

/-- `generateApiKey` -/
structure GeneratedApiKey where
  raw : String
  keyPrefix : String
  hash : String

structure ApiKey where
  organizationId : String
  name : List Char
  keyPrefix : String
  keyHash : String
  scopes : List String
  createdById : Option String
  expiresAt : Option Int
  deriving DecidableEq, Repr

structure IssuedApiKey where
  entity : ApiKey
  raw : String
  deriving DecidableEq, Repr

structure IssueApiKeyInput where
  organizationId : String
  name : List Char
  scopes : List String
  createdById : Option String
  expiresAt : Option Int
  grantedToIssuer : List Permission

/-- `validation` -/
def invalidKey (path code message messageKey : String) : DomainException :=
  fieldProblem { kind := .validation, code, messageKey, path, message }

def assertNonEmptyName (name : List Char) : Except DomainException (List Char) :=
  if trim name = [] then
    .error (invalidKey "name" "validation_failed" "name must not be empty" "validation.too_short")
  else .ok (trim name)

def assertScopes (scopes : List String) (grantedToIssuer : List Permission) :
    Except DomainException (List String) :=
  if scopes = [] then
    .error (invalidKey "scopes" "validation_failed" "an API key must carry at least one scope"
      "errors.api_keys.empty_scopes")
  else if (scopes.filter fun scope => (permissionOf scope).isNone) ≠ [] then
    .error (invalidKey "scopes" "validation_failed"
      ("unknown scopes: " ++ ", ".intercalate
        (scopes.filter fun scope => (permissionOf scope).isNone))
      "errors.api_keys.unknown_scope")
  else if (scopes.filter (· ∉ grantedToIssuer.map Permission.text)) ≠ [] then
    .error (invalidKey "scopes" "api_key_scope_exceeds_grant"
      ("scopes exceed the issuer's own permissions: " ++ ", ".intercalate
        (scopes.filter (· ∉ grantedToIssuer.map Permission.text)))
      "errors.api_keys.scope_exceeds_grant")
  else .ok scopes.eraseDups

def assertFutureExpiry (expiresAt : Option Int) (now : Int) : Except DomainException (Option Int) :=
  match expiresAt with
  | none => .ok none
  | some instant =>
      if instant ≤ now then
        .error (invalidKey "expiresAt" "validation_failed" "expiresAt must be in the future"
          "errors.api_keys.expiry_in_past")
      else .ok (some instant)

def ApiKey.issue (input : IssueApiKeyInput) (secret : GeneratedApiKey) (now : Int) :
    Except DomainException IssuedApiKey := do
  let scopes ← assertScopes input.scopes input.grantedToIssuer
  let expiresAt ← assertFutureExpiry input.expiresAt now
  let name ← assertNonEmptyName input.name
  .ok {
    entity := {
      organizationId := input.organizationId
      name
      keyPrefix := secret.keyPrefix
      keyHash := secret.hash
      scopes
      createdById := input.createdById
      expiresAt }
    raw := secret.raw }

/-- The scopes of a key are permissions that the issuer holds. -/
theorem assertScopes_subset {scopes result : List String} {grantedToIssuer : List Permission}
    (accepted : assertScopes scopes grantedToIssuer = .ok result) :
    ∀ scope ∈ result, ∃ permission ∈ grantedToIssuer, permission.text = scope := by
  unfold assertScopes at accepted
  split_ifs at accepted with empty unknown escalating
  obtain rfl := Except.ok.inj accepted
  rw [not_not, List.filter_eq_nil_iff] at escalating
  intro scope member
  have held := escalating scope (List.mem_eraseDups.mp member)
  exact List.mem_map.mp (by simpa using held)

theorem ApiKey.issue_ok {input : IssueApiKeyInput} {secret : GeneratedApiKey} {now : Int}
    {result : IssuedApiKey} (issued : ApiKey.issue input secret now = .ok result) :
    result.entity.organizationId = input.organizationId ∧
      ∀ scope ∈ result.entity.scopes, ∃ permission ∈ input.grantedToIssuer, permission.text = scope := by
  obtain ⟨scopes, accepted, expiring⟩ := bind_ok issued
  obtain ⟨expiresAt, -, naming⟩ := bind_ok expiring
  obtain ⟨name, -, made⟩ := bind_ok naming
  obtain rfl := Except.ok.inj made
  exact ⟨rfl, assertScopes_subset accepted⟩

end NestjsFastify.Authorization
