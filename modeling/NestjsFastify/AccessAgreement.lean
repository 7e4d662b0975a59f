import NestjsFastify.AccessPolicy

/-! # Checks and filters on the same rows

A row of a table is described to a check by its organization and its owner, and to a filter by its
columns.  The two agree unless the check grants a permission without looking at what the filter
restricts.
-/
namespace NestjsFastify.Authorization

/-- Identifiers of rows are UUIDs, so never empty. -/
structure RowId where
  text : String
  text_ne : text ≠ ""
  deriving DecidableEq, Repr

inductive ColumnPresence where
  | absent
  | nullable
  | required
  deriving DecidableEq, Repr

def ColumnPresence.Fits : ColumnPresence → Option RowId → Prop
  | absent, column => column = none
  | nullable, _ => True
  | required, column => column.isSome

/-- Which tables have the column `organizationId`. -/
def organizationColumn : ResourceType → ColumnPresence
  | .organization => .absent
  | .member => .required
  | .team => .required
  | .invitation => .required
  | .role => .required
  | .file => .required
  | .auditLog => .nullable
  | .apiKey => .required
  | .featureFlag => .required
  | .notification => .required
  | .session => .absent
  | .term => .absent

/-- Which tables have the column `userId`. -/
def userColumn : ResourceType → ColumnPresence
  | .organization => .absent
  | .member => .required
  | .team => .absent
  | .invitation => .absent
  | .role => .absent
  | .file => .required
  | .auditLog => .nullable
  | .apiKey => .absent
  | .featureFlag => .absent
  | .notification => .required
  | .session => .required
  | .term => .absent

/-- A row of the table of a resource type. -/
structure ResourceRow (resourceType : ResourceType) where
  id : RowId
  organizationId : Option RowId
  userId : Option RowId
  organizationId_fits : (organizationColumn resourceType).Fits organizationId
  userId_fits : (userColumn resourceType).Fits userId

namespace ResourceRow
variable {resourceType : ResourceType} (row : ResourceRow resourceType)

def columns : String → Option String
  | "organizationId" => row.organizationId.map RowId.text
  | "userId" => row.userId.map RowId.text
  | _ => none

/-- What a check is told of the row.  An organization has no column for its organization; `named`
says whether the check is told the organization itself. -/
def resource (named : Bool) : ResourceRef where
  type := resourceType
  id := row.id.text
  ownerId := row.userId.map RowId.text
  organizationId :=
    if named && resourceType = .organization then some row.id.text
    else row.organizationId.map RowId.text

end ResourceRow

/-- A list endpoint's query on the table. -/
def rowEngine (resourceType : ResourceType) :
    QueryEngine ColumnCondition (ResourceRow resourceType) :=
  columnEngine (fun row => row.id.text) ResourceRow.columns

section Clauses
variable {resourceType : ResourceType} {row : ResourceRow resourceType}

@[simp] theorem matches_idClause {id : String} :
    (idClause id).Matches (rowEngine resourceType).admits row ↔ row.id.text = id := by
  simp [idClause, rowEngine, columnEngine, ColumnCondition.Admits]

@[simp] theorem matches_organizationClause {organizationId : String} :
    (organizationClause organizationId).Matches (rowEngine resourceType).admits row ↔
      row.organizationId.map RowId.text = some organizationId := by
  simp [organizationClause, rowEngine, columnEngine, ColumnCondition.Admits, ResourceRow.columns]

@[simp] theorem matches_userClause {userId : String} :
    (userClause userId).Matches (rowEngine resourceType).admits row ↔
      row.userId.map RowId.text = some userId := by
  simp [userClause, rowEngine, columnEngine, ColumnCondition.Admits, ResourceRow.columns]

@[simp] theorem matches_memberClause {organizationId userId : String} :
    (memberClause organizationId userId).Matches (rowEngine resourceType).admits row ↔
      row.organizationId.map RowId.text = some organizationId ∧
        row.userId.map RowId.text = some userId := by
  have fresh : "organizationId" ∉ userClause userId := by
    simp [userClause, AList.mem_keys]
  rw [memberClause, WhereClause.matches_insert fresh, matches_userClause]
  simp [rowEngine, columnEngine, ColumnCondition.Admits, ResourceRow.columns]

end Clauses

/-- The check and the filter give the same answer for the row. -/
def ChecksAgree (context : PolicyContext) (permission : Permission)
    (row : ResourceRow (resourceTypeOf permission)) (named : Bool) : Prop :=
  decideAccess context [{ permission, resource := some (row.resource named) }] =
      [{ allowed := true }] ↔
    (decideFilter context permission (resourceTypeOf permission)).Admits
      (rowEngine (resourceTypeOf permission)) row

/-- What the check of a permission that the principal holds leaves to the row. -/
def WithinScope {resourceType : ResourceType} (principal : Principal)
    (row : ResourceRow resourceType) (named : Bool) : Prop :=
  match resourceScope resourceType with
  | .organization =>
    (row.resource named).organizationId.isSome = true ∨
      resourceType = .organization ∧ principal.organizationId? = some row.id.text
  | .organizationSelf =>
    principal.isUser = true → row.organizationId.map RowId.text = principal.organizationId? →
      row.userId.map RowId.text = principal.userId?
  | .self => row.userId.map RowId.text = principal.userId?
  | .global => True

/-- The condition under which the check and the filter agree on the row. -/
def AgreementCondition (context : PolicyContext) (permission : Permission)
    (row : ResourceRow (resourceTypeOf permission)) (named : Bool) : Prop :=
  context.principal.isSystem = true ∨
    (context.nonMember && requiresMembership permission) = true ∨
      holds context permission = false ∨ WithinScope context.principal row named

theorem decideAccess_allows_iff (context : PolicyContext) (request : CheckRequest) :
    decideAccess context [request] = [{ allowed := true }] ↔
      (context.nonMember && requiresMembership request.permission) = false ∧
        crossesOrganization context.principal request = false ∧
          (holds context request.permission = true ∨ ownsResource context request = true) := by
  simp only [decideAccess, List.map_cons, List.map_nil, List.cons.injEq, and_true]
  fun_cases decideRequest context request <;> simp_all

section Row
variable {resourceType : ResourceType} {row : ResourceRow resourceType}

theorem resource_organizationId_ne {named : Bool} {name : String}
    (found : (row.resource named).organizationId = some name) : name ≠ "" := by
  simp only [ResourceRow.resource] at found
  split at found
  · obtain rfl : row.id.text = name := by simpa using found
    exact row.id.text_ne
  · obtain ⟨organization, -, rfl⟩ := Option.map_eq_some_iff.mp found
    exact organization.text_ne

/-- A row that names no organization is of no other. -/
theorem crosses_eq_false_iff {principal : Principal} {permission : Permission} {named : Bool}
    {organizationId : String} (own : principal.organizationId? = some organizationId) :
    crossesOrganization principal { permission, resource := some (row.resource named) } = false ↔
      ∀ name ∈ (row.resource named).organizationId, name = organizationId := by
  have notSystem : principal.isSystem = false := by
    cases principal <;> simp_all [Principal.isSystem, Principal.organizationId?]
  simp only [crossesOrganization, CheckRequest.organizationId, Option.bind_some, notSystem, own]
  cases organization : (row.resource named).organizationId with
  | none => simp
  | some name =>
    have filled : name ≠ "" := resource_organizationId_ne organization
    simp [filled]

theorem resource_organizationId {named : Bool} (other : resourceType ≠ .organization) :
    (row.resource named).organizationId = row.organizationId.map RowId.text := by
  simp [ResourceRow.resource, other]

/-- Rows of an organization's user have both columns. -/
theorem columns_of_organizationSelf (row : ResourceRow resourceType)
    (scope : resourceScope resourceType = .organizationSelf) :
    row.organizationId.isSome = true ∧ row.userId.isSome = true := by
  have organization := row.organizationId_fits
  have user := row.userId_fits
  cases resourceType <;> first | contradiction | exact ⟨organization, user⟩

/-- Rows of a user are of no organization. -/
theorem columns_of_self (row : ResourceRow resourceType)
    (scope : resourceScope resourceType = .self) :
    row.organizationId = none ∧ row.userId.isSome = true := by
  have organization := row.organizationId_fits
  have user := row.userId_fits
  cases resourceType <;> first | contradiction | exact ⟨organization, user⟩

theorem columns_of_global (row : ResourceRow resourceType)
    (scope : resourceScope resourceType = .global) :
    row.organizationId = none := by
  have organization := row.organizationId_fits
  cases resourceType <;> first | contradiction | exact organization

/-- Holding the permission, the check and the filter agree on the rows within its scope. -/
theorem granted_agrees_iff {principal : Principal} {permission : Permission} {named : Bool}
    {organizationId : String} (own : principal.organizationId? = some organizationId) :
    (crossesOrganization principal { permission, resource := some (row.resource named) } = false ↔
        (grantedFilter organizationId principal.userId? resourceType).Admits
          (rowEngine resourceType) row) ↔
      WithinScope principal row named := by
  rw [crosses_eq_false_iff own]
  by_cases table : resourceType = .organization
  · subst table
    have noColumn : row.organizationId = none := row.organizationId_fits
    cases named <;>
      simp [ResourceRow.resource, noColumn, grantedFilter, AccessFilter.Admits, WithinScope,
        resourceScope, own, eq_comm]
  · have described : (row.resource named).organizationId = row.organizationId.map RowId.text :=
      resource_organizationId table
    simp only [described, grantedFilter, if_neg table, WithinScope]
    cases scope : resourceScope resourceType with
    | organization =>
      cases organization : row.organizationId <;> simp [AccessFilter.Admits, organization, table]
    | organizationSelf =>
      obtain ⟨hasOrganization, hasUser⟩ := columns_of_organizationSelf row scope
      obtain ⟨organization, organizationIs⟩ := Option.isSome_iff_exists.mp hasOrganization
      cases principal with
      | user userId ownId membershipId =>
        obtain rfl : ownId = organizationId := by simpa [Principal.organizationId?] using own
        simp [Principal.userId?, Principal.isUser, Principal.organizationId?, AccessFilter.Admits,
          organizationIs]
      | apiKey apiKeyId ownId scopes =>
        simp [Principal.userId?, Principal.isUser, AccessFilter.Admits, organizationIs]
      | system reason => simp [Principal.organizationId?] at own
    | self =>
      obtain ⟨noOrganization, hasUser⟩ := columns_of_self row scope
      obtain ⟨user, userIs⟩ := Option.isSome_iff_exists.mp hasUser
      cases principal.userId? <;> simp [AccessFilter.Admits, noOrganization, userIs]
    | global =>
      simp [AccessFilter.Admits, columns_of_global row scope]

end Row

section Agreement
variable {permission : Permission} {row : ResourceRow (resourceTypeOf permission)} {named : Bool}

theorem columns_of_ownerScoped (row : ResourceRow (resourceTypeOf permission))
    (ownable : permission ∈ ownerScopedPermissions) :
    row.organizationId.isSome = true ∧ resourceTypeOf permission ≠ .organization := by
  have organization := row.organizationId_fits
  simp only [ownerScopedPermissions, List.mem_cons, List.not_mem_nil, or_false] at ownable
  rcases ownable with rfl | rfl <;> exact ⟨organization, by decide⟩

/-- Without the permission, the check and the filter always agree. -/
theorem owned_agrees {context : PolicyContext} {organizationId : String}
    (own : context.principal.organizationId? = some organizationId) :
    (crossesOrganization context.principal
          { permission, resource := some (row.resource named) } = false ∧
        ownsResource context { permission, resource := some (row.resource named) } = true) ↔
      (ownedFilter context organizationId permission).Admits
        (rowEngine (resourceTypeOf permission)) row := by
  rw [crosses_eq_false_iff own]
  cases user : context.principal.userId? with
  | none =>
    have noUser : context.principal.isUser = false := by
      cases principal : context.principal <;>
        simp_all [Principal.userId?, Principal.isUser]
    simp [ownsResource, ownedFilter, AccessFilter.Admits, noUser, user]
  | some userId =>
    have isUser : context.principal.isUser = true := by
      cases principal : context.principal <;>
        simp_all [Principal.userId?, Principal.isUser]
    by_cases ownable : permission ∈ ownerScopedPermissions
    · obtain ⟨hasOrganization, table⟩ := columns_of_ownerScoped row ownable
      obtain ⟨organization, organizationIs⟩ := Option.isSome_iff_exists.mp hasOrganization
      have ownerId : (row.resource named).ownerId = row.userId.map RowId.text := rfl
      rw [resource_organizationId table]
      cases member : context.isMember <;>
        simp [ownsResource, ownedFilter, AccessFilter.Admits, isUser, user, ownable, member,
          organizationIs, CheckRequest.ownerId, ownerId]
    · simp [ownsResource, ownedFilter, AccessFilter.Admits, isUser, user, ownable]

/-- The check and the filter agree on a row exactly when nothing is granted beyond what the filter
restricts: the principal is the system or lacks the permission, or the row is within its scope. -/
theorem checksAgree_iff (context : AdapterContext) (permission : Permission)
    (row : ResourceRow (resourceTypeOf permission)) (named : Bool) :
    ChecksAgree context.toPolicyContext permission row named ↔
      AgreementCondition context.toPolicyContext permission row named := by
  rw [ChecksAgree, decideAccess_allows_iff, decideFilter, if_neg (not_not.mpr rfl)]
  cases own : context.principal.organizationId? with
  | none =>
    obtain ⟨isSystem, notUser⟩ : context.principal.isSystem = true ∧
        context.principal.isUser = false := by
      cases principal : context.principal <;>
        simp_all [Principal.organizationId?, Principal.isSystem, Principal.isUser]
    have granted := context.holds_system isSystem permission
    simp [AgreementCondition, PolicyContext.nonMember, crossesOrganization, AccessFilter.Admits,
      isSystem, notUser, granted]
  | some organizationId =>
    have notSystem : context.principal.isSystem = false := by
      cases principal : context.principal <;>
        simp_all [Principal.organizationId?, Principal.isSystem]
    simp only [AgreementCondition, notSystem, Bool.false_eq_true, false_or]
    cases barred : context.nonMember && requiresMembership permission with
    | true => simp [AccessFilter.Admits]
    | false =>
      cases held : holds context.toPolicyContext permission with
      | true => simpa using granted_agrees_iff own
      | false => simpa using owned_agrees own

end Agreement

/-- A user's check of another user's session. -/
def ownSessionContext : AdapterContext :=
  adapterContext (fun _ _ => none) (.user "caller" "organization" none)

def foreignSession : ResourceRow .session where
  id := ⟨"session", by decide⟩
  organizationId := none
  userId := some ⟨"another", by decide⟩
  organizationId_fits := rfl
  userId_fits := rfl

/-- The check grants a session of another user, which the filter leaves out. -/
theorem foreignSession_granted :
    ¬ ChecksAgree ownSessionContext.toPolicyContext .sessionRead foreignSession false := by
  have granted : decideAccess ownSessionContext.toPolicyContext
      [{ permission := .sessionRead, resource := some (foreignSession.resource false) }] =
        [{ allowed := true }] := by
    decide
  have filter : decideFilter ownSessionContext.toPolicyContext .sessionRead .session =
      .predicate (userClause "caller") := rfl
  intro agree
  have admitted := agree.mp granted
  change AccessFilter.Admits _ (decideFilter _ _ .session) _ at admitted
  rw [filter] at admitted
  have own := matches_userClause.mp admitted
  simp [foreignSession] at own

end NestjsFastify.Authorization
