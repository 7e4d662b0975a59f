import Mathlib.Logic.Function.Basic
import NestjsFastify.OrganizationRoleEntity

/-! # The two authorization adapters

`PostgresPbacAdapter` reads the rows of members and roles; `InMemoryAuthorizationAdapter` keeps them
in maps whose keys are texts put together.  Both give the same answers after the same changes.
-/
namespace NestjsFastify.Authorization
open ScriptText (trim isBlank trim_eq_self)

/-! ### `InMemoryAuthorizationAdapter` -/

structure InMemoryAdapter where
  roles : List Char → Option (List (List Char))
  customRoles : List Char → Option (List Permission)

def InMemoryAdapter.empty : InMemoryAdapter := ⟨fun _ => none, fun _ => none⟩

/-- A template `${first}:${second}`. -/
def joinedKey (first second : List Char) : List Char := first ++ ':' :: second

def membershipKey (organizationId userId : String) : List Char :=
  joinedKey organizationId.toList userId.toList

namespace InMemoryAdapter

def setMemberRoles (adapter : InMemoryAdapter) (organizationId userId : String)
    (roles : List (List Char)) : InMemoryAdapter :=
  { adapter with
    roles := Function.update adapter.roles (membershipKey organizationId userId) (some roles) }

def defineCustomRole (adapter : InMemoryAdapter) (organizationId : String) (role : List Char)
    (permissions : List Permission) : InMemoryAdapter :=
  { adapter with
    customRoles := Function.update adapter.customRoles (joinedKey organizationId.toList role)
      (some permissions) }

/-- The permissions of one role of a member. -/
def permissionsOfRole (adapter : InMemoryAdapter) (organizationId : String) (role : List Char) :
    List Permission :=
  if isSystemRole role then systemPermissionsOf role
  else (adapter.customRoles (joinedKey organizationId.toList role)).getD []

/-- `resolvePermissions` of a user, without a value for a user who has no entry. -/
def memberPermissions (adapter : InMemoryAdapter) (organizationId userId : String) :
    Option (List Permission) :=
  (adapter.roles (membershipKey organizationId userId)).map fun roles =>
    (roles.flatMap (adapter.permissionsOfRole organizationId)).eraseDups

end InMemoryAdapter

/-! ### Rows -/

structure AuthorizationRows where
  members : List MemberRow
  organizationRoles : List OrganizationRoleRow

def AuthorizationRows.empty : AuthorizationRows := ⟨[], []⟩

namespace AuthorizationRows

/-- The row of a member, written or replaced, with the roles joined by commas. -/
def setMemberRoles (rows : AuthorizationRows) (organizationId userId : String)
    (roles : List (List Char)) : AuthorizationRows :=
  { rows with
    members := ⟨organizationId, userId, [','].intercalate roles⟩ ::
      rows.members.filter fun row => ¬ (row.organizationId = organizationId ∧ row.userId = userId) }

/-- The row of a role, written or replaced, with its permissions serialized. -/
def defineCustomRole (rows : AuthorizationRows) (organizationId : String) (role : List Char)
    (permissions : List Permission) : AuthorizationRows :=
  { rows with
    organizationRoles := OrganizationRole.toRow ⟨organizationId, role, permissions⟩ ::
      rows.organizationRoles.filter fun row =>
        ¬ (row.organizationId = organizationId ∧ row.role = role) }

def memberPermissions (rows : AuthorizationRows) (organizationId userId : String) :
    Option (List Permission) :=
  Authorization.memberPermissions rows.members rows.organizationRoles organizationId userId

end AuthorizationRows

/-! ### Histories -/

inductive AuthorizationChange where
  | setMemberRoles (organizationId userId : String) (roles : List (List Char))
  | defineCustomRole (organizationId : String) (role : List Char) (permissions : List Permission)

/-- Identifiers are UUIDs, so without colons, and names follow the rule for names of roles. -/
def AuthorizationChange.WellFormed : AuthorizationChange → Prop
  | setMemberRoles organizationId userId roles => ':' ∉ organizationId.toList ∧
      ':' ∉ userId.toList ∧ ∀ role ∈ roles, isRoleName role = true
  | defineCustomRole organizationId role _ => ':' ∉ organizationId.toList ∧ isRoleName role = true

def InMemoryAdapter.apply (adapter : InMemoryAdapter) : AuthorizationChange → InMemoryAdapter
  | .setMemberRoles organizationId userId roles => adapter.setMemberRoles organizationId userId roles
  | .defineCustomRole organizationId role permissions =>
      adapter.defineCustomRole organizationId role permissions

def AuthorizationRows.apply (rows : AuthorizationRows) : AuthorizationChange → AuthorizationRows
  | .setMemberRoles organizationId userId roles => rows.setMemberRoles organizationId userId roles
  | .defineCustomRole organizationId role permissions =>
      rows.defineCustomRole organizationId role permissions

/-- Permissions of members as an adapter hands them to the access policy. -/
def permissionTexts (find : String → String → Option (List Permission))
    (organizationId userId : String) : Option (List String) :=
  (find organizationId userId).map (·.map Permission.text)

def inMemoryAdapter (history : List AuthorizationChange) : String → String → Option (List String) :=
  permissionTexts (history.foldl InMemoryAdapter.apply .empty).memberPermissions

def postgresAdapter (history : List AuthorizationChange) : String → String → Option (List String) :=
  permissionTexts (history.foldl AuthorizationRows.apply .empty).memberPermissions

/-! ### Texts that are put together and taken apart -/

/-- A key with one colon has only one reading. -/
theorem joinedKey_inj {first second other another : List Char} (plain : ':' ∉ first)
    (simple : ':' ∉ second) :
    joinedKey other another = joinedKey first second ↔ other = first ∧ another = second := by
  constructor
  · intro same
    rcases List.append_eq_append_iff.mp same with ⟨more, longer, rest⟩ | ⟨more, longer, rest⟩
    · cases more with
      | nil => exact ⟨by simpa using longer.symm, by simpa using rest⟩
      | cons character more =>
        obtain ⟨rfl, -⟩ := List.cons.inj rest
        exact absurd (longer ▸ List.mem_append_right _ List.mem_cons_self) plain
    · cases more with
      | nil => exact ⟨by simpa using longer, by simpa using rest.symm⟩
      | cons character more =>
        obtain ⟨-, tail⟩ := List.cons.inj rest
        exact absurd (tail ▸ List.mem_append_right _ List.mem_cons_self) simple
  · rintro ⟨rfl, rfl⟩
    rfl

/-- Names are read back from the text that lists them. -/
theorem splitRoles_intercalate {roles : List (List Char)}
    (named : ∀ role ∈ roles, isRoleName role = true) :
    splitRoles ([','].intercalate roles) = roles := by
  have plain : ∀ role ∈ roles, ∀ character ∈ role, character ≠ ',' ∧ character ≠ ':' ∧
      isBlank character = false := fun role own character member =>
    isRoleNameCharacter_plain (isRoleNameCharacter_of_mem (named role own) character member)
  by_cases none : roles = []
  · subst none
    decide
  · have split : ([','].intercalate roles).splitOn ',' = roles :=
      List.splitOn_intercalate ',' (fun role own member => (plain role own ',' member).1 rfl) none
    have trimmed : roles.map trim = roles := by
      refine (List.map_congr_left fun role own => ?_).trans (List.map_id roles)
      exact trim_eq_self fun character member => (plain role own character member).2.2
    rw [splitRoles, split, trimmed, List.filter_eq_self]
    intro role own
    have some := named role own
    refine decide_eq_true ?_
    rintro rfl
    simp [isRoleName] at some

theorem colon_not_mem {role : List Char} (named : isRoleName role = true) : ':' ∉ role :=
  fun member => (isRoleNameCharacter_plain (isRoleNameCharacter_of_mem named ':' member)).2.1 rfl

/-! ### Rows mirror the maps -/

structure Mirrors (rows : AuthorizationRows) (adapter : InMemoryAdapter) : Prop where
  members : ∀ organizationId userId, membershipRole rows.members organizationId userId =
    (adapter.roles (membershipKey organizationId userId)).map ([','].intercalate ·)
  named : ∀ key roles, adapter.roles key = some roles → ∀ role ∈ roles, isRoleName role = true
  customs : ∀ organizationId role permission,
    permission ∈ (adapter.customRoles (joinedKey organizationId.toList role)).getD [] ↔
      ∃ row ∈ rows.organizationRoles, row.organizationId = organizationId ∧ row.role = role ∧
        permission ∈ row.granted

theorem InMemoryAdapter.roles_setMemberRoles (adapter : InMemoryAdapter)
    (organizationId userId : String) (roles : List (List Char)) (key : List Char) :
    (adapter.setMemberRoles organizationId userId roles).roles key =
      if key = membershipKey organizationId userId then some roles else adapter.roles key :=
  Function.update_apply ..

theorem InMemoryAdapter.customRoles_defineCustomRole (adapter : InMemoryAdapter)
    (organizationId : String) (role : List Char) (permissions : List Permission)
    (key : List Char) :
    (adapter.defineCustomRole organizationId role permissions).customRoles key =
      if key = joinedKey organizationId.toList role then some permissions
      else adapter.customRoles key :=
  Function.update_apply ..

theorem membershipRole_setMemberRoles (rows : AuthorizationRows)
    (organizationId userId otherId anotherId : String) (roles : List (List Char)) :
    membershipRole (rows.setMemberRoles organizationId userId roles).members otherId anotherId =
      if otherId = organizationId ∧ anotherId = userId then some ([','].intercalate roles)
      else membershipRole rows.members otherId anotherId := by
  unfold membershipRole AuthorizationRows.setMemberRoles
  split_ifs with same
  · obtain ⟨rfl, rfl⟩ := same
    simp
  · have other : ¬ (organizationId = otherId ∧ userId = anotherId) := by
      rintro ⟨rfl, rfl⟩
      exact same ⟨rfl, rfl⟩
    rw [List.find?_cons_of_neg (by simpa using other), List.find?_filter]
    refine congrArg (fun test => (rows.members.find? test).map MemberRow.role) (funext fun row => ?_)
    rw [Bool.eq_iff_iff, decide_eq_true_iff, decide_eq_true_iff, decide_eq_true_iff]
    refine ⟨And.right, fun found => ⟨fun replaced => same ?_, found⟩⟩
    exact ⟨found.1.symm.trans replaced.1, found.2.symm.trans replaced.2⟩

private theorem toList_eq_iff {first second : String} : first.toList = second.toList ↔ first = second :=
  ⟨String.toList_injective, congrArg String.toList⟩

theorem Mirrors.setMemberRoles {rows : AuthorizationRows} {adapter : InMemoryAdapter}
    (mirrors : Mirrors rows adapter) {organizationId userId : String} {roles : List (List Char)}
    (wellFormed : (AuthorizationChange.setMemberRoles organizationId userId roles).WellFormed) :
    Mirrors (rows.setMemberRoles organizationId userId roles)
      (adapter.setMemberRoles organizationId userId roles) := by
  obtain ⟨plain, simple, named⟩ := wellFormed
  have key : ∀ otherId anotherId, membershipKey otherId anotherId =
      membershipKey organizationId userId ↔ otherId = organizationId ∧ anotherId = userId := by
    intro otherId anotherId
    rw [membershipKey, membershipKey, joinedKey_inj plain simple, toList_eq_iff, toList_eq_iff]
  constructor
  case members =>
    intro otherId anotherId
    rw [membershipRole_setMemberRoles, InMemoryAdapter.roles_setMemberRoles]
    simp only [key]
    split_ifs with same
    · rfl
    · exact mirrors.members otherId anotherId
  case named =>
    intro other others found
    rw [InMemoryAdapter.roles_setMemberRoles] at found
    split_ifs at found with same
    · exact Option.some.inj found ▸ named
    · exact mirrors.named other others found
  case customs => exact mirrors.customs

theorem Mirrors.defineCustomRole {rows : AuthorizationRows} {adapter : InMemoryAdapter}
    (mirrors : Mirrors rows adapter) {organizationId : String} {role : List Char}
    {permissions : List Permission}
    (wellFormed : (AuthorizationChange.defineCustomRole organizationId role permissions).WellFormed) :
    Mirrors (rows.defineCustomRole organizationId role permissions)
      (adapter.defineCustomRole organizationId role permissions) := by
  obtain ⟨plain, named⟩ := wellFormed
  constructor
  case members => exact mirrors.members
  case named => exact mirrors.named
  case customs =>
    intro otherId other permission
    have key := @joinedKey_inj _ _ otherId.toList other plain (colon_not_mem named)
    rw [toList_eq_iff] at key
    simp only [AuthorizationRows.defineCustomRole, List.mem_cons, exists_eq_or_imp,
      mem_granted_toRow, List.mem_filter, decide_eq_true_eq]
    rw [InMemoryAdapter.customRoles_defineCustomRole]
    simp only [key]
    split_ifs with same
    · obtain ⟨rfl, rfl⟩ := same
      constructor
      · exact fun member => .inl ⟨rfl, rfl, member⟩
      · rintro (⟨-, -, member⟩ | ⟨row, ⟨-, kept⟩, here, name, -⟩)
        · exact member
        · exact absurd ⟨here, name⟩ kept
    · rw [mirrors.customs]
      constructor
      · rintro ⟨row, own, rfl, rfl, member⟩
        exact .inr ⟨row, ⟨own, same⟩, rfl, rfl, member⟩
      · rintro (⟨rfl, rfl, -⟩ | ⟨row, ⟨own, -⟩, found⟩)
        · exact absurd ⟨rfl, rfl⟩ same
        · exact ⟨row, own, found⟩

theorem mirrors_of_history {history : List AuthorizationChange}
    (wellFormed : ∀ change ∈ history, change.WellFormed) :
    Mirrors (history.foldl AuthorizationRows.apply .empty)
      (history.foldl InMemoryAdapter.apply .empty) := by
  induction history using List.reverseRecOn with
  | nil =>
    constructor
    case members => exact fun _ _ => rfl
    case named => exact fun _ _ found => nomatch found
    case customs => simp [AuthorizationRows.empty, InMemoryAdapter.empty]
  | append_singleton history change ih =>
    have before := ih fun earlier member => wellFormed earlier (List.mem_append_left _ member)
    have here := wellFormed change (List.mem_append_right _ (List.mem_singleton_self _))
    rw [List.foldl_append, List.foldl_append]
    cases change with
    | setMemberRoles => exact before.setMemberRoles here
    | defineCustomRole => exact before.defineCustomRole here

/-! ### The same answers -/

/-- Contexts that grant the same, whatever the order of their permissions. -/
structure PolicyContext.SameGrants (first second : PolicyContext) : Prop where
  principal : first.principal = second.principal
  isMember : first.isMember = second.isMember
  permissions : ∀ text, text ∈ first.permissions ↔ text ∈ second.permissions

section
variable {first second : PolicyContext}

theorem PolicyContext.SameGrants.holds_eq (same : first.SameGrants second) :
    holds first = holds second := by
  funext permission
  rw [holds, holds, same.principal, decide_eq_decide.mpr (same.permissions permission.text)]

theorem PolicyContext.SameGrants.decideAccess_eq (same : first.SameGrants second) :
    decideAccess first = decideAccess second := by
  funext requests
  refine List.map_congr_left fun request _ => ?_
  have held := same.holds_eq
  obtain ⟨principal, permissions, isMember⟩ := first
  obtain ⟨other, others, another⟩ := second
  obtain ⟨rfl, rfl, -⟩ := same
  rw [decideRequest, held]
  rfl

theorem PolicyContext.SameGrants.decideFilter_eq (same : first.SameGrants second) :
    decideFilter first = decideFilter second := by
  funext permission resourceType
  have held := same.holds_eq
  obtain ⟨principal, permissions, isMember⟩ := first
  obtain ⟨other, others, another⟩ := second
  obtain ⟨rfl, rfl, -⟩ := same
  rw [decideFilter, held]
  rfl

end

def checkMany (find : String → String → Option (List String)) (principal : Principal)
    (requests : List CheckRequest) : List AccessDecision :=
  decideAccess (policyContext find principal) requests

/-- The roles of a member resolve to the same permissions, once they have been read back. -/
theorem Mirrors.mem_resolvePermissions {rows : AuthorizationRows} {adapter : InMemoryAdapter}
    (mirrors : Mirrors rows adapter) {roles : List (List Char)}
    (named : ∀ role ∈ roles, isRoleName role = true) (organizationId : String)
    (permission : Permission) :
    permission ∈ resolvePermissions rows.organizationRoles organizationId
        ([','].intercalate roles) ↔
      permission ∈ (roles.flatMap (adapter.permissionsOfRole organizationId)).eraseDups := by
  rw [Authorization.mem_resolvePermissions, splitRoles_intercalate named, List.mem_eraseDups,
    List.mem_flatMap]
  constructor
  · rintro (⟨role, own, member⟩ | ⟨row, stored, here, own, custom, member⟩)
    · refine ⟨role, own, ?_⟩
      have system : isSystemRole role = true := by
        by_contra custom
        simp [systemPermissionsOf, Option.not_isSome_iff_eq_none.mp custom] at member
      rwa [InMemoryAdapter.permissionsOfRole, if_pos system]
    · refine ⟨row.role, own, ?_⟩
      rw [InMemoryAdapter.permissionsOfRole, if_neg (by simp [custom]), mirrors.customs]
      exact ⟨row, stored, here, rfl, member⟩
  · rintro ⟨role, own, member⟩
    unfold InMemoryAdapter.permissionsOfRole at member
    split_ifs at member with system
    · exact .inl ⟨role, own, member⟩
    · obtain ⟨row, stored, here, rfl, granted⟩ := (mirrors.customs _ _ _).mp member
      exact .inr ⟨row, stored, here, own, (Bool.not_eq_true _).mp system, granted⟩

theorem Mirrors.sameGrants {rows : AuthorizationRows} {adapter : InMemoryAdapter}
    (mirrors : Mirrors rows adapter) (principal : Principal) :
    (policyContext (permissionTexts rows.memberPermissions) principal).SameGrants
      (policyContext (permissionTexts adapter.memberPermissions) principal) := by
  cases principal with
  | apiKey | system => exact ⟨rfl, rfl, fun _ => Iff.rfl⟩
  | user userId organizationId membershipId =>
    have role := mirrors.members organizationId userId
    simp only [policyContext, permissionTexts, AuthorizationRows.memberPermissions,
      Authorization.memberPermissions, InMemoryAdapter.memberPermissions, role]
    cases found : adapter.roles (membershipKey organizationId userId) with
    | none => exact ⟨rfl, rfl, fun _ => Iff.rfl⟩
    | some roles =>
      refine ⟨rfl, rfl, fun text => ?_⟩
      simp only [Option.map_some, List.mem_map,
        mirrors.mem_resolvePermissions (mirrors.named _ _ found)]

/-- Both adapters give the same results for the same history. -/
theorem adapters_agree {history : List AuthorizationChange}
    (wellFormed : ∀ change ∈ history, change.WellFormed) (principal : Principal) :
    check (postgresAdapter history) principal = check (inMemoryAdapter history) principal ∧
      checkMany (postgresAdapter history) principal =
        checkMany (inMemoryAdapter history) principal ∧
      filter (postgresAdapter history) principal = filter (inMemoryAdapter history) principal := by
  have same := (mirrors_of_history wellFormed).sameGrants principal
  have decisions : decideAccess (policyContext (postgresAdapter history) principal) =
      decideAccess (policyContext (inMemoryAdapter history) principal) := same.decideAccess_eq
  refine ⟨?_, ?_, ?_⟩
  · funext permission resource
    simp only [check, decisions]
  · exact decisions
  · exact same.decideFilter_eq

/-- A member of two roles, one of them defined twice. -/
theorem adapters_agree_example :
    let organizationId := "01970b3c-5f2e-7a41-9d3b-2c6f8e1a4d70"
    let userId := "01970b3c-8a10-7c55-b7e2-90d4f3a6c581"
    let history : List AuthorizationChange :=
      [.defineCustomRole organizationId "auditor".toList [.auditLogRead],
        .setMemberRoles organizationId userId ["member".toList, "auditor".toList],
        .defineCustomRole organizationId "auditor".toList [.fileRead, .roleRead]]
    check (postgresAdapter history) (.user userId organizationId none) =
      check (inMemoryAdapter history) (.user userId organizationId none) := by
  intro organizationId userId history
  refine (adapters_agree (fun change member => ?_) _).1
  simp only [history, List.mem_cons, List.not_mem_nil, or_false] at member
  rcases member with rfl | rfl | rfl
  · exact ⟨by decide, by decide⟩
  · exact ⟨by decide, by decide, by decide⟩
  · exact ⟨by decide, by decide⟩

end NestjsFastify.Authorization
