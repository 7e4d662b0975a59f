import Mathlib.Data.List.Induction
import NestjsFastify.Json
import NestjsFastify.Permissions

/-! # Permission statements

The permissions of a role that a tenant defines are stored as a JSON object, which maps resource
types to the actions granted on them.  The text of the object is represented by its value.
-/
namespace NestjsFastify.Authorization

/-! ### Serializing -/

/-- `text.split(separator)` -/
def splitText (separator : Char) (text : String) : List String :=
  (text.toList.splitOn separator).map String.ofList

/-- The resource type and the action of a permission, both not empty. -/
def statementOf (permission : Permission) : Option (String × String) :=
  match splitText ':' permission.text with
  | resource :: action :: _ => if resource = "" ∨ action = "" then none else some (resource, action)
  | _ => none

/-- Objects whose values are lists of actions, with their members in order of insertion. -/
abbrev GroupedPermissions : Type := List (String × List String)

/-- `(grouped[resource] ??= []).push(action)` -/
def pushAction (resource action : String) : GroupedPermissions → GroupedPermissions
  | [] => [(resource, [action])]
  | (other, actions) :: grouped =>
      if other = resource then (other, actions ++ [action]) :: grouped
      else (other, actions) :: pushAction resource action grouped

def groupPermissionsByResource (permissions : List Permission) : GroupedPermissions :=
  permissions.foldl (fun grouped permission =>
    match statementOf permission with
    | some (resource, action) => pushAction resource action grouped
    | none => grouped) []

def serializePermissionStatements (permissions : List Permission) : Json :=
  .object ((groupPermissionsByResource permissions).map fun (resource, actions) =>
    (resource, .array (actions.map .string)))

/-! ### Parsing -/

structure ParsedPermissionStatements where
  granted : List Permission
  unknown : List String
  deriving DecidableEq, Repr

/-- The permission of the catalogue with this text. -/
def permissionOf (candidate : String) : Option Permission :=
  allPermissions.find? fun permission => permission.text = candidate

/-- `Object.entries`; the members of an array are named by their positions. -/
def objectEntries : Json → List (String × Json)
  | .object members => members
  | .array items => items.zipIdx.map fun (item, position) => (toString position, item)
  | _ => []

/-- The texts that an entry declares; actions that are no strings are passed over. -/
def candidatesOf (entry : String × Json) : List String :=
  match entry.2 with
  | .array items => items.filterMap fun action => action.string?.map (entry.1 ++ ":" ++ ·)
  | _ => []

def parsePermissionStatements (parsed : Json) : ParsedPermissionStatements where
  granted := ((objectEntries parsed).flatMap candidatesOf).filterMap permissionOf
  unknown := ((objectEntries parsed).flatMap candidatesOf).filter fun candidate =>
    (permissionOf candidate).isNone

/-! ### What is stored is what is granted -/

theorem permissionOf_text (permission : Permission) : permissionOf permission.text = some permission := by
  have found : (permissionOf permission.text).isSome := by
    rw [permissionOf, List.find?_isSome]
    exact ⟨permission, mem_allPermissions permission, decide_eq_true rfl⟩
  obtain ⟨other, here⟩ := Option.isSome_iff_exists.mp found
  have same : other.text = permission.text := by simpa using List.find?_some here
  rw [here, Permission.text_injective same]

private theorem statementOf_map (permission : Permission) :
    (statementOf permission).map (fun (resource, action) => resource ++ ":" ++ action) =
      some permission.text := by
  cases permission <;> decide

/-- A permission is made of its resource type and its action. -/
theorem statementOf_text (permission : Permission) : ∃ resource action,
    statementOf permission = some (resource, action) ∧ resource ++ ":" ++ action = permission.text := by
  obtain ⟨⟨resource, action⟩, found, same⟩ := Option.map_eq_some_iff.mp (statementOf_map permission)
  exact ⟨resource, action, found, same⟩

/-- The candidates of grouped permissions. -/
def candidatesOfGrouped (grouped : GroupedPermissions) : List String :=
  grouped.flatMap fun (resource, actions) => actions.map (resource ++ ":" ++ ·)

theorem candidates_pushAction (resource action : String) (grouped : GroupedPermissions) :
    (candidatesOfGrouped (pushAction resource action grouped)).Perm
      (candidatesOfGrouped grouped ++ [resource ++ ":" ++ action]) := by
  induction grouped with
  | nil => simp [candidatesOfGrouped, pushAction]
  | cons entry grouped ih =>
    obtain ⟨other, actions⟩ := entry
    simp only [candidatesOfGrouped, pushAction, List.flatMap_cons] at ih ⊢
    split_ifs with same
    · subst same
      rw [List.flatMap_cons, List.map_append, List.append_assoc, List.append_assoc]
      exact List.Perm.append_left _ List.perm_append_comm
    · rw [List.flatMap_cons, List.append_assoc]
      exact List.Perm.append_left _ ih

theorem candidates_groupPermissionsByResource (permissions : List Permission) :
    (candidatesOfGrouped (groupPermissionsByResource permissions)).Perm
      (permissions.map Permission.text) := by
  induction permissions using List.reverseRecOn with
  | nil => exact List.Perm.nil
  | append_singleton permissions permission ih =>
    obtain ⟨resource, action, found, same⟩ := statementOf_text permission
    have pushed : groupPermissionsByResource (permissions ++ [permission]) =
        pushAction resource action (groupPermissionsByResource permissions) := by
      simp only [groupPermissionsByResource, List.foldl_append, List.foldl_cons, List.foldl_nil, found]
    rw [pushed, List.map_append, List.map_singleton, ← same]
    exact (candidates_pushAction _ _ _).trans (ih.append_right _)

theorem candidates_serialize (permissions : List Permission) :
    (objectEntries (serializePermissionStatements permissions)).flatMap candidatesOf =
      candidatesOfGrouped (groupPermissionsByResource permissions) := by
  simp only [serializePermissionStatements, objectEntries, candidatesOfGrouped, List.flatMap_map,
    candidatesOf, List.filterMap_map]
  refine List.flatMap_congr fun entry _ => ?_
  exact congrFun (List.filterMap_eq_map (f := fun action => entry.1 ++ ":" ++ action)) entry.2

/-- Parsing grants the permissions that were serialized, each as often. -/
theorem granted_serialize (permissions : List Permission) :
    (parsePermissionStatements (serializePermissionStatements permissions)).granted.Perm
      permissions := by
  have read : (permissions.map Permission.text).filterMap permissionOf = permissions := by
    rw [List.filterMap_map]
    exact (List.filterMap_congr fun permission _ => permissionOf_text permission).trans
      List.filterMap_some
  have perm := (candidates_groupPermissionsByResource permissions).filterMap permissionOf
  rw [read] at perm
  rw [parsePermissionStatements, candidates_serialize]
  exact perm

/-! ### Any object that is stored -/

/-- All that an object declares, in the order in which it is parsed. -/
def candidates (parsed : Json) : List String := (objectEntries parsed).flatMap candidatesOf

/-- A string in a list of actions is declared under the name of the list. -/
theorem mem_candidates {parsed : Json} {resource action : String} {items : List Json}
    (entry : (resource, .array items) ∈ objectEntries parsed) (declared : .string action ∈ items) :
    resource ++ ":" ++ action ∈ candidates parsed :=
  List.mem_flatMap.mpr ⟨_, entry, List.mem_filterMap.mpr ⟨_, declared, rfl⟩⟩

theorem text_of_permissionOf {candidate : String} {permission : Permission}
    (found : permissionOf candidate = some permission) : permission.text = candidate := by
  simpa using List.find?_some found

/-- What a text stands for is granted, and what stands for nothing is reported. -/
theorem perm_candidates (parsed : Json) :
    ((parsePermissionStatements parsed).granted.map Permission.text ++
      (parsePermissionStatements parsed).unknown).Perm (candidates parsed) := by
  have split : ∀ texts : List String, ((texts.filterMap permissionOf).map Permission.text ++
      texts.filter fun candidate => (permissionOf candidate).isNone).Perm texts := by
    intro texts
    induction texts with
    | nil => exact List.Perm.nil
    | cons candidate texts ih =>
      cases found : permissionOf candidate with
      | none =>
        rw [List.filterMap_cons_none found, List.filter_cons_of_pos (by rw [found]; rfl)]
        exact List.perm_middle.trans (ih.cons candidate)
      | some permission =>
        rw [List.filterMap_cons_some found, List.filter_cons_of_neg (by rw [found]; simp),
          List.map_cons, text_of_permissionOf found]
        exact ih.cons candidate
  exact split _

private theorem colons (permission : Permission) : permission.text.toList.count ':' = 1 := by
  cases permission <;> decide

/-- A text can be divided in one way into the resource type and the action of a permission. -/
theorem statementOf_of_text {resource action : String} {permission : Permission}
    (same : resource ++ ":" ++ action = permission.text) :
    statementOf permission = some (resource, action) := by
  have parted : ∀ {first second : String}, first ++ ":" ++ second = permission.text →
      permission.text.toList = first.toList ++ ':' :: second.toList ∧
        first.toList = permission.text.toList.takeWhile (· ≠ ':') := by
    intro first second whole
    have joined : permission.text.toList = first.toList ++ ':' :: second.toList := by
      rw [← whole]
      simp
    have single := colons permission
    rw [joined, List.count_append, List.count_cons_self] at single
    have clear : ∀ character ∈ first.toList, character ≠ ':' := by
      rintro character member rfl
      exact absurd (List.count_pos_iff.mpr member) (by omega)
    refine ⟨joined, ?_⟩
    rw [joined, List.takeWhile_append_of_pos (by simpa using clear)]
    simp
  obtain ⟨own, ownAction, found, whole⟩ := statementOf_text permission
  obtain ⟨joined, taken⟩ := parted same
  obtain ⟨ownJoined, ownTaken⟩ := parted whole
  have sameResource : own.toList = resource.toList := ownTaken.trans taken.symm
  rw [joined, sameResource, List.append_cancel_left_eq] at ownJoined
  have sameAction : action.toList = ownAction.toList := (List.cons.inj ownJoined).2
  rw [found, String.toList_inj.mp sameResource, String.toList_inj.mp sameAction]

/-- What is granted was declared as an action of its own resource type. -/
theorem declared_of_granted {parsed : Json} {permission : Permission}
    (granted : permission ∈ (parsePermissionStatements parsed).granted) :
    ∃ resource action items, statementOf permission = some (resource, action) ∧
      (resource, .array items) ∈ objectEntries parsed ∧ .string action ∈ items := by
  obtain ⟨candidate, declared, found⟩ := List.mem_filterMap.mp granted
  obtain ⟨⟨resource, value⟩, entry, own⟩ := List.mem_flatMap.mp declared
  cases value with
  | array items =>
    obtain ⟨item, member, read⟩ := List.mem_filterMap.mp own
    cases item with
    | string action =>
      have same := Option.some.inj read
      exact ⟨resource, action, items,
        statementOf_of_text (same.trans (text_of_permissionOf found).symm), entry, member⟩
    | _ => simp [Json.string?] at read
  | _ => simp [candidatesOf] at own

theorem unknown_serialize (permissions : List Permission) :
    (parsePermissionStatements (serializePermissionStatements permissions)).unknown = [] := by
  rw [parsePermissionStatements, candidates_serialize]
  refine List.filter_eq_nil_iff.mpr fun candidate member => ?_
  obtain ⟨permission, -, rfl⟩ := List.mem_map.mp
    ((candidates_groupPermissionsByResource permissions).mem_iff.mp member)
  simp [permissionOf_text]

/-- The two directions of the format, for every list that is written and every value that is read. -/
theorem permissionStatements_roundTrip :
    (∀ permissions, (parsePermissionStatements (serializePermissionStatements
        permissions)).granted.Perm permissions ∧
      (parsePermissionStatements (serializePermissionStatements permissions)).unknown = []) ∧
    ∀ stored : Json, ∃ granted unknown, parsePermissionStatements stored = ⟨granted, unknown⟩ ∧
      (∀ permission ∈ granted, permission ∈ allPermissions) ∧
      (granted.map Permission.text ++ unknown).Perm (candidates stored) ∧
      (∀ resource items action, (resource, .array items) ∈ objectEntries stored →
        .string action ∈ items → (∃ permission ∈ granted,
          permission.text = resource ++ ":" ++ action) ∨ resource ++ ":" ++ action ∈ unknown) ∧
      (∀ candidate ∈ unknown, ∀ permission ∈ allPermissions, permission.text ≠ candidate) ∧
      (parsePermissionStatements (serializePermissionStatements granted)).granted.Perm granted := by
  refine ⟨fun permissions => ⟨granted_serialize permissions, unknown_serialize permissions⟩,
    fun stored => ⟨_, _, rfl, fun permission _ => mem_allPermissions permission,
      perm_candidates stored, ?_, ?_, granted_serialize _⟩⟩
  · intro resource items action entry declared
    have member := (perm_candidates stored).mem_iff.mpr (mem_candidates entry declared)
    rcases List.mem_append.mp member with granted | unknown
    · exact .inl (List.mem_map.mp granted)
    · exact .inr unknown
  · rintro candidate reported permission - rfl
    have missing := (List.mem_filter.mp reported).2
    simp [permissionOf_text] at missing

end NestjsFastify.Authorization
