import Mathlib.Data.List.Nodup

/-! # Grouping by a key

Items are gathered in groups of one key each.  The groups stand in the order in which their keys
first occur, and each group keeps its items in their order.
-/
namespace KeyedGroups

/-- A group has at least the item that opened it. -/
structure ItemGroup (Item : Type*) where
  first : Item
  others : List Item
  deriving DecidableEq, Repr

variable {Item Key : Type*}

def ItemGroup.items (group : ItemGroup Item) : List Item := group.first :: group.others

def ItemGroup.push (group : ItemGroup Item) (item : Item) : ItemGroup Item :=
  { group with others := group.others ++ [item] }

@[simp] theorem ItemGroup.items_push (group : ItemGroup Item) (item : Item) :
    (group.push item).items = group.items ++ [item] := rfl

/-- Every group is filed under its own key. -/
structure Filed (key : Item → Key) (groups : List (Key × ItemGroup Item)) : Prop where
  keys : (groups.map (·.1)).Nodup
  items : ∀ entry ∈ groups, ∀ item ∈ entry.2.items, key item = entry.1

/-- The items of all groups, group by group. -/
def allItems (groups : List (Key × ItemGroup Item)) : List Item :=
  groups.flatMap fun entry => entry.2.items

theorem Filed.tail {key : Item → Key} {entry : Key × ItemGroup Item}
    {groups : List (Key × ItemGroup Item)} (filed : Filed key (entry :: groups)) :
    Filed key groups where
  keys := (List.nodup_cons.mp filed.keys).2
  items other member := filed.items other (List.mem_cons_of_mem _ member)

theorem key_of_mem_allItems {key : Item → Key} {groups : List (Key × ItemGroup Item)}
    (filed : Filed key groups) {item : Item} (member : item ∈ allItems groups) :
    key item ∈ groups.map (·.1) := by
  obtain ⟨entry, entryMem, itemMem⟩ := List.mem_flatMap.mp member
  rw [filed.items entry entryMem item itemMem]
  exact List.mem_map_of_mem entryMem

variable [DecidableEq Key] (key : Item → Key)

/-- Add the item to the group of its key, or open the group behind the others. -/
def addToGroup (item : Item) : List (Key × ItemGroup Item) → List (Key × ItemGroup Item)
  | [] => [(key item, ⟨item, []⟩)]
  | (name, group) :: groups =>
      if key item = name then (name, group.push item) :: groups
      else (name, group) :: addToGroup item groups

def groupByKey (items : List Item) : List (Key × ItemGroup Item) :=
  items.foldl (fun groups item => addToGroup key item groups) []

variable {key}

theorem mem_keys_addToGroup {item : Item} {groups : List (Key × ItemGroup Item)} {name : Key} :
    name ∈ (addToGroup key item groups).map (·.1) ↔
      name = key item ∨ name ∈ groups.map (·.1) := by
  induction groups with
  | nil => simp [addToGroup]
  | cons entry groups ih =>
    by_cases same : key item = entry.1
    · simp [addToGroup, same]
    · simp only [addToGroup, if_neg same, List.map_cons, List.mem_cons, ih]
      exact or_left_comm

theorem Filed.addToGroup {groups : List (Key × ItemGroup Item)} (filed : Filed key groups)
    (item : Item) : Filed key (addToGroup key item groups) := by
  induction groups with
  | nil =>
    exact ⟨by simp [KeyedGroups.addToGroup], by simp [KeyedGroups.addToGroup, ItemGroup.items]⟩
  | cons entry groups ih =>
    obtain ⟨name, group⟩ := entry
    obtain ⟨fresh, -⟩ := List.nodup_cons.mp filed.keys
    by_cases same : key item = name
    · refine ⟨by simpa [KeyedGroups.addToGroup, same] using filed.keys, ?_⟩
      simp only [KeyedGroups.addToGroup, if_pos same, List.forall_mem_cons]
      refine ⟨?_, filed.tail.items⟩
      intro other member
      rw [ItemGroup.items_push] at member
      rcases List.mem_append.mp member with old | new
      · exact filed.items _ List.mem_cons_self other old
      · exact List.mem_singleton.mp new ▸ same
    · have rest := ih filed.tail
      refine ⟨?_, ?_⟩
      · simp only [KeyedGroups.addToGroup, if_neg same, List.map_cons, List.nodup_cons]
        refine ⟨?_, rest.keys⟩
        rw [mem_keys_addToGroup]
        rintro (here | there)
        · exact same here.symm
        · exact fresh there
      · simp only [KeyedGroups.addToGroup, if_neg same, List.forall_mem_cons]
        exact ⟨filed.items _ List.mem_cons_self, rest.items⟩

/-- Under each key, adding an item puts it behind the items that were there. -/
theorem filter_addToGroup {groups : List (Key × ItemGroup Item)} (filed : Filed key groups)
    (item : Item) (name : Key) :
    (allItems (addToGroup key item groups)).filter (fun other => key other = name) =
      (allItems groups).filter (fun other => key other = name) ++
        [item].filter fun other => key other = name := by
  induction groups with
  | nil => simp [allItems, addToGroup, ItemGroup.items]
  | cons entry groups ih =>
    obtain ⟨here, group⟩ := entry
    by_cases same : key item = here
    · have none : key item = name →
          (allItems groups).filter (fun other => key other = name) = [] := by
        intro asked
        refine List.filter_eq_nil_iff.mpr fun other member => ?_
        have filedUnder := key_of_mem_allItems filed.tail member
        have fresh := (List.nodup_cons.mp filed.keys).1
        simp only [decide_eq_true_eq]
        rintro rfl
        exact fresh (same ▸ asked ▸ filedUnder)
      by_cases asked : key item = name
      · simp only [addToGroup, if_pos same, allItems, List.flatMap_cons, ItemGroup.items_push,
          List.filter_append]
        simp only [allItems] at none
        simp [none asked]
      · simp [addToGroup, if_pos same, allItems, asked]
    · simp only [allItems] at ih
      simp [addToGroup, if_neg same, allItems, ih filed.tail]

private theorem filed_foldl (items : List Item) {groups : List (Key × ItemGroup Item)}
    (filed : Filed key groups) :
    Filed key (items.foldl (fun groups item => addToGroup key item groups) groups) ∧
      ∀ name, (allItems (items.foldl (fun groups item => addToGroup key item groups)
          groups)).filter (fun other => key other = name) =
        (allItems groups ++ items).filter fun other => key other = name := by
  induction items generalizing groups with
  | nil => exact ⟨filed, by simp⟩
  | cons item items ih =>
    obtain ⟨after, same⟩ := ih (filed.addToGroup item)
    refine ⟨after, fun name => ?_⟩
    rw [List.foldl_cons, same, List.filter_append, filter_addToGroup filed]
    simp only [List.append_assoc, ← List.filter_append, List.singleton_append]

theorem filed_groupByKey (items : List Item) : Filed key (groupByKey key items) :=
  (filed_foldl items ⟨by simp, by simp⟩).1

/-- Grouping keeps the items of each key, in their order. -/
theorem filter_groupByKey (items : List Item) (name : Key) :
    (allItems (groupByKey key items)).filter (fun item => key item = name) =
      items.filter fun item => key item = name := by
  simpa [groupByKey, allItems] using (@filed_foldl _ _ _ key items [] ⟨by simp, by simp⟩).2 name

/-- The items under a key are those of its group. -/
theorem Filed.items_eq {groups : List (Key × ItemGroup Item)} (filed : Filed key groups)
    {entry : Key × ItemGroup Item} (member : entry ∈ groups) :
    entry.2.items = (allItems groups).filter fun item => key item = entry.1 := by
  induction groups with
  | nil => exact nomatch member
  | cons other groups ih =>
    have fresh := (List.nodup_cons.mp filed.keys).1
    rw [allItems, List.flatMap_cons, List.filter_append]
    rcases List.mem_cons.mp member with rfl | later
    · have own : entry.2.items.filter (fun item => key item = entry.1) = entry.2.items :=
        List.filter_eq_self.mpr fun item itemMem => by
          simpa using filed.items entry List.mem_cons_self item itemMem
      have rest : (allItems groups).filter (fun item => key item = entry.1) = [] := by
        refine List.filter_eq_nil_iff.mpr fun item itemMem => ?_
        simp only [decide_eq_true_eq]
        intro same
        have filedUnder := key_of_mem_allItems filed.tail itemMem
        rw [same] at filedUnder
        exact fresh filedUnder
      rw [own, ← allItems, rest, List.append_nil]
    · have foreign : other.2.items.filter (fun item => key item = entry.1) = [] := by
        refine List.filter_eq_nil_iff.mpr fun item itemMem => ?_
        simp only [decide_eq_true_eq]
        intro same
        rw [filed.items other List.mem_cons_self item itemMem] at same
        have there : entry.1 ∈ groups.map (·.1) := List.mem_map_of_mem later
        rw [← same] at there
        exact fresh there
      rw [foreign, List.nil_append, ← allItems]
      exact ih filed.tail later

/-- Lists that agree under each key have the same items. -/
theorem perm_of_filter {first second : List Item}
    (same : ∀ name, (first.filter fun item => key item = name) =
      second.filter fun item => key item = name) : first.Perm second := by
  classical
  refine List.perm_iff_count.mpr fun item => ?_
  have own : ∀ items : List Item,
      (items.filter fun other => key other = key item).count item = items.count item :=
    fun items => List.count_filter (by simp)
  rw [← own, same, own]

/-- Grouping moves the items, and keeps them all. -/
theorem perm_groupByKey (items : List Item) : (allItems (groupByKey key items)).Perm items :=
  perm_of_filter (filter_groupByKey items)

end KeyedGroups
