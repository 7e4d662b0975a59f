import Mathlib.Data.List.Basic
import Mathlib.Data.List.Nodup
import Mathlib.Data.List.Pairwise
import Mathlib.Data.List.Perm.Subperm

/-! # Tables of records

A table is the list of its rows.  Statements select rows by a predicate, as the `where` clause of
an `UPDATE` or `DELETE` does, and an insertion fails if a new row conflicts with one that is there.
-/
namespace RecordTable
variable {Record : Type*}

def updateMany (selects : Record → Bool) (change : Record → Record) (rows : List Record) :
    List Record :=
  rows.map fun row => if selects row then change row else row

def updatedCount (selects : Record → Bool) (rows : List Record) : Nat :=
  rows.countP selects

def deleteMany (selects : Record → Bool) (rows : List Record) : List Record :=
  rows.filter fun row => !selects row

/-- Insert rows one by one, all or none. -/
def insertMany (conflicts : Record → Record → Bool) : List Record → List Record →
    Option (List Record)
  | [], rows => some rows
  | row :: new, rows =>
      if rows.any (conflicts row) then none else insertMany conflicts new (rows ++ [row])

section
variable {selects : Record → Bool} {change : Record → Record}
  {conflicts : Record → Record → Bool} {rows new after : List Record} {row : Record}

theorem mem_updateMany :
    row ∈ updateMany selects change rows ↔
      ∃ old ∈ rows, (if selects old then change old else old) = row :=
  List.mem_map

theorem mem_deleteMany :
    row ∈ deleteMany selects rows ↔ row ∈ rows ∧ selects row = false := by
  simp [deleteMany]

/-- Any row that was selected shows that the update counts some row. -/
theorem updatedCount_pos_iff :
    0 < updatedCount selects rows ↔ ∃ row ∈ rows, selects row = true :=
  List.countP_pos_iff

/-- An update that counts as many rows as there are keys to be found has selected a row for each
key. -/
theorem selected_of_updatedCount {Key : Type*} {keys : List Key} (key : Record → Key)
    (unique : rows.Pairwise fun first second => key first ≠ key second)
    (among : ∀ row, selects row = true → key row ∈ keys)
    (counted : keys.length ≤ updatedCount selects rows) {wanted : Key} (member : wanted ∈ keys) :
    ∃ row ∈ rows, selects row = true ∧ key row = wanted := by
  have distinct : ((rows.filter selects).map key).Nodup :=
    List.pairwise_map.mpr (unique.sublist List.filter_sublist)
  have found : ((rows.filter selects).map key).Subperm keys :=
    List.Nodup.subperm distinct fun each eachMem => by
      obtain ⟨row, rowMem, rfl⟩ := List.mem_map.mp eachMem
      exact among row (List.mem_filter.mp rowMem).2
  have all : ((rows.filter selects).map key).Perm keys :=
    List.Subperm.perm_of_length_le found (by simpa [updatedCount, List.countP_eq_length_filter] using counted)
  obtain ⟨row, rowMem, same⟩ := List.mem_map.mp (all.mem_iff.mpr member)
  exact ⟨row, (List.mem_filter.mp rowMem).1, (List.mem_filter.mp rowMem).2, same⟩

/-- An update counts as many rows as there are keys just if it selects a row for each key. -/
theorem updatedCount_eq_length_iff {Key : Type*} {keys : List Key} (key : Record → Key)
    (unique : (rows.map key).Nodup) (distinct : keys.Nodup)
    (among : ∀ row, selects row = true → key row ∈ keys) :
    updatedCount selects rows = keys.length ↔
      ∀ wanted ∈ keys, ∃ row ∈ rows, selects row = true ∧ key row = wanted := by
  constructor
  · intro counted wanted member
    exact selected_of_updatedCount key (List.pairwise_map.mp unique) among (Nat.le_of_eq counted.symm) member
  · intro all
    have selected : ((rows.filter selects).map key).Perm keys := by
      refine (List.perm_ext_iff_of_nodup ?_ distinct).mpr fun wanted => ?_
      · exact unique.sublist (List.filter_sublist.map key)
      · simp only [List.mem_map, List.mem_filter, and_assoc]
        exact ⟨fun ⟨row, _, chosen, same⟩ => same ▸ among row chosen, all wanted⟩
    rw [← selected.length_eq, List.length_map, updatedCount, List.countP_eq_length_filter]

theorem mem_insertMany (inserted : insertMany conflicts new rows = some after) :
    row ∈ after ↔ row ∈ rows ∨ row ∈ new := by
  induction new generalizing rows with
  | nil =>
    obtain rfl : rows = after := Option.some.inj inserted
    simp
  | cons first new ih =>
    simp only [insertMany] at inserted
    split at inserted
    · simp at inserted
    · rw [ih inserted]
      simp [or_assoc]

/-- No row of the table conflicts with another one. -/
def Unique (conflicts : Record → Record → Bool) (rows : List Record) : Prop :=
  rows.Pairwise fun first second => conflicts second first = false

theorem Unique.insertMany (unique : Unique conflicts rows)
    (inserted : insertMany conflicts new rows = some after) : Unique conflicts after := by
  induction new generalizing rows with
  | nil =>
    obtain rfl : rows = after := Option.some.inj inserted
    exact unique
  | cons first new ih =>
    simp only [RecordTable.insertMany] at inserted
    split at inserted
    · simp at inserted
    · rename_i free
      refine ih ?_ inserted
      refine List.pairwise_append.mpr ⟨unique, List.pairwise_singleton _ _, ?_⟩
      simpa using free

theorem Unique.deleteMany (unique : Unique conflicts rows) :
    Unique conflicts (deleteMany selects rows) :=
  unique.sublist List.filter_sublist

theorem Unique.updateMany (unique : Unique conflicts rows)
    (keeps : ∀ first second, conflicts (if selects second then change second else second)
      (if selects first then change first else first) = conflicts second first) :
    Unique conflicts (updateMany selects change rows) := by
  refine List.pairwise_map.mpr (unique.imp fun {first second} free => ?_)
  rw [keeps, free]

theorem unique_cons : Unique conflicts (row :: rows) ↔
    (rows.any fun other => conflicts other row) = false ∧ Unique conflicts rows := by
  simp [Unique]

/-- Of rows that all conflict with one another there is at most one. -/
theorem Unique.countP_le_one {chosen : Record → Bool} (unique : Unique conflicts rows)
    (alike : ∀ first ∈ rows, ∀ second ∈ rows, chosen first = true → chosen second = true →
      conflicts second first = true) : rows.countP chosen ≤ 1 := by
  induction rows with
  | nil => exact Nat.zero_le 1
  | cons row rows ih =>
    have rest := ih (List.pairwise_cons.mp unique).2 fun first firstMem second secondMem =>
      alike first (List.mem_cons_of_mem row firstMem) second (List.mem_cons_of_mem row secondMem)
    by_cases here : chosen row = true
    · have none : rows.countP chosen = 0 := by
        refine List.countP_eq_zero.mpr fun other member chosenOther => ?_
        have free := (List.pairwise_cons.mp unique).1 other member
        rw [alike row List.mem_cons_self other (List.mem_cons_of_mem row member) here
          chosenOther] at free
        exact Bool.noConfusion free
      simp [List.countP_cons_of_pos here, none]
    · rwa [List.countP_cons_of_neg here]

/-- Rows that conflict are the same row. -/
theorem Unique.eq {first second : Record} (unique : Unique conflicts rows)
    (symmetric : ∀ first second, conflicts first second = conflicts second first)
    (firstMem : first ∈ rows) (secondMem : second ∈ rows)
    (conflict : conflicts first second = true) : first = second := by
  have : Std.Symm fun first second => conflicts second first = false :=
    ⟨fun first second free => by rwa [symmetric]⟩
  by_contra different
  have free := List.Pairwise.forall unique firstMem secondMem different
  rw [symmetric, conflict] at free
  exact Bool.noConfusion free

end

end RecordTable
