import Mathlib.Data.List.Sort

/-! # Sweeping a sorted table with a cursor

A query returns the rows behind a cursor, sorted by their keys and cut at a limit.  While the keys
are distinct the cursor cuts the sorted rows in two, and moves over the rows that were dealt with.
-/
namespace CursorSweep
variable {Row Key : Type*} [LinearOrder Key]

/-- `ORDER BY key` -/
def orderBy (key : Row → Key) (rows : List Row) : List Row :=
  rows.insertionSort fun first second => key first ≤ key second

/-- `WHERE key > cursor ORDER BY key LIMIT limit` -/
def behind (key : Row → Key) (cursor : Key) (limit : Nat) (rows : List Row) : List Row :=
  (orderBy key (rows.filter fun row => cursor < key row)).take limit

/-- The cursor is between two parts of the rows. -/
structure Marks (key : Row → Key) (cursor : Key) (before after : List Row) : Prop where
  passed : ∀ row ∈ before, key row ≤ cursor
  ahead : ∀ row ∈ after, cursor < key row

section
variable {key : Row → Key} {cursor : Key} {rows before after passed rest : List Row} {row : Row}

theorem perm_orderBy (key : Row → Key) (rows : List Row) : (orderBy key rows).Perm rows :=
  List.perm_insertionSort _ rows

theorem mem_orderBy : row ∈ orderBy key rows ↔ row ∈ rows :=
  (perm_orderBy key rows).mem_iff

theorem pairwise_orderBy (key : Row → Key) (rows : List Row) :
    (orderBy key rows).Pairwise fun first second => key first ≤ key second :=
  have : Std.Total fun first second : Row => key first ≤ key second :=
    ⟨fun first second => le_total (key first) (key second)⟩
  have : IsTrans Row fun first second => key first ≤ key second := ⟨fun _ _ _ => le_trans⟩
  List.pairwise_insertionSort _ rows

/-- Rows with distinct keys are sorted strictly. -/
theorem pairwise_lt_orderBy (distinct : (rows.map key).Nodup) :
    (orderBy key rows).Pairwise fun first second => key first < key second := by
  have nodup : ((orderBy key rows).map key).Nodup :=
    ((perm_orderBy key rows).map key).nodup_iff.mpr distinct
  exact ((pairwise_orderBy key rows).and (List.pairwise_map.mp nodup)).imp fun both =>
    lt_of_le_of_ne both.1 both.2

/-- Sorting the rows that match is keeping those among the sorted rows. -/
theorem orderBy_filter (distinct : (rows.map key).Nodup) (matching : Row → Bool) :
    orderBy key (rows.filter matching) = (orderBy key rows).filter matching := by
  have perm : (orderBy key (rows.filter matching)).Perm ((orderBy key rows).filter matching) :=
    (perm_orderBy key _).trans ((perm_orderBy key rows).symm.filter matching)
  refine perm.eq_of_pairwise (fun first second firstOwn secondOwn one two => ?_)
    (pairwise_orderBy key _) ((pairwise_orderBy key rows).filter matching)
  rw [mem_orderBy, List.mem_filter] at firstOwn
  rw [List.mem_filter, mem_orderBy] at secondOwn
  exact List.inj_on_of_nodup_map distinct firstOwn.1 secondOwn.1 (le_antisymm one two)

/-- The query returns the rows from the cursor on. -/
theorem Marks.behind_eq (marks : Marks key cursor before after)
    (distinct : (rows.map key).Nodup) (whole : orderBy key rows = before ++ after) (limit : Nat) :
    behind key cursor limit rows = after.take limit := by
  have none : before.filter (fun row => decide (cursor < key row)) = [] :=
    List.filter_eq_nil_iff.mpr fun row member => by simpa using marks.passed row member
  have all : after.filter (fun row => decide (cursor < key row)) = after :=
    List.filter_eq_self.mpr fun row member => by simpa using marks.ahead row member
  rw [behind, orderBy_filter distinct, whole, List.filter_append, none, all, List.nil_append]

/-- The cursor moves behind a row when the row has been dealt with. -/
theorem Marks.move
    (sorted : (before ++ row :: rest).Pairwise fun first second => key first < key second) :
    Marks key (key row) (before ++ [row]) rest := by
  obtain ⟨-, tail, across⟩ := List.pairwise_append.mp sorted
  obtain ⟨later, -⟩ := List.pairwise_cons.mp tail
  refine ⟨List.forall_mem_append.mpr ⟨fun other member => ?_, by simp⟩, later⟩
  exact (across other member row List.mem_cons_self).le

end

end CursorSweep
