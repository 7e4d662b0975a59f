import Mathlib.Data.List.AList

/-! # Where clauses

A where clause is an object: under each key that it uses it has one condition, and a record matches
it when the record meets all of them.  Spreading one clause over another replaces the conditions
under the keys that both use.
-/
namespace NestjsFastify

/-- The conditions of a clause, each under its key. -/
abbrev WhereClause (Key Condition : Type) := AList (fun _ : Key => Condition)

namespace WhereClause
variable {Key Condition Record : Type} [DecidableEq Key]

/-- `{ ...base, ...overlay }` -/
def spread (base overlay : WhereClause Key Condition) : WhereClause Key Condition := overlay ∪ base

/-- The conditions under the keys that `kept` accepts. -/
def keep (kept : Key → Bool) (clause : WhereClause Key Condition) : WhereClause Key Condition where
  entries := clause.entries.filter fun entry => kept entry.1
  nodupKeys := clause.nodupKeys.sublist List.filter_sublist

/-- The conditions of `base` that `spread base overlay` keeps. -/
def surviving (base overlay : WhereClause Key Condition) : WhereClause Key Condition :=
  base.keep fun key => decide (key ∉ overlay)

/-- The conditions of `base` that `spread base overlay` loses. -/
def overwritten (base overlay : WhereClause Key Condition) : WhereClause Key Condition :=
  base.keep fun key => decide (key ∈ overlay)

theorem mem_lookup_keep (kept : Key → Bool) (clause : WhereClause Key Condition) (key : Key)
    (condition : Condition) :
    condition ∈ (clause.keep kept).lookup key ↔
      condition ∈ clause.lookup key ∧ kept key = true := by
  simp only [AList.mem_lookup_iff, keep, List.mem_filter]

section Matching
variable (admits : Key → Condition → Record → Prop)

/-- The record meets every condition of the clause. -/
def Matches (clause : WhereClause Key Condition) (record : Record) : Prop :=
  ∀ key condition, condition ∈ clause.lookup key → admits key condition record

variable {admits}

theorem matches_iff_entries {clause : WhereClause Key Condition} {record : Record} :
    clause.Matches admits record ↔ ∀ entry ∈ clause.entries, admits entry.1 entry.2 record := by
  constructor
  · intro matched entry member
    exact matched entry.1 entry.2 (AList.mem_lookup_iff.mpr member)
  · intro entries key condition found
    exact entries ⟨key, condition⟩ (AList.mem_lookup_iff.mp found)

instance (clause : WhereClause Key Condition) (record : Record)
    [∀ key condition, Decidable (admits key condition record)] :
    Decidable (clause.Matches admits record) :=
  decidable_of_iff _ matches_iff_entries.symm

@[simp] theorem matches_empty (record : Record) :
    (∅ : WhereClause Key Condition).Matches admits record := by
  intro key condition found
  simp at found

@[simp] theorem matches_singleton {key : Key} {condition : Condition} {record : Record} :
    WhereClause.Matches admits (AList.singleton key condition) record ↔
      admits key condition record := by
  simp [matches_iff_entries]

theorem matches_insert {key : Key} {condition : Condition} {clause : WhereClause Key Condition}
    {record : Record} (fresh : key ∉ clause) :
    WhereClause.Matches admits (clause.insert key condition) record ↔
      admits key condition record ∧ clause.Matches admits record := by
  rw [matches_iff_entries, AList.entries_insert_of_notMem fresh, List.forall_mem_cons,
    ← matches_iff_entries]

theorem matches_keep {kept : Key → Bool} {clause : WhereClause Key Condition} {record : Record} :
    (clause.keep kept).Matches admits record ↔
      ∀ key condition, condition ∈ clause.lookup key → kept key = true →
        admits key condition record := by
  simp only [Matches, mem_lookup_keep, and_imp]

/-- A clause is what survives beside what is overwritten. -/
theorem matches_iff_surviving_overwritten {base overlay : WhereClause Key Condition}
    {record : Record} :
    base.Matches admits record ↔
      (base.surviving overlay).Matches admits record ∧
        (base.overwritten overlay).Matches admits record := by
  simp only [surviving, overwritten, matches_keep, decide_eq_true_eq]
  constructor
  · intro matched
    exact ⟨fun key condition found _ => matched key condition found,
      fun key condition found _ => matched key condition found⟩
  · rintro ⟨survives, lost⟩ key condition found
    by_cases used : key ∈ overlay
    · exact lost key condition found used
    · exact survives key condition found used

/-- A spread is what survives of the base beside all that it is spread with. -/
theorem matches_spread {base overlay : WhereClause Key Condition} {record : Record} :
    (base.spread overlay).Matches admits record ↔
      (base.surviving overlay).Matches admits record ∧ overlay.Matches admits record := by
  simp only [surviving, matches_keep, decide_eq_true_eq]
  simp only [Matches, spread, AList.mem_lookup_union]
  constructor
  · intro matched
    exact ⟨fun key condition found unused => matched key condition (.inr ⟨unused, found⟩),
      fun key condition found => matched key condition (.inl found)⟩
  · rintro ⟨survives, added⟩ key condition (found | ⟨unused, found⟩)
    · exact added key condition found
    · exact survives key condition found unused

/-- Nothing of the base is left when the other clause uses all its keys. -/
theorem matches_spread_of_covered {base overlay : WhereClause Key Condition} {record : Record}
    (covered : ∀ key ∈ base, key ∈ overlay) :
    (base.spread overlay).Matches admits record ↔ overlay.Matches admits record := by
  rw [matches_spread]
  refine and_iff_right (matches_keep.mpr ?_)
  intro key condition found unused
  have used : key ∈ base := AList.lookup_isSome.mp (Option.isSome_of_mem found)
  simp [covered key used] at unused

/-- A spread is a conjunction exactly when what it overwrites is implied by what it is left with. -/
theorem spread_conjunction_iff {base overlay : WhereClause Key Condition} :
    (∀ record, (base.spread overlay).Matches admits record ↔
        base.Matches admits record ∧ overlay.Matches admits record) ↔
      ∀ record, (base.surviving overlay).Matches admits record → overlay.Matches admits record →
        (base.overwritten overlay).Matches admits record := by
  constructor
  · intro conjunction record survives added
    have matched := (conjunction record).mp (matches_spread.mpr ⟨survives, added⟩)
    exact (matches_iff_surviving_overwritten.mp matched.1).2
  · intro implied record
    rw [matches_spread, @matches_iff_surviving_overwritten _ _ _ _ _ base overlay]
    constructor
    · rintro ⟨survives, added⟩
      exact ⟨⟨survives, implied record survives added⟩, added⟩
    · rintro ⟨⟨survives, -⟩, added⟩
      exact ⟨survives, added⟩

/-- Clauses that agree under every key they share lose nothing. -/
theorem overwritten_of_agree {base overlay : WhereClause Key Condition} {record : Record}
    (agree : ∀ key condition, condition ∈ base.lookup key → key ∈ overlay →
      condition ∈ overlay.lookup key)
    (added : overlay.Matches admits record) :
    (base.overwritten overlay).Matches admits record := by
  simp only [overwritten, matches_keep, decide_eq_true_eq]
  intro key condition found used
  exact added key condition (agree key condition found used)

end Matching
end WhereClause
end NestjsFastify
