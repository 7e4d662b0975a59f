import NestjsFastify.DomainException
import NestjsFastify.WhereClause

/-! # Access filters

An authorization engine answers for a set of resources with an access filter, and a list endpoint
folds the answer into the condition of its query.
-/
namespace NestjsFastify.Authorization

/-- What an engine can say about a set of resources. -/
inductive AccessFilter (Condition : Type) where
  | all
  | none
  | predicate (whereClause : WhereClause String Condition)
  | ids (ids : List String) (truncated : Bool)

def accessFilterTruncatedCode : String := "authorization_result_truncated"

def accessFilterTruncated : DomainException :=
  .new {
    kind := some .conflict
    code := some accessFilterTruncatedCode
    title := some "Authorization result truncated"
    permanent := some false
    violations := [{
      path := "authorization"
      code := accessFilterTruncatedCode
      message :=
        "The authorization engine could not enumerate every permitted resource for this request" }] }

/-- A short enumeration can be complete at the next try, so it is not parked. -/
theorem accessFilterTruncated_retryable : accessFilterTruncated.permanent = false := rfl

/-- How a query reads the conditions of its where clause; `idIn` is the condition `{ in: ids }`. -/
structure QueryEngine (Condition Record : Type) where
  admits : String → Condition → Record → Prop
  id : Record → String
  idIn : List String → Condition
  admits_idIn : ∀ ids record, admits "id" (idIn ids) record ↔ id record ∈ ids

section Applying
variable {Condition Record : Type} (engine : QueryEngine Condition Record)

/-- The condition of the query, or nothing when the query must not run at all. -/
def applyAccessFilter (base : WhereClause String Condition) :
    AccessFilter Condition → Except DomainException (Option (WhereClause String Condition))
  | .all => .ok (some base)
  | .none => .ok none
  | .predicate whereClause => .ok (some (base.spread whereClause))
  | .ids permitted truncated =>
    if truncated then .error accessFilterTruncated
    else if permitted.length = 0 then .ok none
    else .ok (some (base.spread (AList.singleton "id" (engine.idIn permitted))))

/-- The records that a filter permits. -/
def AccessFilter.Admits : AccessFilter Condition → Record → Prop
  | .all, _ => True
  | .none, _ => False
  | .predicate whereClause, record => whereClause.Matches engine.admits record
  | .ids permitted _, record => engine.id record ∈ permitted

/-- The clause that a filter spreads over the base. -/
def AccessFilter.clause : AccessFilter Condition → WhereClause String Condition
  | .all => ∅
  | .none => ∅
  | .predicate whereClause => whereClause
  | .ids permitted _ => AList.singleton "id" (engine.idIn permitted)

def AccessFilter.isTruncated : AccessFilter Condition → Bool
  | .ids _ truncated => truncated
  | _ => false

/-- The filter says by its form that nothing is permitted. -/
def AccessFilter.grantsNothing : AccessFilter Condition → Bool
  | .none => true
  | .ids permitted _ => permitted.isEmpty
  | _ => false

/-- Applying the filter to the base is their conjunction. -/
structure AppliesAsConjunction (base : WhereClause String Condition)
    (filter : AccessFilter Condition) : Prop where
  throws : filter.isTruncated = true →
    applyAccessFilter engine base filter = .error accessFilterTruncated
  null_iff : filter.isTruncated = false →
    (applyAccessFilter engine base filter = .ok none ↔ ∀ record, ¬ filter.Admits engine record)
  conjunction : filter.isTruncated = false → (∃ record, filter.Admits engine record) →
    ∃ whereClause, applyAccessFilter engine base filter = .ok (some whereClause) ∧
      ∀ record, whereClause.Matches engine.admits record ↔
        base.Matches engine.admits record ∧ filter.Admits engine record

/-- A filter that does not grant nothing by its form permits a record, and every condition of the
base under a key of the filter follows from the filter and the rest of the base. -/
def RestrictionsSurvive (base : WhereClause String Condition) (filter : AccessFilter Condition) :
    Prop :=
  filter.isTruncated = true ∨ filter.grantsNothing = true ∨
    (∃ record, filter.Admits engine record) ∧
      ∀ record, (base.surviving (filter.clause engine)).Matches engine.admits record →
        filter.Admits engine record →
          (base.overwritten (filter.clause engine)).Matches engine.admits record

variable {engine}

theorem matches_clause {filter : AccessFilter Condition} {record : Record}
    (grants : filter.grantsNothing = false) :
    (filter.clause engine).Matches engine.admits record ↔ filter.Admits engine record := by
  cases filter with
  | all => simp [AccessFilter.clause, AccessFilter.Admits]
  | none => simp [AccessFilter.grantsNothing] at grants
  | predicate whereClause => rfl
  | ids permitted truncated =>
    simp [AccessFilter.clause, AccessFilter.Admits, engine.admits_idIn]

theorem not_admits_of_grantsNothing {filter : AccessFilter Condition}
    (nothing : filter.grantsNothing = true) (record : Record) : ¬ filter.Admits engine record := by
  cases filter with
  | all => simp [AccessFilter.grantsNothing] at nothing
  | none => exact False.elim
  | predicate whereClause => simp [AccessFilter.grantsNothing] at nothing
  | ids permitted truncated =>
    have empty : permitted = [] := by simpa [AccessFilter.grantsNothing] using nothing
    simp [AccessFilter.Admits, empty]

theorem applyAccessFilter_truncated {base : WhereClause String Condition}
    {filter : AccessFilter Condition} (truncated : filter.isTruncated = true) :
    applyAccessFilter engine base filter = .error accessFilterTruncated := by
  cases filter with
  | all => simp [AccessFilter.isTruncated] at truncated
  | none => simp [AccessFilter.isTruncated] at truncated
  | predicate whereClause => simp [AccessFilter.isTruncated] at truncated
  | ids permitted cut => exact if_pos truncated

theorem applyAccessFilter_nothing {base : WhereClause String Condition}
    {filter : AccessFilter Condition} (complete : filter.isTruncated = false)
    (nothing : filter.grantsNothing = true) :
    applyAccessFilter engine base filter = .ok none := by
  cases filter with
  | all => simp [AccessFilter.grantsNothing] at nothing
  | none => rfl
  | predicate whereClause => simp [AccessFilter.grantsNothing] at nothing
  | ids permitted cut =>
    have whole : cut = false := complete
    have empty : permitted = [] := by simpa [AccessFilter.grantsNothing] using nothing
    simp [applyAccessFilter, whole, empty]

/-- A complete filter that grants something is spread over the base. -/
theorem applyAccessFilter_spread {base : WhereClause String Condition}
    {filter : AccessFilter Condition} (complete : filter.isTruncated = false)
    (grants : filter.grantsNothing = false) :
    applyAccessFilter engine base filter = .ok (some (base.spread (filter.clause engine))) := by
  cases filter with
  | all => simp [applyAccessFilter, AccessFilter.clause, WhereClause.spread]
  | none => simp [AccessFilter.grantsNothing] at grants
  | predicate whereClause => rfl
  | ids permitted cut =>
    have whole : cut = false := complete
    have filled : permitted ≠ [] := by simpa [AccessFilter.grantsNothing] using grants
    simp [applyAccessFilter, AccessFilter.clause, whole, filled]

/-- Applying a filter is a conjunction exactly when no restriction is lost to a shared key. -/
theorem appliesAsConjunction_iff (base : WhereClause String Condition)
    (filter : AccessFilter Condition) :
    AppliesAsConjunction engine base filter ↔ RestrictionsSurvive engine base filter := by
  cases truncated : filter.isTruncated with
  | true =>
    refine iff_of_true ⟨fun _ => applyAccessFilter_truncated truncated, ?_, ?_⟩ (.inl truncated)
    · intro complete
      simp [truncated] at complete
    · intro complete
      simp [truncated] at complete
  | false =>
    cases nothing : filter.grantsNothing with
    | true =>
      have unsatisfied : ∀ record, ¬ filter.Admits engine record :=
        not_admits_of_grantsNothing nothing
      refine iff_of_true ⟨?_, ?_, ?_⟩ (.inr (.inl nothing))
      · intro cut
        simp [truncated] at cut
      · intro _
        exact iff_of_true (applyAccessFilter_nothing truncated nothing) unsatisfied
      · rintro _ ⟨record, admitted⟩
        exact absurd admitted (unsatisfied record)
    | false =>
      have result : applyAccessFilter engine base filter =
          .ok (some (base.spread (filter.clause engine))) :=
        applyAccessFilter_spread truncated nothing
      have conjunction : (∀ record, (base.spread (filter.clause engine)).Matches engine.admits
            record ↔ base.Matches engine.admits record ∧ filter.Admits engine record) ↔
          ∀ record, (base.surviving (filter.clause engine)).Matches engine.admits record →
            filter.Admits engine record →
              (base.overwritten (filter.clause engine)).Matches engine.admits record := by
        simp only [← matches_clause nothing]
        exact WhereClause.spread_conjunction_iff
      constructor
      · intro applies
        have satisfied : ∃ record, filter.Admits engine record := by
          by_contra none
          have null := (applies.null_iff truncated).mpr (not_exists.mp none)
          simp [result] at null
        refine .inr (.inr ⟨satisfied, conjunction.mp ?_⟩)
        obtain ⟨whereClause, found, matched⟩ := applies.conjunction truncated satisfied
        rw [result] at found
        obtain rfl : _ = whereClause := by simpa using found
        exact matched
      · rintro (cut | empty | ⟨satisfied, survive⟩)
        · simp [truncated] at cut
        · simp [nothing] at empty
        · refine ⟨?_, ?_, ?_⟩
          · intro cut
            simp [truncated] at cut
          · intro _
            simp [result, satisfied]
          · intro _ _
            exact ⟨_, result, conjunction.mpr survive⟩

/-- Nothing is lost when the base and the filter agree under each key that both use. -/
theorem restrictionsSurvive_of_agree {base : WhereClause String Condition}
    {filter : AccessFilter Condition} (satisfied : ∃ record, filter.Admits engine record)
    (agree : ∀ key condition, condition ∈ base.lookup key → key ∈ filter.clause engine →
      condition ∈ (filter.clause engine).lookup key) :
    RestrictionsSurvive engine base filter := by
  cases nothing : filter.grantsNothing with
  | true => exact .inr (.inl nothing)
  | false =>
    refine .inr (.inr ⟨satisfied, ?_⟩)
    intro record _ permitted
    exact WhereClause.overwritten_of_agree agree ((matches_clause nothing).mpr permitted)

end Applying

/-- A condition on one column. -/
inductive ColumnCondition where
  | equals (value : String)
  | isIn (values : List String)
  deriving DecidableEq, Repr

/-- A NULL column meets no condition. -/
def ColumnCondition.Admits : ColumnCondition → Option String → Prop
  | .equals value, column => column = some value
  | .isIn values, column => ∃ text ∈ values, column = some text

section Columns
variable {Record : Type} (id : Record → String) (columns : Record → String → Option String)

/-- The query reads one column under each key. -/
def columnEngine : QueryEngine ColumnCondition Record where
  admits key condition record :=
    condition.Admits (if key = "id" then some (id record) else columns record key)
  id := id
  idIn := .isIn
  admits_idIn := by simp [ColumnCondition.Admits]

end Columns

/-- A record of one tenant. -/
structure TenantRecord where
  id : String
  organizationId : String

def TenantRecord.columns (record : TenantRecord) : String → Option String
  | "organizationId" => some record.organizationId
  | _ => none

def tenantEngine : QueryEngine ColumnCondition TenantRecord :=
  columnEngine TenantRecord.id TenantRecord.columns

def tenantClause (organizationId : String) : WhereClause String ColumnCondition :=
  AList.singleton "organizationId" (.equals organizationId)

theorem matches_tenantClause {organizationId : String} {record : TenantRecord} :
    (tenantClause organizationId).Matches tenantEngine.admits record ↔
      record.organizationId = organizationId := by
  simp [tenantClause, tenantEngine, columnEngine, ColumnCondition.Admits, TenantRecord.columns]

/-- A query for one tenant's records, filtered for a caller of another tenant, returns the records
of the caller's tenant. -/
theorem tenantCondition_overwritten :
    ¬ AppliesAsConjunction tenantEngine (tenantClause "B") (.predicate (tenantClause "A")) := by
  intro applies
  let record : TenantRecord := ⟨"1", "A"⟩
  have permitted : (tenantClause "A").Matches tenantEngine.admits record :=
    matches_tenantClause.mpr rfl
  obtain ⟨whereClause, result, conjunction⟩ := applies.conjunction rfl ⟨record, permitted⟩
  obtain rfl : (tenantClause "B").spread (tenantClause "A") = whereClause := by
    simpa [applyAccessFilter] using result
  have returned : ((tenantClause "B").spread (tenantClause "A")).Matches tenantEngine.admits
      record := by
    refine (WhereClause.matches_spread_of_covered ?_).mpr permitted
    simp [tenantClause, AList.mem_keys]
  have requested := matches_tenantClause.mp ((conjunction record).mp returned).1
  simp [record] at requested

end NestjsFastify.Authorization
