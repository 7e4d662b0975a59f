import Mathlib.Data.List.Perm.Subperm
import NestjsFastify.OutboxRuns

/-! # Claims of outbox rows

A claim of a row is named by the row and the number of the attempt.  Every claim is newer than the
ones before it, and is handed to the bus at most once, whichever relays stop and wherever.
-/
namespace NestjsFastify.Outbox
open WorkerPool (Pool Worker)
open RecordTable

variable {platform : Platform} {config : RelayConfig} {purge : PurgeConfig}
  {world after : RelayWorld}

/-- A claim of a row: the row and the number of the attempt. -/
def ClaimedRow.key (row : ClaimedRow) : String × Nat := (row.id, row.attempts)

/-- The entry of the log with which a row is handed to the bus. -/
def isHanded (entry : ClaimedRow × DispatchPhase) : Bool := entry.2 matches .publishing _

/-- What is known of a claim: its attempt is within the bound, and the row has had it. -/
structure Bounded (config : RelayConfig) (world : RelayWorld) (row : ClaimedRow) : Prop where
  issued : row.id ∈ world.issued
  positive : 1 ≤ row.attempts
  bound : row.attempts ≤ config.maxAttempts
  latest : ∀ other ∈ world.rows, other.id = row.id → row.attempts ≤ other.attempts

theorem Bounded.step {row : ClaimedRow} (bounded : Bounded config world row)
    (evolves : Evolves config world after) : Bounded config after row where
  issued := evolves.issued bounded.issued
  positive := bounded.positive
  bound := bounded.bound
  latest := by
    intro other member same
    obtain ⟨old, oldMem, revision⟩ := evolves.revised other member (same ▸ bounded.issued)
    exact Nat.le_trans (bounded.latest old oldMem (revision.id ▸ same)) revision.attempts

/-- Every claim is dispatched once: the claims that a relay has yet to dispatch are distinct, other
than those of every other relay, and not in the log. -/
structure Accounted (config : RelayConfig) (world : RelayWorld) : Prop where
  logged : ∀ entry ∈ world.log, Bounded config world entry.1
  pending : ∀ relay pool, world.relays relay = some pool → ∀ row ∈ pool.remaining,
    Bounded config world row
  distinct : ∀ relay pool, world.relays relay = some pool →
    (pool.remaining.map ClaimedRow.key).Nodup
  fresh : ∀ relay pool, world.relays relay = some pool → ∀ row ∈ pool.remaining,
    ∀ entry ∈ world.log, entry.1.key ≠ row.key
  apart : ∀ relay other pool pool', relay ≠ other → world.relays relay = some pool →
    world.relays other = some pool' → ∀ row ∈ pool.remaining, ∀ row' ∈ pool'.remaining,
      row.key ≠ row'.key
  entered : ∀ relay pool, world.relays relay = some pool → ∀ row phase rest,
    .busy row phase rest ∈ pool.workers → (row, phase) ∈ world.log
  handedOnce : ((world.log.filter isHanded).map fun entry => entry.1.key).Nodup

/-- Steps of the table, and the end of a dispatch. -/
private theorem Accounted.of_log (accounted : Accounted config world)
    (evolves : Evolves config world after) (log : after.log = world.log)
    (relays : ∀ relay pool, after.relays relay = some pool → world.relays relay = some pool) :
    Accounted config after where
  logged := by
    rw [log]
    exact fun entry member => (accounted.logged entry member).step evolves
  pending relay pool dispatching row member :=
    (accounted.pending relay pool (relays relay pool dispatching) row member).step evolves
  distinct relay pool dispatching := accounted.distinct relay pool (relays relay pool dispatching)
  fresh := by
    rw [log]
    exact fun relay pool dispatching => accounted.fresh relay pool (relays relay pool dispatching)
  apart relay other pool pool' different dispatching dispatching' :=
    accounted.apart relay other pool pool' different (relays relay pool dispatching)
      (relays other pool' dispatching')
  entered := by
    rw [log]
    exact fun relay pool dispatching =>
      accounted.entered relay pool (relays relay pool dispatching)
  handedOnce := log ▸ accounted.handedOnce

/-- A row that a claim returns: its row in the table has had one attempt more. -/
theorem claimed_of_select (kept : WellKept config world) {ids : List String}
    (selected : ∀ id ∈ ids, (world.row? id).any (claimable config world.now) = true)
    {row : ClaimedRow}
    (member : row ∈ ({ world with
      rows := updateMany (·.id ∈ ids) (claim config world.now) world.rows }.select ids).map
        OutboxRow.claimed) :
    ∃ old ∈ world.rows, old.id = row.id ∧ row = (claim config world.now old).claimed ∧
      old.attempts < config.maxAttempts := by
  obtain ⟨updated, updatedMem, rfl⟩ := List.mem_map.mp member
  obtain ⟨id, chosen, found⟩ := List.mem_filterMap.mp updatedMem
  have same : updated.id = id := by simpa using List.find?_some found
  obtain ⟨old, oldMem, here⟩ := mem_updateMany.mp (List.mem_of_find?_eq_some found)
  have oldId : old.id = updated.id := by
    rw [← here]
    split <;> rfl
  have oldChosen : old.id ∈ ids := (oldId.trans same) ▸ chosen
  rw [if_pos (by simpa using oldChosen)] at here
  have claimed := kept.selected selected oldMem oldChosen
  simp only [claimable, Bool.and_eq_true, decide_eq_true_eq] at claimed
  exact ⟨old, oldMem, oldId, by rw [here], claimed.1.2⟩

/-- The rows of a claim are distinct. -/
theorem nodup_select {ids : List String} (distinct : ids.Nodup) :
    ((world.select ids).map fun row => row.claimed.key).Nodup := by
  have sublist : ((world.select ids).map OutboxRow.id).Sublist ids := by
    unfold RelayWorld.select
    clear distinct
    induction ids with
    | nil => simp
    | cons id ids ih =>
      cases found : world.row? id with
      | none =>
        rw [List.filterMap_cons_none found]
        exact ih.cons _
      | some row =>
        have same : row.id = id := by simpa using List.find?_some found
        rw [List.filterMap_cons_some found, List.map_cons, same]
        exact ih.cons_cons _
  refine List.Nodup.of_map Prod.fst ?_
  rw [List.map_map]
  exact distinct.sublist sublist

/-- The claims of a batch are newer than every claim known before. -/
private theorem key_ne_of_claim {old : OutboxRow} (oldMem : old ∈ world.rows) {row : ClaimedRow}
    (bounded : Bounded config world row) :
    row.key ≠ (claim config world.now old).claimed.key := by
  intro same
  obtain ⟨sameId, sameAttempt⟩ := Prod.mk.inj same
  have latest := bounded.latest old oldMem sameId.symm
  simp only [OutboxRow.claimed, claim] at sameAttempt
  omega

private theorem accounted_claim (kept : WellKept config world)
    (accounted : Accounted config world) {relay : Nat} {ids : List String}
    {rows : List OutboxRow} {batch : List ClaimedRow} (distinct : ids.Nodup)
    (selected : ∀ id ∈ ids, (world.row? id).any (claimable config world.now) = true)
    (updated : rows = updateMany (·.id ∈ ids) (claim config world.now) world.rows)
    (returned : batch = ({ world with rows }.select ids).map OutboxRow.claimed)
    {relays : Nat → Option (Pool ClaimedRow DispatchPhase)}
    (begun : relays = Function.update world.relays relay
      (some (.start (aggregateGroups batch) (workerCount config batch))))
    (evolves : Evolves config world { world with rows, relays })
    (keptAfter : WellKept config { world with rows, relays }) :
    Accounted config { world with rows, relays } := by
  have batchRow : ∀ row ∈ batch, ∃ old ∈ world.rows, old.id = row.id ∧
      row = (claim config world.now old).claimed ∧ old.attempts < config.maxAttempts := by
    subst updated returned
    exact fun row member => claimed_of_select kept selected member
  have batchNodup : (batch.map ClaimedRow.key).Nodup := by
    subst returned
    rw [List.map_map]
    exact nodup_select distinct
  have newer : ∀ claimed, Bounded config world claimed → ∀ row ∈ batch,
      claimed.key ≠ row.key := by
    intro claimed bounded row member
    obtain ⟨old, oldMem, -, rfl, -⟩ := batchRow row member
    exact key_ne_of_claim oldMem bounded
  have batchBounded : ∀ row ∈ batch, Bounded config { world with rows, relays } row := by
    intro row member
    obtain ⟨old, oldMem, oldId, same, below⟩ := batchRow row member
    have chosen : row ∈ ({ world with rows }.select ids).map OutboxRow.claimed := returned ▸ member
    obtain ⟨present, presentMem, rfl⟩ := List.mem_map.mp chosen
    obtain ⟨id, -, found⟩ := List.mem_filterMap.mp presentMem
    have inTable : present ∈ rows := List.mem_of_find?_eq_some found
    have attempts : present.claimed.attempts = old.attempts + 1 := by rw [same]; rfl
    refine ⟨oldId ▸ kept.issued old oldMem, by omega, by omega, ?_⟩
    intro other otherMem sameId
    rw [keptAfter.row_eq otherMem inTable sameId]
    exact Nat.le_refl _
  -- every relay has what it had, or begins with the batch
  have pools : ∀ other pool, relays other = some pool →
      (other = relay ∧ pool = .start (aggregateGroups batch) (workerCount config batch)) ∨
        (other ≠ relay ∧ world.relays other = some pool) := by
    intro other pool dispatching
    rw [begun] at dispatching
    by_cases here : other = relay
    · subst here
      rw [Function.update_self] at dispatching
      exact .inl ⟨rfl, (Option.some.inj dispatching).symm⟩
    · rw [Function.update_of_ne here] at dispatching
      exact .inr ⟨here, dispatching⟩
  have batchMem : ∀ row, row ∈ (Pool.start (aggregateGroups batch) (workerCount config batch) :
      Pool ClaimedRow DispatchPhase).remaining → row ∈ batch :=
    fun row => (remaining_start batch _).mem_iff.mp
  constructor
  · exact fun entry member => (accounted.logged entry member).step evolves
  · intro other pool dispatching row member
    rcases pools other pool dispatching with ⟨-, rfl⟩ | ⟨-, before⟩
    · exact batchBounded row (batchMem row member)
    · exact (accounted.pending other pool before row member).step evolves
  · intro other pool dispatching
    rcases pools other pool dispatching with ⟨-, rfl⟩ | ⟨-, before⟩
    · exact ((remaining_start batch _).map _).nodup_iff.mpr batchNodup
    · exact accounted.distinct other pool before
  · intro other pool dispatching row member entry logged
    rcases pools other pool dispatching with ⟨-, rfl⟩ | ⟨-, before⟩
    · exact newer _ (accounted.logged entry logged) row (batchMem row member)
    · exact accounted.fresh other pool before row member entry logged
  · intro first second pool pool' different dispatching dispatching' row member row' member'
    rcases pools first pool dispatching with ⟨here, rfl⟩ | ⟨there, before⟩ <;>
      rcases pools second pool' dispatching' with ⟨here', rfl⟩ | ⟨there', before'⟩
    · exact absurd (here.trans here'.symm) different
    · exact (newer _ (accounted.pending second pool' before' row' member') row
        (batchMem row member)).symm
    · exact newer _ (accounted.pending first pool before row member) row' (batchMem row' member')
    · exact accounted.apart first second pool pool' different before before' row member row'
        member'
  · intro other pool dispatching row phase rest busy
    rcases pools other pool dispatching with ⟨-, rfl⟩ | ⟨-, before⟩
    · simp [Pool.start] at busy
    · exact accounted.entered other pool before row phase rest busy
  · exact accounted.handedOnce

/-- A phase that follows another one does not hand the row over again. -/
theorem resumeDispatch_not_handed {phase next : DispatchPhase} {outcome : DispatchOutcome}
    (resumed : resumeDispatch phase outcome = some (some next)) (row : ClaimedRow) :
    isHanded (row, next) = false := by
  rcases resumeDispatch_cases resumed with ⟨_, later, _, same, silent⟩ | ⟨-, never⟩
  · obtain rfl := Option.some.inj same
    cases next with
    | publishing event => exact absurd rfl (silent event)
    | marking | parking | recording => rfl
  · exact nomatch never

/-- What a worker enters in the log is a row that it had there already, now in another phase, or
a row that is no longer to be dispatched. -/
theorem entered_cases (accounted : Accounted config world) {relay worker : Nat}
    {outcome : DispatchOutcome} {pool next : Pool ClaimedRow DispatchPhase}
    (dispatching : world.relays relay = some pool)
    (advanced : pool.Advanced (dispatchTask platform) worker outcome next) :
    (∃ row phase, entered next worker = [(row, phase)] ∧ isHanded (row, phase) = false ∧
        (∃ earlier, (row, earlier) ∈ world.log) ∧ next.remaining = pool.remaining) ∨
      (∃ row, entered next worker = [(row, dispatchOne platform row)] ∧
        (row :: next.remaining).Perm pool.remaining) ∨
      entered next worker = [] ∧ next.remaining = pool.remaining := by
  rcases advanced.cases with ⟨row, phase, later, rest, was, resumed, now, same⟩ |
    ⟨row, rest, now, perm⟩ | ⟨now, same⟩
  · refine .inl ⟨row, later, by simp [entered, now], resumeDispatch_not_handed resumed row,
      ⟨phase, ?_⟩, same⟩
    exact accounted.entered relay pool dispatching row phase rest (List.mem_of_getElem? was)
  · exact .inr (.inl ⟨row, by simp [entered, now, dispatchTask], perm⟩)
  · exact .inr (.inr ⟨by simp [entered, now], same⟩)

private theorem accounted_advance (accounted : Accounted config world) {relay worker : Nat}
    {outcome : DispatchOutcome} {pool next : Pool ClaimedRow DispatchPhase}
    (dispatching : world.relays relay = some pool)
    (advanced : pool.Advanced (dispatchTask platform) worker outcome next)
    {rows : List OutboxRow} {relays : Nat → Option (Pool ClaimedRow DispatchPhase)}
    {log : List (ClaimedRow × DispatchPhase)}
    (moved : relays = Function.update world.relays relay (some next))
    (logged : log = world.log ++ entered next worker)
    (evolves : Evolves config world { world with rows, relays, log }) :
    Accounted config { world with rows, relays, log } := by
  have cases := entered_cases accounted dispatching advanced
  have remaining : ∀ row ∈ next.remaining, row ∈ pool.remaining := by
    rcases cases with ⟨-, -, -, -, -, same⟩ | ⟨row, -, perm⟩ | ⟨-, same⟩
    · exact same ▸ fun row member => member
    · exact fun other member => perm.subset (List.mem_cons_of_mem _ member)
    · exact same ▸ fun row member => member
  -- the rows that other relays, and this one, have yet to dispatch
  have pools : ∀ other pool', relays other = some pool' →
      ∃ before, world.relays other = some before ∧ (other = relay → before = pool ∧ pool' = next) ∧
        (other ≠ relay → pool' = before) ∧ ∀ row ∈ pool'.remaining, row ∈ before.remaining := by
    intro other pool' there
    rw [moved] at there
    by_cases here : other = relay
    · subst here
      rw [Function.update_self] at there
      obtain rfl := Option.some.inj there
      exact ⟨pool, dispatching, fun _ => ⟨rfl, rfl⟩, fun different => absurd rfl different,
        remaining⟩
    · rw [Function.update_of_ne here] at there
      exact ⟨pool', there, fun same => absurd same here, fun _ => rfl, fun _ member => member⟩
  have newBounded : ∀ entry ∈ entered next worker, Bounded config world entry.1 := by
    rcases cases with ⟨row, phase, news, -, ⟨earlier, known⟩, -⟩ | ⟨row, news, perm⟩ | ⟨news, -⟩
    · simpa [news] using accounted.logged _ known
    · simpa [news] using accounted.pending relay pool dispatching row
        (perm.subset List.mem_cons_self)
    · simp [news]
  have newFresh : ∀ entry ∈ entered next worker, ∀ other pool', relays other = some pool' →
      ∀ row ∈ pool'.remaining, entry.1.key ≠ row.key := by
    intro entry member other pool' there row rowMem
    obtain ⟨before, was, here, elsewhere, subset⟩ := pools other pool' there
    rcases cases with ⟨started, phase, news, -, ⟨earlier, known⟩, -⟩ | ⟨started, news, perm⟩ |
      ⟨news, -⟩
    · obtain rfl : entry = (started, phase) := by simpa [news] using member
      exact accounted.fresh other before was row (subset row rowMem) (started, earlier) known
    · obtain rfl : entry = (started, dispatchOne platform started) := by simpa [news] using member
      by_cases same : other = relay
      · obtain ⟨rfl, rfl⟩ := here same
        have nodup := (perm.map ClaimedRow.key).nodup_iff.mpr
          (accounted.distinct relay before dispatching)
        rw [List.map_cons, List.nodup_cons] at nodup
        exact fun sameKey => nodup.1 (List.mem_map.mpr ⟨row, rowMem, sameKey.symm⟩)
      · exact accounted.apart relay other pool before (Ne.symm same) dispatching was started
          (perm.subset List.mem_cons_self) row (subset row rowMem)
    · simp [news] at member
  have oldOrNew : ∀ entry ∈ log, entry ∈ world.log ∨ entry ∈ entered next worker := by
    intro entry member
    exact List.mem_append.mp (logged ▸ member)
  constructor
  · intro entry member
    rcases oldOrNew entry member with old | new
    · exact (accounted.logged entry old).step evolves
    · exact (newBounded entry new).step evolves
  · intro other pool' there row rowMem
    obtain ⟨before, was, -, -, subset⟩ := pools other pool' there
    exact (accounted.pending other before was row (subset row rowMem)).step evolves
  · intro other pool' there
    obtain ⟨before, was, here, elsewhere, -⟩ := pools other pool' there
    by_cases same : other = relay
    · obtain ⟨rfl, rfl⟩ := here same
      have nodup := accounted.distinct other before was
      rcases cases with ⟨-, -, -, -, -, same⟩ | ⟨row, -, perm⟩ | ⟨-, same⟩
      · exact same ▸ nodup
      · exact (List.nodup_cons.mp ((perm.map ClaimedRow.key).nodup_iff.mpr nodup)).2
      · exact same ▸ nodup
    · exact elsewhere same ▸ accounted.distinct other before was
  · intro other pool' there row rowMem entry member
    rcases oldOrNew entry member with old | new
    · obtain ⟨before, was, -, -, subset⟩ := pools other pool' there
      exact accounted.fresh other before was row (subset row rowMem) entry old
    · exact newFresh entry new other pool' there row rowMem
  · intro first second pool₁ pool₂ different there₁ there₂ row rowMem row' rowMem'
    obtain ⟨before₁, was₁, -, -, subset₁⟩ := pools first pool₁ there₁
    obtain ⟨before₂, was₂, -, -, subset₂⟩ := pools second pool₂ there₂
    exact accounted.apart first second before₁ before₂ different was₁ was₂ row
      (subset₁ row rowMem) row' (subset₂ row' rowMem')
  · intro other pool' there row phase rest busy
    obtain ⟨before, was, here, elsewhere, -⟩ := pools other pool' there
    simp only [logged]
    by_cases same : other = relay
    · obtain ⟨rfl, rfl⟩ := here same
      rcases advanced.workers busy with old | now
      · exact List.mem_append_left _ (accounted.entered other before was row phase rest old)
      · exact List.mem_append_right _ (by simp [entered, now])
    · obtain rfl := elsewhere same
      exact List.mem_append_left _ (accounted.entered other pool' was row phase rest busy)
  · simp only [logged, List.filter_append, List.map_append]
    rcases cases with ⟨row, phase, news, notHanded, -, -⟩ | ⟨row, news, perm⟩ | ⟨news, -⟩
    · simpa [news, notHanded] using accounted.handedOnce
    · have unknown : ∀ entry ∈ world.log, entry.1.key ≠ row.key :=
        fun entry member => accounted.fresh relay pool dispatching row
          (perm.subset List.mem_cons_self) entry member
      refine List.nodup_append.mpr ⟨accounted.handedOnce, ?_, ?_⟩
      · rw [news]
        cases handed : isHanded (row, dispatchOne platform row) <;> simp [handed]
      · intro key oldMem key' newMem same
        obtain ⟨entry, entryMem, rfl⟩ := List.mem_map.mp oldMem
        obtain ⟨entry', entryMem', rfl⟩ := List.mem_map.mp newMem
        have here : entry' = (row, dispatchOne platform row) := by
          simpa [news] using (List.mem_filter.mp entryMem').1
        exact unknown entry (List.mem_filter.mp entryMem).1 (by rw [same, here])
    · simpa [news] using accounted.handedOnce

theorem accounted_of_run {history : List (RelayWorld × RelayAction)}
    (run : (outboxSystem platform config purge).Run history world) : Accounted config world := by
  induction run with
  | start initial =>
    obtain ⟨rows, issued, relays, log⟩ := initial
    constructor <;> simp [relays, log]
  | step run taken ih =>
    have kept := wellKept_of_run run
    obtain ⟨evolves, keptAfter⟩ := evolves_of_step kept (relayStep_of_step taken)
    cases relayStep_of_step taken with
    | insert => exact ih.of_log evolves rfl fun _ _ there => there
    | elapse => exact ih.of_log evolves rfl fun _ _ there => there
    | lost => exact ih.of_log evolves rfl fun _ _ there => there
    | claim free distinct selected updated returned =>
      exact accounted_claim kept ih distinct selected updated returned rfl evolves keptAfter
    | advance dispatching advanced written =>
      exact accounted_advance ih dispatching (Pool.advanced_of_advance advanced) rfl rfl evolves
    | finish | crash =>
      refine ih.of_log evolves rfl fun other pool there => ?_
      simp only [Function.update_apply] at there
      split at there
      · simp at there
      · exact there
    | purge => exact ih.of_log evolves rfl fun _ _ there => there

/-- How often a row has been handed to the bus. -/
def timesHanded (world : RelayWorld) (id : String) : Nat :=
  (world.log.filter fun entry => entry.1.id = id && isHanded entry).length

/-- Distinct attempts within a bound. -/
private theorem length_le_of_attempts {attempts : List Nat} (bound : Nat)
    (distinct : attempts.Nodup) (within : ∀ attempt ∈ attempts, 1 ≤ attempt ∧ attempt ≤ bound) :
    attempts.length ≤ bound := by
  have subset : attempts ⊆ List.range' 1 bound := by
    intro attempt member
    have := within attempt member
    exact List.mem_range'_1.mpr (by omega)
  simpa using (List.subperm_of_subset distinct subset).length_le

/-- The attempts of one row among entries with distinct claims are distinct. -/
private theorem nodup_attempts {entries : List (ClaimedRow × DispatchPhase)} (id : String)
    (distinct : (entries.map fun entry => entry.1.key).Nodup) :
    ((entries.filter fun entry => entry.1.id = id).map fun entry => entry.1.attempts).Nodup := by
  have pairwise := (List.pairwise_map.mp distinct).filter fun entry => entry.1.id = id
  refine List.pairwise_map.mpr (pairwise.imp_of_mem fun {entry other} member member' different => ?_)
  have here : entry.1.id = id := by simpa using (List.mem_filter.mp member).2
  have here' : other.1.id = id := by simpa using (List.mem_filter.mp member').2
  exact fun same => different (Prod.ext (here.trans here'.symm) same)

/-- A row is handed to the bus no more often than its attempts allow. -/
theorem timesHanded_le (accounted : Accounted config world) (id : String) :
    timesHanded world id ≤ config.maxAttempts := by
  have within := length_le_of_attempts config.maxAttempts (nodup_attempts id accounted.handedOnce) ?_
  · simpa [timesHanded, List.filter_filter] using within
  · intro attempt member
    obtain ⟨entry, entryMem, rfl⟩ := List.mem_map.mp member
    have logged : entry ∈ world.log := (List.mem_filter.mp (List.mem_filter.mp entryMem).1).1
    exact ⟨(accounted.logged entry logged).positive, (accounted.logged entry logged).bound⟩

end NestjsFastify.Outbox
