import Mathlib.Data.List.MinMax
import Mathlib.Logic.Function.Basic
import NestjsFastify.OutboxBatch

/-! # Listeners of a claimed batch

The bus starts all listeners of an event at once and settles with them as `Promise.all` does: at the
first failure, or when all are done.  So a listener may outlive the dispatch that has started it.
-/
namespace NestjsFastify.Outbox
open KeyedGroups (ItemGroup groupByKey)
open WorkerPool (Pool Worker)

/-- How long a listener takes for an event, and the error it ends with. -/
structure ListenerRun where
  duration : Nat
  failure : Option Failure := none
  deriving DecidableEq, Repr

/-- What is given for every row of a batch: the runs of the listeners of its event, and how long the
relay's statement for it takes. -/
structure BusTiming where
  listeners : ClaimedRow → List ListenerRun
  statement : ClaimedRow → Nat
  safeErrorSummary : Failure → String

/-- The failing run that ends first. -/
def firstFailure (runs : List ListenerRun) : Option ListenerRun :=
  (runs.filter (·.failure.isSome)).argmin ListenerRun.duration

def longest (runs : List ListenerRun) : Nat :=
  (runs.map ListenerRun.duration).foldr max 0

def noListener (eventType : String) : Failure :=
  .error ("No listener registered for domain event \"" ++ eventType ++ "\"")

/-- `EventBusService.publish`: when it settles, and how. -/
def publish (timing : BusTiming) (row : ClaimedRow) : Nat × DispatchOutcome :=
  let runs := timing.listeners row
  let rejected := fun failure => .rejected failure (timing.safeErrorSummary failure)
  match firstFailure runs with
  | some run => (run.duration, rejected (run.failure.getD .infrastructure))
  | none =>
      if runs = [] then (0, rejected (noListener row.eventType)) else (longest runs, .done)

/-- How long the `await` of a phase takes. -/
def awaited (timing : BusTiming) (row : ClaimedRow) : DispatchPhase → Nat
  | .publishing _ => (publish timing row).1
  | _ => timing.statement row

/-- The bus decides the outcome of a publication, the database the others. -/
def consistent (timing : BusTiming) (row : ClaimedRow) : DispatchPhase → DispatchOutcome → Bool
  | .publishing _, outcome => outcome = (publish timing row).2
  | _, _ => true

/-- A batch at work: when the worker's `await` is over, and the rows that the bus has been handed,
each with the time. -/
structure ListenedBatch where
  pool : Pool ClaimedRow DispatchPhase
  now : Nat
  due : Nat → Nat
  handed : List (ClaimedRow × Nat)

/-- A worker goes on some time after its `await` is over. -/
inductive BatchAction where
  | elapse (milliseconds : Nat)
  | advance (worker : Nat) (outcome : DispatchOutcome)

namespace ListenedBatch

def start (config : RelayConfig) (rows : List ClaimedRow) : ListenedBatch where
  pool := .start (aggregateGroups rows) (workerCount config rows)
  now := 0
  due _ := 0
  handed := []

/-- The worker may go on with the outcome. -/
def ready (timing : BusTiming) (batch : ListenedBatch) (worker : Nat) (outcome : DispatchOutcome) :
    Bool :=
  match batch.pool.workers[worker]? with
  | some (.busy row phase _) =>
      batch.due worker ≤ batch.now && consistent timing row phase outcome
  | _ => true

/-- The row that the worker has handed to the bus just now. -/
def handing (pool : Pool ClaimedRow DispatchPhase) (worker : Nat) : Option ClaimedRow :=
  match pool.workers[worker]? with
  | some (.busy row (.publishing _) _) => some row
  | _ => none

/-- How long the worker is to wait now. -/
def awaiting (timing : BusTiming) (pool : Pool ClaimedRow DispatchPhase) (worker : Nat) : Nat :=
  match pool.workers[worker]? with
  | some (.busy row phase _) => awaited timing row phase
  | _ => 0

def step (platform : Platform) (timing : BusTiming) (batch : ListenedBatch) :
    BatchAction → Option ListenedBatch
  | .elapse milliseconds => some { batch with now := batch.now + milliseconds }
  | .advance worker outcome =>
      if batch.ready timing worker outcome then
        (batch.pool.advance (dispatchTask platform) worker outcome).map fun pool =>
          { batch with
            pool
            due := Function.update batch.due worker (batch.now + awaiting timing pool worker)
            handed := batch.handed ++ (handing pool worker).toList.map fun row => (row, batch.now) }
      else none

end ListenedBatch

/-- The runs of `dispatchClaimed` with its listeners.  A worker may begin at any time. -/
def listenedSystem (platform : Platform) (timing : BusTiming) (config : RelayConfig)
    (rows : List ClaimedRow) : TransitionSystem ListenedBatch BatchAction where
  initial batch := batch = .start config rows
  step batch action := batch.step platform timing action

/-- All listeners of the row are done at the time. -/
def ListenersDone (timing : BusTiming) (entry : ClaimedRow × Nat) (time : Nat) : Prop :=
  ∀ run ∈ timing.listeners entry.1, entry.2 + run.duration ≤ time

/-- Whenever the bus was handed an event, all listeners of the earlier events of its aggregate were
done. -/
def ListenersIsolated (timing : BusTiming) (batch : ListenedBatch) : Prop :=
  batch.handed.Pairwise fun entry later =>
    entry.1.aggregateId = later.1.aggregateId → ListenersDone timing entry later.2

section
variable (platform : Platform) (timing : BusTiming)

/-- How long the statements take for the rows before the next one that reaches the bus. -/
def untilHandedOver : List ClaimedRow → Option Nat
  | [] => none
  | row :: rows =>
      if reachesBus platform row then some 0
      else (untilHandedOver rows).map (timing.statement row + ·)

/-- When a listener fails and another event of the aggregate follows, no listener of the event takes
longer than the failing one and the statements of the relay in between. -/
def FailuresOutlast (rows : List ClaimedRow) : Prop :=
  ∀ aggregateId before row rest failing gap,
    rows.filter (·.aggregateId = aggregateId) = before ++ row :: rest →
    reachesBus platform row = true → firstFailure (timing.listeners row) = some failing →
    untilHandedOver platform timing rest = some gap →
    ∀ run ∈ timing.listeners row, run.duration ≤ failing.duration + timing.statement row + gap

/-- When the worker can be done with its row at the earliest. -/
def readyAt (timing : BusTiming) (due : Nat) (row : ClaimedRow) : DispatchPhase → Nat
  | .publishing _ => due + timing.statement row
  | _ => due

/-- The listeners of the entries of an aggregate are done before its next event is handed over. -/
def DoneBefore (handed : List (ClaimedRow × Nat)) (aggregateId : String) (time : Nat)
    (rest : List ClaimedRow) : Prop :=
  ∀ entry ∈ handed, entry.1.aggregateId = aggregateId →
    ∀ gap ∈ untilHandedOver platform timing rest, ListenersDone timing entry (time + gap)

/-- What holds of a batch at work. -/
structure Tracked (rows : List ClaimedRow) (batch : ListenedBatch) : Prop where
  separated : batch.pool.Separated ClaimedRow.aggregateId
  waiting : ∀ group ∈ batch.pool.waiting,
    group.items = rows.filter (·.aggregateId = group.first.aggregateId) ∧
      ∀ entry ∈ batch.handed, entry.1.aggregateId ≠ group.first.aggregateId
  lane : ∀ (worker : Nat) row phase rest,
    batch.pool.workers[worker]? = some (.busy row phase rest) →
    (∃ before, rows.filter (·.aggregateId = row.aggregateId) = before ++ row :: rest) ∧
      DoneBefore platform timing batch.handed row.aggregateId
        (readyAt timing (batch.due worker) row phase) rest
  isolated : ListenersIsolated timing batch

variable {platform timing}

theorem ListenersDone.mono {entry : ClaimedRow × Nat} {time later : Nat}
    (settled : ListenersDone timing entry time) (after : time ≤ later) : ListenersDone timing entry later :=
  fun run member => (settled run member).trans after

theorem DoneBefore.mono {handed : List (ClaimedRow × Nat)} {aggregateId : String}
    {time later : Nat} {rest : List ClaimedRow}
    (settled : DoneBefore platform timing handed aggregateId time rest) (after : time ≤ later) :
    DoneBefore platform timing handed aggregateId later rest :=
  fun entry member same gap found =>
    (settled entry member same gap found).mono (Nat.add_le_add_right after gap)

theorem duration_le_longest {runs : List ListenerRun} {run : ListenerRun} (member : run ∈ runs) :
    run.duration ≤ longest runs := by
  induction runs with
  | nil => exact nomatch member
  | cons first runs ih =>
    simp only [longest, List.map_cons, List.foldr_cons]
    rcases List.mem_cons.mp member with rfl | later
    · exact Nat.le_max_left _ _
    · exact (ih later).trans (Nat.le_max_right _ _)

/-- The listeners of a row are done before the next event of its aggregate is handed over. -/
theorem settled_of_publish {rows before rest : List ClaimedRow} {row : ClaimedRow} {now gap : Nat}
    (outlast : FailuresOutlast platform timing rows)
    (split : rows.filter (·.aggregateId = row.aggregateId) = before ++ row :: rest)
    (reaches : reachesBus platform row = true)
    (found : untilHandedOver platform timing rest = some gap) :
    ListenersDone timing (row, now) (now + (publish timing row).1 + timing.statement row + gap) := by
  intro run member
  have enough : run.duration ≤ (publish timing row).1 + timing.statement row + gap := by
    cases failure : firstFailure (timing.listeners row) with
    | some failing =>
      simp only [publish, failure]
      exact outlast _ before row rest failing gap split reaches failure found run member
    | none =>
      have listened : timing.listeners row ≠ [] := List.ne_nil_of_mem member
      have within : run.duration ≤ longest (timing.listeners row) := duration_le_longest member
      simp only [publish, failure, listened, if_false]
      omega
  change now + run.duration ≤ _
  omega

/-- The bus is handed a row that a worker has started, if the row reaches it. -/
theorem handing_start {pool : Pool ClaimedRow DispatchPhase} {worker : Nat} {row : ClaimedRow}
    {rest : List ClaimedRow}
    (started : pool.workers[worker]? = some (.busy row (dispatchOne platform row) rest)) :
    ListenedBatch.handing pool worker = if reachesBus platform row then some row else none := by
  cases phase : dispatchOne platform row <;>
    simp [ListenedBatch.handing, started, reachesBus, phase]

/-- What a worker that has started a row knows of the events before it, and of the row itself. -/
theorem doneBefore_of_start {rows before rest : List ClaimedRow} {row : ClaimedRow}
    {handed : List (ClaimedRow × Nat)} {now : Nat} (outlast : FailuresOutlast platform timing rows)
    (split : rows.filter (·.aggregateId = row.aggregateId) = before ++ row :: rest)
    (earlier : DoneBefore platform timing handed row.aggregateId now (row :: rest)) :
    DoneBefore platform timing
      (handed ++ (if reachesBus platform row then some row else none).toList.map fun row => (row, now))
      row.aggregateId
      (readyAt timing (now + awaited timing row (dispatchOne platform row)) row
        (dispatchOne platform row)) rest := by
  intro entry member same gap found
  by_cases reaches : reachesBus platform row = true
  · rw [if_pos reaches] at member
    obtain ⟨event, publishing⟩ : ∃ event, dispatchOne platform row = .publishing event := by
      unfold reachesBus at reaches
      split at reaches
      · exact ⟨_, ‹_›⟩
      · exact nomatch reaches
    rw [publishing]
    simp only [readyAt, awaited]
    rcases List.mem_append.mp member with old | new
    · have settled := earlier entry old same 0 (by simp [untilHandedOver, reaches])
      exact settled.mono (by omega)
    · obtain rfl : entry = (row, now) := by simpa using new
      exact settled_of_publish outlast split reaches found
  · rw [if_neg reaches] at member
    have old : entry ∈ handed := by simpa using member
    have settled := earlier entry old same (timing.statement row + gap)
      (by simp [untilHandedOver, reaches, Option.mem_def.mp found])
    refine settled.mono ?_
    unfold reachesBus at reaches
    cases phase : dispatchOne platform row with
    | publishing event => simp [phase] at reaches
    | marking | parking | recording =>
      simp only [readyAt, awaited]
      omega

/-- An event that is handed over finds the listeners of the earlier events of its aggregate done. -/
theorem isolated_of_start {rest : List ClaimedRow} {row : ClaimedRow} {batch : ListenedBatch}
    (isolated : ListenersIsolated timing batch)
    (earlier : DoneBefore platform timing batch.handed row.aggregateId batch.now (row :: rest)) :
    (batch.handed ++ (if reachesBus platform row then some row else none).toList.map
      fun row => (row, batch.now)).Pairwise fun entry later =>
        entry.1.aggregateId = later.1.aggregateId → ListenersDone timing entry later.2 := by
  by_cases reaches : reachesBus platform row = true
  · rw [if_pos reaches]
    refine List.pairwise_append.mpr ⟨isolated, List.pairwise_singleton _ _, ?_⟩
    intro entry member later new same
    obtain rfl : later = (row, batch.now) := by simpa using new
    exact earlier entry member same 0 (by simp [untilHandedOver, reaches])
  · simpa [if_neg reaches, ListenersIsolated] using isolated

/-! ## Steps -/

variable {rows : List ClaimedRow} {batch : ListenedBatch} {after : Pool ClaimedRow DispatchPhase}
  {worker : Nat}

/-- A worker starts a row of its own group or the first row of another one. -/
theorem Tracked.started (tracked : Tracked platform timing rows batch)
    (outlast : FailuresOutlast platform timing rows) (separated : after.Separated ClaimedRow.aggregateId)
    (others : ∀ other, other ≠ worker → after.workers[other]? = batch.pool.workers[other]?)
    (waiting : ∀ group ∈ after.waiting, group ∈ batch.pool.waiting) {row : ClaimedRow}
    {before rest : List ClaimedRow}
    (started : after.workers[worker]? = some (.busy row (dispatchOne platform row) rest))
    (split : rows.filter (·.aggregateId = row.aggregateId) = before ++ row :: rest)
    (apart : ∀ group ∈ after.waiting, row.aggregateId ≠ group.first.aggregateId)
    (earlier : DoneBefore platform timing batch.handed row.aggregateId batch.now (row :: rest)) :
    Tracked platform timing rows
      { batch with
        pool := after
        due := Function.update batch.due worker
          (batch.now + awaited timing row (dispatchOne platform row))
        handed := batch.handed ++ (if reachesBus platform row then some row else none).toList.map
          fun row => (row, batch.now) } where
  separated
  waiting group member := by
    obtain ⟨items, unhanded⟩ := tracked.waiting group (waiting group member)
    refine ⟨items, fun entry entryMem => ?_⟩
    rcases List.mem_append.mp entryMem with old | new
    · exact unhanded entry old
    · obtain ⟨handed, found, rfl⟩ := List.mem_map.mp new
      split at found
      · exact List.mem_singleton.mp found ▸ apart group member
      · exact nomatch found
  lane other row' phase' rest' busy := by
    by_cases same : other = worker
    · subst same
      obtain ⟨rfl, rfl, rfl⟩ := Worker.busy.inj (Option.some.inj (started.symm.trans busy))
      refine ⟨⟨before, split⟩, ?_⟩
      simp only [Function.update_self]
      exact doneBefore_of_start outlast split earlier
    · obtain ⟨suffix, settled⟩ := tracked.lane other row' phase' rest' ((others other same) ▸ busy)
      refine ⟨suffix, fun entry entryMem sameId gap found => ?_⟩
      simp only [Function.update_of_ne same]
      rcases List.mem_append.mp entryMem with old | new
      · exact settled entry old sameId gap found
      · obtain ⟨handed, handedMem, rfl⟩ := List.mem_map.mp new
        split at handedMem
        · obtain rfl := List.mem_singleton.mp handedMem
          exact absurd sameId (separated.workers_apart (Ne.symm same) started busy)
        · exact nomatch handedMem
  isolated := isolated_of_start tracked.isolated earlier

/-- A step of a worker that hands nothing over. -/
theorem Tracked.kept (tracked : Tracked platform timing rows batch)
    (separated : after.Separated ClaimedRow.aggregateId)
    (others : ∀ other, other ≠ worker → after.workers[other]? = batch.pool.workers[other]?)
    (waiting : after.waiting = batch.pool.waiting) (due : Nat)
    (own : ∀ row phase rest, after.workers[worker]? = some (.busy row phase rest) →
      ∃ earlier, batch.pool.workers[worker]? = some (.busy row earlier rest) ∧
        readyAt timing (batch.due worker) row earlier ≤ readyAt timing due row phase) :
    Tracked platform timing rows
      { batch with pool := after, due := Function.update batch.due worker due } where
  separated
  waiting group member := tracked.waiting group (waiting ▸ member)
  lane other row phase rest busy := by
    by_cases same : other = worker
    · subst same
      obtain ⟨earlier, was, later⟩ := own row phase rest busy
      obtain ⟨suffix, settled⟩ := tracked.lane other row earlier rest was
      refine ⟨suffix, ?_⟩
      simp only [Function.update_self]
      exact settled.mono later
    · obtain ⟨suffix, settled⟩ := tracked.lane other row phase rest ((others other same) ▸ busy)
      refine ⟨suffix, ?_⟩
      simpa only [Function.update_of_ne same] using settled
  isolated := tracked.isolated

theorem awaiting_start {pool : Pool ClaimedRow DispatchPhase} {row : ClaimedRow}
    {phase : DispatchPhase} {rest : List ClaimedRow}
    (started : pool.workers[worker]? = some (.busy row phase rest)) :
    ListenedBatch.awaiting timing pool worker = awaited timing row phase := by
  simp [ListenedBatch.awaiting, started]

private theorem tracked_of_advance (tracked : Tracked platform timing rows batch)
    (outlast : FailuresOutlast platform timing rows) {outcome : DispatchOutcome}
    (ready : batch.ready timing worker outcome = true)
    (taken : batch.pool.advance (dispatchTask platform) worker outcome = some after) :
    Tracked platform timing rows
      { batch with
        pool := after
        due := Function.update batch.due worker
          (batch.now + ListenedBatch.awaiting timing after worker)
        handed := batch.handed ++ (ListenedBatch.handing after worker).toList.map
          fun row => (row, batch.now) } := by
  have advanced := Pool.advanced_of_advance taken
  have separated := advanced.separated tracked.separated
  have others : ∀ other, other ≠ worker → after.workers[other]? = batch.pool.workers[other]? :=
    fun _ different => advanced.other different
  cases advanced with
  | @phase left right row phase next rest workers here resumed =>
    subst here
    rcases resumeDispatch_cases resumed with ⟨event, later, rfl, same, silent⟩ | ⟨_, never⟩
    · obtain rfl := Option.some.inj same
      have was : batch.pool.workers[left.length]? = some (.busy row (.publishing event) rest) := by
        simp [workers]
      have now : batch.due left.length ≤ batch.now := by
        simp only [ListenedBatch.ready, was, Bool.and_eq_true, decide_eq_true_eq] at ready
        exact ready.1
      have resumes : (⟨batch.pool.waiting, left ++ .busy row next rest :: right,
          batch.pool.started⟩ : Pool ClaimedRow DispatchPhase).workers[left.length]? =
            some (.busy row next rest) := by
        simp
      have quiet : ListenedBatch.handing ⟨batch.pool.waiting,
          left ++ .busy row next rest :: right, batch.pool.started⟩ left.length = none := by
        cases next with
        | publishing event => exact absurd rfl (silent event)
        | marking | parking | recording => simp [ListenedBatch.handing]
      rw [quiet, awaiting_start resumes]
      simp only [Option.toList_none, List.map_nil, List.append_nil]
      refine tracked.kept separated others rfl _ fun row' phase' rest' busy => ?_
      obtain ⟨rfl, rfl, rfl⟩ := Worker.busy.inj (Option.some.inj (resumes.symm.trans busy))
      refine ⟨_, was, ?_⟩
      cases next with
      | publishing event => exact absurd rfl (silent event)
      | marking | parking | recording =>
        simp only [readyAt, awaited]
        omega
    · cases never
  | @item left right last row phase rest workers here resumed =>
    subst here
    rcases resumeDispatch_cases resumed with ⟨_, _, _, never, _⟩ | ⟨statement, -⟩
    · cases never
    have was : batch.pool.workers[left.length]? = some (.busy last phase (row :: rest)) := by
      simp [workers]
    have started : (⟨batch.pool.waiting, left ++ .busy row (dispatchOne platform row) rest :: right,
        batch.pool.started ++ [row]⟩ : Pool ClaimedRow DispatchPhase).workers[left.length]? =
          some (.busy row (dispatchOne platform row) rest) := by
      simp
    have lane : (last :: row :: rest) ∈ batch.pool.lanes := by simp [Pool.lanes, workers]
    have same : last.aggregateId = row.aggregateId :=
      tracked.separated.same _ lane last List.mem_cons_self row
        (List.mem_cons_of_mem _ List.mem_cons_self)
    obtain ⟨⟨before, suffix⟩, settled⟩ := tracked.lane _ _ _ _ was
    have now : readyAt timing (batch.due left.length) last phase ≤ batch.now := by
      simp only [ListenedBatch.ready, was, Bool.and_eq_true, decide_eq_true_eq] at ready
      cases phase with
      | publishing event => exact absurd rfl (statement event)
      | marking | parking | recording => exact ready.1
    have split : rows.filter (·.aggregateId = row.aggregateId) = (before ++ [last]) ++ row :: rest := by
      rw [← same, suffix, List.append_assoc, List.singleton_append]
    have apart : ∀ group ∈ batch.pool.waiting, row.aggregateId ≠ group.first.aggregateId :=
      fun group member => (List.pairwise_append.mp tracked.separated.apart).2.2 _
        (List.mem_map_of_mem (List.mem_of_getElem? was)) _ (List.mem_map_of_mem member) row
        (List.mem_cons_of_mem _ List.mem_cons_self) _ List.mem_cons_self
    have result := tracked.started outlast separated others (fun _ => id) started split apart
      (same ▸ settled.mono now)
    rw [← handing_start started, ← awaiting_start started] at result
    exact result
  | @group left right ended group waiting workers here settled spent groups =>
    subst here
    have started : (⟨waiting, left ++ .busy group.first (dispatchOne platform group.first)
        group.others :: right, batch.pool.started ++ [group.first]⟩ :
          Pool ClaimedRow DispatchPhase).workers[left.length]? =
            some (.busy group.first (dispatchOne platform group.first) group.others) := by
      simp
    obtain ⟨items, unhanded⟩ := tracked.waiting group (groups ▸ List.mem_cons_self)
    have apart : ∀ other ∈ waiting, group.first.aggregateId ≠ other.first.aggregateId := by
      have lanes := (List.pairwise_append.mp tracked.separated.apart).2.1
      rw [groups, List.map_cons, List.pairwise_cons] at lanes
      exact fun other member => lanes.1 _ (List.mem_map_of_mem member) _ List.mem_cons_self _
        List.mem_cons_self
    have split : rows.filter (·.aggregateId = group.first.aggregateId) =
        [] ++ group.first :: group.others := items.symm
    have result := tracked.started outlast separated others
      (fun other member => groups ▸ List.mem_cons_of_mem _ member) started split apart
      (fun entry member same => absurd same (unhanded entry member))
    rw [← handing_start started, ← awaiting_start started] at result
    exact result
  | @finish left right ended workers here settled spent groups =>
    subst here
    have finished : (⟨batch.pool.waiting, left ++ .finished :: right, batch.pool.started⟩ :
        Pool ClaimedRow DispatchPhase).workers[left.length]? = some .finished := by
      simp
    have quiet : ListenedBatch.handing ⟨batch.pool.waiting, left ++ .finished :: right,
        batch.pool.started⟩ left.length = none := by
      simp [ListenedBatch.handing]
    rw [quiet]
    simp only [Option.toList_none, List.map_nil, List.append_nil]
    exact tracked.kept separated others rfl _ fun _ _ _ busy => by
      cases finished.symm.trans busy

/-- A step keeps the listeners isolated if no failure is outlived. -/
theorem Tracked.step (tracked : Tracked platform timing rows batch)
    (outlast : FailuresOutlast platform timing rows) {action : BatchAction} {after : ListenedBatch}
    (taken : batch.step platform timing action = some after) :
    Tracked platform timing rows after := by
  cases action with
  | elapse milliseconds =>
    obtain rfl := Option.some.inj taken
    exact ⟨tracked.separated, tracked.waiting, tracked.lane, tracked.isolated⟩
  | advance worker outcome =>
    simp only [ListenedBatch.step] at taken
    split at taken
    · rename_i ready
      obtain ⟨pool, advanced, rfl⟩ := Option.map_eq_some_iff.mp taken
      exact tracked_of_advance tracked outlast ready advanced
    · exact nomatch taken

theorem tracked_start (config : RelayConfig) (rows : List ClaimedRow) :
    Tracked platform timing rows (.start config rows) where
  separated := Pool.separated_start (KeyedGroups.filed_groupByKey rows) _
  waiting group member := by
    refine ⟨?_, fun _ impossible => nomatch impossible⟩
    obtain ⟨entry, entryMem, rfl⟩ := List.mem_map.mp member
    have filed := @KeyedGroups.filed_groupByKey _ _ _ ClaimedRow.aggregateId rows
    have first := filed.items entry entryMem entry.2.first List.mem_cons_self
    rw [filed.items_eq entryMem, KeyedGroups.filter_groupByKey, first]
  lane worker row phase rest busy := by
    have idle := List.eq_of_mem_replicate (List.mem_of_getElem? busy)
    exact nomatch idle
  isolated := List.Pairwise.nil

/-- In every run of a batch in which no failure is outlived the listeners are isolated. -/
theorem listenersIsolated_of_run {config : RelayConfig}
    (outlast : FailuresOutlast platform timing rows)
    {history : List (ListenedBatch × BatchAction)}
    (run : (listenedSystem platform timing config rows).Run history batch) :
    ListenersIsolated timing batch := by
  have tracked : Tracked platform timing rows batch := by
    refine run.invariant ?_ ?_
    · rintro _ rfl
      exact tracked_start config rows
    · intro before action after tracked taken
      exact tracked.step outlast taken
  exact tracked.isolated

end

/-! ### Two listeners -/

/-- One listener of every event fails at once, the other one takes a second. -/
def impatientTiming : BusTiming where
  listeners _ := [⟨1, some .infrastructure⟩, ⟨1000, none⟩]
  statement _ := 5
  safeErrorSummary _ := ""

/-- The listener that fails is the last one to be done. -/
def patientTiming : BusTiming where
  listeners _ := [⟨1000, some .infrastructure⟩, ⟨1, none⟩]
  statement _ := 5
  safeErrorSummary _ := ""

/-- The first event of `swappedRows` is rejected, the second one handed over. -/
def rejectedFirst (duration : Nat) : List BatchAction :=
  [.advance 0 .done, .elapse duration, .advance 0 (.rejected .infrastructure ""), .elapse 5,
    .advance 0 .done]

/-- Two events are handed over, the second one while a listener of the first is running. -/
def overlapping (timing : BusTiming) (batch : ListenedBatch) : Bool :=
  match batch.handed with
  | [entry, later] =>
      entry.1.aggregateId = later.1.aggregateId &&
        (timing.listeners entry.1).any fun run => later.2 < entry.2 + run.duration
  | _ => false

theorem not_isolated_of_overlapping {timing : BusTiming} {batch : ListenedBatch}
    (overlaps : overlapping timing batch = true) : ¬ListenersIsolated timing batch := by
  intro isolated
  unfold overlapping at overlaps
  split at overlaps
  · rename_i entry later handed
    simp only [Bool.and_eq_true, decide_eq_true_eq, List.any_eq_true] at overlaps
    obtain ⟨same, run, member, running⟩ := overlaps
    rw [ListenersIsolated, handed] at isolated
    have done := (List.pairwise_cons.mp isolated).1 later List.mem_cons_self same run member
    omega
  · exact nomatch overlaps

/-- The second event is handed over while the slow listener still handles the first one. -/
theorem swappedRows_overlap :
    ∃ history batch, (listenedSystem lenientPlatform impatientTiming {} swappedRows).Run history
      batch ∧ ¬ListenersIsolated impatientTiming batch := by
  obtain ⟨history, batch, run, -, -, passed⟩ :=
    @TransitionSystem.run_of_execute _ _ (listenedSystem lenientPlatform impatientTiming {}
        swappedRows) (fun _ _ => true) (fun _ _ => True) (fun _ _ _ => trivial) _
      (rejectedFirst 1) (overlapping impatientTiming) rfl (by decide +kernel)
  exact ⟨history, batch, run, not_isolated_of_overlapping passed⟩

/-- No listener is left when the failing one is the slowest. -/
theorem swappedRows_isolated :
    ∃ history batch, (listenedSystem lenientPlatform patientTiming {} swappedRows).Run history
      batch ∧ batch.handed.length = 2 ∧ ListenersIsolated patientTiming batch := by
  obtain ⟨history, batch, run, -, -, passed⟩ :=
    @TransitionSystem.run_of_execute _ _ (listenedSystem lenientPlatform patientTiming {}
        swappedRows) (fun _ _ => true) (fun _ _ => True) (fun _ _ _ => trivial) _
      (rejectedFirst 1000) (fun batch => batch.handed.length = 2) rfl (by decide +kernel)
  refine ⟨history, batch, run, by simpa using passed, listenersIsolated_of_run ?_ run⟩
  intro _ _ row _ failing gap _ _ failure _ run member
  obtain rfl : ⟨1000, some .infrastructure⟩ = failing := Option.some.inj failure
  have within : run.duration ≤ 1000 := by
    simp only [patientTiming, List.mem_cons, List.not_mem_nil, or_false] at member
    rcases member with rfl | rfl <;> decide
  change run.duration ≤ 1000 + _ + _
  omega

end NestjsFastify.Outbox
