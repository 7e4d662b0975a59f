import NestjsFastify.OutboxDispatch
import NestjsFastify.WorkerTally

/-! # A claimed batch

`dispatchClaimed` as a whole: its workers begin together, count the dispatches that resolve true, and
their sum is what the batch resolves to.  The dispatch of a row is any task with awaits; the one of
the relay is `dispatchTask`.
-/
namespace NestjsFastify.Outbox
open KeyedGroups (ItemGroup groupByKey)
open WorkerPool (Pool Worker Tally)

/-- `dispatchOne` resolves true once the row is marked as processed. -/
def dispatchSucceeds : DispatchPhase → DispatchOutcome → Bool
  | .marking, .done => true
  | _, _ => false

section
variable {Phase Outcome : Type*}

/-- The runs of `dispatchClaimed` with the dispatch of a row as a parameter. -/
def batchSystem (dispatch : PoolTask ClaimedRow Phase Outcome) (succeeds : Phase → Outcome → Bool)
    (config : RelayConfig) (rows : List ClaimedRow) :
    TransitionSystem (Tally ClaimedRow Phase) (Nat × Outcome) :=
  Tally.system dispatch succeeds (aggregateGroups rows) (workerCount config rows)

/-- What a batch has done at some moment: each row is dispatched at most once, and the rows of an
aggregate one at a time in the order of the batch; the batch resolves when nothing is in flight, to
the number of dispatches that resolved true, and then each row has been dispatched. -/
structure BatchDispatched (dispatch : PoolTask ClaimedRow Phase Outcome)
    (succeeds : Phase → Outcome → Bool) (config : RelayConfig) (rows : List ClaimedRow)
    (history : List (Tally ClaimedRow Phase × (Nat × Outcome))) (tally : Tally ClaimedRow Phase) :
    Prop where
  once : (tally.pool.started ++ tally.pool.remaining).Perm rows
  settled : (tally.pool.inFlight ++ (Tally.settled dispatch succeeds history).map (·.1)).Perm
    tally.pool.started
  ordered : ∀ aggregateId, (tally.pool.started.filter (·.aggregateId = aggregateId)).IsPrefix
    (rows.filter (·.aggregateId = aggregateId))
  single : tally.pool.inFlight.Pairwise fun row other => row.aggregateId ≠ other.aggregateId
  bounded : tally.pool.inFlight.length ≤ config.dispatchConcurrency
  pending : tally.pool.inFlight ≠ [] → tally.result = none
  resolved : tally.pool.inFlight = [] → tally.pool.remaining = [] ∧
    tally.result = some ((Tally.settled dispatch succeeds history).countP (·.2))

variable {dispatch : PoolTask ClaimedRow Phase Outcome} {succeeds : Phase → Outcome → Bool}
  {config : RelayConfig} {rows : List ClaimedRow}
  {history : List (Tally ClaimedRow Phase × (Nat × Outcome))} {tally : Tally ClaimedRow Phase}

/-- Whatever the schedule, and whatever the dispatches resolve to. -/
theorem batchDispatched_of_run [Inhabited Outcome]
    (run : (batchSystem dispatch succeeds config rows).Run history tally) :
    BatchDispatched dispatch succeeds config rows history tally := by
  classical
  have sound := Tally.sound_of_run default run
  obtain ⟨earlier, poolRun⟩ := sound.run
  have filed := @KeyedGroups.filed_groupByKey _ _ _ ClaimedRow.aggregateId rows
  have staffed : aggregateGroups rows ≠ [] → 0 < workerCount config rows := workerCount_pos
  have filtered : ∀ aggregateId,
      (tally.pool.started ++ tally.pool.remaining).filter (·.aggregateId = aggregateId) =
        rows.filter (·.aggregateId = aggregateId) := by
    intro aggregateId
    have same := WorkerPool.filter_of_run filed poolRun aggregateId
    rw [KeyedGroups.filter_groupByKey] at same
    exact same
  have result := sound.result
  exact
    { once := KeyedGroups.perm_of_filter filtered
      settled := sound.started
      ordered := fun aggregateId =>
        ⟨tally.pool.remaining.filter (·.aggregateId = aggregateId), by
          rw [← filtered aggregateId, List.filter_append]⟩
      single := Tally.Sound.pairwise_inFlight (WorkerPool.separated_of_run filed poolRun)
      bounded := Nat.le_trans sound.length_inFlight (Nat.min_le_left _ _)
      pending := fun inFlight => by rw [result, if_neg inFlight]
      resolved := fun inFlight => ⟨sound.complete staffed inFlight, by rw [result, if_pos inFlight]⟩ }

instance : Inhabited DispatchOutcome := ⟨.done⟩

/-- Two events of one aggregate, and between them one of another. -/
def mixedRows : List ClaimedRow :=
  [("2", "user"), ("3", "guest"), ("1", "user")].map fun (id, aggregateId) =>
    { id, organizationId := none, eventType := "users.updated", aggregateId
      payload := .object
        [("eventId", .string id), ("occurredAt", .string id), ("payload", .object [])]
      attempts := 1 }

/-- Two workers dispatch the events of two aggregates; those of the first are marked as processed, the
statement for the other fails. -/
theorem batchDispatched_example :
    ∃ history tally, (batchSystem (dispatchTask lenientPlatform) dispatchSucceeds {}
        mixedRows).Run history tally ∧ tally.result = some 2 ∧
      tally.pool.started.map ClaimedRow.id = ["2", "3", "1"] ∧
      BatchDispatched (dispatchTask lenientPlatform) dispatchSucceeds {} mixedRows history tally := by
  obtain ⟨history, tally, run, -, -, passed⟩ :=
    @TransitionSystem.run_of_execute _ _ (batchSystem (dispatchTask lenientPlatform) dispatchSucceeds
        {} mixedRows) (fun _ _ => true) (fun _ _ => True) (fun _ _ _ => trivial) _
      [(0, .done), (1, .done), (0, .done), (1, .failed false), (0, .done), (0, .done)]
      (fun tally => tally.result = some 2 &&
        tally.pool.started.map ClaimedRow.id = ["2", "3", "1"]) rfl (by decide +kernel)
  simp only [Bool.and_eq_true, decide_eq_true_eq] at passed
  exact ⟨history, tally, run, passed.1, passed.2, batchDispatched_of_run run⟩

end

end NestjsFastify.Outbox
