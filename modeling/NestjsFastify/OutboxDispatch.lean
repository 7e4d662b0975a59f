import NestjsFastify.DomainException
import NestjsFastify.Json
import NestjsFastify.WorkerPool

/-! # Dispatching claimed outbox rows

The relay groups the rows of a claimed batch by their aggregate.  A few workers take the groups in
order; each row of a group is handed to the bus, and what became of it is recorded in the table,
before the next row of the group.
-/
namespace NestjsFastify.Outbox
open KeyedGroups (ItemGroup groupByKey)
open WorkerPool (Pool Worker CanFinish)

/-- The relay's settings; each is read as a positive integer. -/
structure RelayConfig where
  batchSize : Nat := 50
  dispatchConcurrency : Nat := 8
  maxAttempts : Nat := 10
  retryBaseMs : Nat := 2000
  retryMaxMs : Nat := 300000
  batchSize_pos : 0 < batchSize := by decide
  dispatchConcurrency_pos : 0 < dispatchConcurrency := by decide
  maxAttempts_pos : 0 < maxAttempts := by decide
  retryBaseMs_pos : 0 < retryBaseMs := by decide
  retryMaxMs_pos : 0 < retryMaxMs := by decide

/-- What the claim returns of a row. -/
structure ClaimedRow where
  id : String
  organizationId : Option String
  eventType : String
  aggregateId : String
  payload : Json
  attempts : Nat

structure OutboxEnvelope where
  schemaVersion : Option Int
  eventId : String
  occurredAt : Int
  payload : List (String × Json)

/-- What the bus is handed. -/
structure DomainEvent where
  eventId : String
  eventType : String
  aggregateId : String
  occurredAt : Int
  payload : List (String × Json)
  organizationId : Option String

def outboxSchemaVersion : Int := 1

def maxOutboxErrorMessageLength : Nat := 2000

/-- What the relay takes from its platform: the timestamps that parse, in milliseconds, and how the
issues of a payload that is no envelope are written. -/
structure Platform where
  parseDate : String → Option Int
  formatEnvelopeIssues : Json → String

/-- `outboxEnvelopeSchema.safeParse` -/
def parseEnvelope (platform : Platform) (json : Json) : Option OutboxEnvelope := do
  let schemaVersion ←
    match json.get? "schemaVersion" with
    | none => some none
    | some version => (version.integer?.filter fun version => 1 ≤ version).map some
  let eventId ← (json.get? "eventId" >>= Json.string?).filter fun eventId => 1 ≤ eventId.length
  let occurredAt ← json.get? "occurredAt" >>= Json.string? >>= platform.parseDate
  let payload ← json.get? "payload" >>= Json.object?
  pure { schemaVersion, eventId, occurredAt, payload }

def invalidEnvelopeMessage (issues : String) : String :=
  "Invalid outbox payload envelope — " ++ issues

def unsupportedVersionMessage (version : Int) : String :=
  "Unsupported outbox schemaVersion=" ++ toString version ++ " (relay supports up to " ++
    toString outboxSchemaVersion ++ ") — producer/consumer deploy skew"

/-! ### One row -/

inductive DispatchPhase where
  | publishing (event : DomainEvent)
  | marking
  | parking (message : String)
  | recording (message : String)

/-- The bus takes the event or rejects it; a statement reports success, or an error although it may
have been applied. -/
inductive DispatchOutcome where
  | done
  | rejected (failure : Failure) (summary : String)
  | failed (applied : Bool)
  deriving DecidableEq, Repr

/-- `isDomainException(err) && err.permanent` -/
def isPermanent : Failure → Bool
  | .domain exception => exception.permanent
  | _ => false

section Dispatch
variable (platform : Platform)

/-- What `dispatchOne` does first: it hands the row to the bus, unless waiting cannot help it. -/
def dispatchOne (row : ClaimedRow) : DispatchPhase :=
  match parseEnvelope platform row.payload with
  | none => .parking (invalidEnvelopeMessage (platform.formatEnvelopeIssues row.payload))
  | some envelope =>
      let version := envelope.schemaVersion.getD 1
      if outboxSchemaVersion < version then .parking (unsupportedVersionMessage version)
      else
        .publishing {
          eventId := envelope.eventId
          eventType := row.eventType
          aggregateId := row.aggregateId
          occurredAt := envelope.occurredAt
          payload := envelope.payload
          organizationId := row.organizationId }

/-- What follows: a listener that rejects an event on a business rule will reject it forever. -/
def resumeDispatch : DispatchPhase → DispatchOutcome → Option (Option DispatchPhase)
  | .publishing _, .done => some (some .marking)
  | .publishing _, .rejected failure summary =>
      some (some (if isPermanent failure then .parking summary else .recording summary))
  | .publishing _, .failed _ => none
  | _, .done => some none
  | _, .failed _ => some none
  | _, .rejected _ _ => none

/-- A publication leads on to a statement, and a row ends with its statement. -/
theorem resumeDispatch_cases {phase : DispatchPhase} {outcome : DispatchOutcome}
    {next : Option DispatchPhase} (resumed : resumeDispatch phase outcome = some next) :
    (∃ event later, phase = .publishing event ∧ next = some later ∧
        ∀ event, later ≠ .publishing event) ∨
      (∀ event, phase ≠ .publishing event) ∧ next = none := by
  revert resumed
  fun_cases resumeDispatch phase outcome <;> intro resumed
  · obtain rfl := Option.some.inj resumed
    exact .inl ⟨_, _, rfl, rfl, fun _ => DispatchPhase.noConfusion⟩
  · obtain rfl := Option.some.inj resumed
    refine .inl ⟨_, _, rfl, rfl, fun _ => ?_⟩
    split <;> exact DispatchPhase.noConfusion
  all_goals grind

def dispatchTask : PoolTask ClaimedRow DispatchPhase DispatchOutcome where
  start := dispatchOne platform
  resume := resumeDispatch

/-- The row is handed to the bus when it is dispatched. -/
def reachesBus (row : ClaimedRow) : Bool :=
  match dispatchOne platform row with
  | .publishing _ => true
  | _ => false

/-- A rejected event takes two more outcomes, every other phase one. -/
theorem canFinish_dispatch : CanFinish (dispatchTask platform) := by
  refine ⟨fun phase => match phase with | .publishing _ => 1 | _ => 0, fun phase => ?_⟩
  cases phase with
  | publishing event => exact ⟨.done, some .marking, rfl, by simp⟩
  | marking => exact ⟨.done, none, rfl, by simp⟩
  | parking message => exact ⟨.done, none, rfl, by simp⟩
  | recording message => exact ⟨.done, none, rfl, by simp⟩

/-! ### One batch -/

/-- The groups of a batch: `byAggregate.values()` -/
def aggregateGroups (rows : List ClaimedRow) : List (ItemGroup ClaimedRow) :=
  (groupByKey ClaimedRow.aggregateId rows).map (·.2)

def workerCount (config : RelayConfig) (rows : List ClaimedRow) : Nat :=
  min config.dispatchConcurrency (aggregateGroups rows).length

/-- The runs of `dispatchClaimed` on the rows as the claim returned them. -/
def dispatchClaimed (config : RelayConfig) (rows : List ClaimedRow) :
    TransitionSystem (Pool ClaimedRow DispatchPhase) (Nat × DispatchOutcome) :=
  WorkerPool.system (dispatchTask platform) (aggregateGroups rows) (workerCount config rows)

theorem workerCount_pos {config : RelayConfig} {rows : List ClaimedRow}
    (groups : aggregateGroups rows ≠ []) : 0 < workerCount config rows :=
  Nat.lt_min.mpr ⟨config.dispatchConcurrency_pos, List.length_pos_iff.mpr groups⟩

/-- What the bus has been handed of an aggregate, in order. -/
def handed (aggregateId : String) (pool : Pool ClaimedRow DispatchPhase) : List ClaimedRow :=
  pool.started.filter fun row => row.aggregateId = aggregateId && reachesBus platform row

/-- Some worker is publishing the row at the moment. -/
def Publishing (pool : Pool ClaimedRow DispatchPhase) (index : Nat) (row : ClaimedRow) : Prop :=
  ∃ event rest, pool.workers[index]? = some (.busy row (.publishing event) rest)

section Order
variable (createdAt : String → Nat)

/-- The order of the claim: `ORDER BY "createdAt", id` -/
def Precedes (row other : ClaimedRow) : Prop :=
  createdAt row.id < createdAt other.id ∨
    createdAt row.id = createdAt other.id ∧ row.id < other.id

/-- The events of each aggregate are handed over in ascending order, one at a time. -/
structure HandedInOrder (pool : Pool ClaimedRow DispatchPhase) : Prop where
  ascending : ∀ aggregateId, (handed platform aggregateId pool).Pairwise (Precedes createdAt)
  single : ∀ index other row row', index ≠ other → Publishing pool index row →
    Publishing pool other row' → row.aggregateId ≠ row'.aggregateId

/-- The claim returned the rows of each aggregate in ascending order, as far as they reach the
bus. -/
def ReturnedInOrder (rows : List ClaimedRow) : Prop :=
  ∀ aggregateId, (rows.filter fun row =>
    row.aggregateId = aggregateId && reachesBus platform row).Pairwise (Precedes createdAt)

section Runs
variable {platform} {config : RelayConfig} {rows : List ClaimedRow}
  {history : List (Pool ClaimedRow DispatchPhase × (Nat × DispatchOutcome))}
  {pool : Pool ClaimedRow DispatchPhase}

/-- A batch begins with all its rows still to be dispatched. -/
theorem remaining_start (rows : List ClaimedRow) (count : Nat) :
    (Pool.start (aggregateGroups rows) count :
      Pool ClaimedRow DispatchPhase).remaining.Perm rows := by
  have same : (Pool.start (aggregateGroups rows) count :
      Pool ClaimedRow DispatchPhase).remaining =
        KeyedGroups.allItems (groupByKey ClaimedRow.aggregateId rows) := by
    simp [Pool.start, Pool.remaining, aggregateGroups, KeyedGroups.allItems, Worker.rest,
      List.flatMap_map, List.flatMap_replicate]
  exact same ▸ KeyedGroups.perm_groupByKey rows

/-- What has been dispatched of an aggregate, and what is left of it, are its rows as returned. -/
theorem dispatched_of_run (run : (dispatchClaimed platform config rows).Run history pool)
    (aggregateId : String) :
    (pool.started ++ pool.remaining).filter (fun row => row.aggregateId = aggregateId) =
      rows.filter fun row => row.aggregateId = aggregateId := by
  rw [WorkerPool.filter_of_run (KeyedGroups.filed_groupByKey rows) run,
    KeyedGroups.filter_groupByKey]

private theorem filter_reachesBus (rows : List ClaimedRow) (aggregateId : String) :
    (rows.filter fun row => row.aggregateId = aggregateId && reachesBus platform row) =
      (rows.filter fun row => row.aggregateId = aggregateId).filter (reachesBus platform) := by
  rw [List.filter_filter]
  exact List.filter_congr fun row _ => Bool.and_comm _ _

/-- The bus gets the rows of an aggregate as they were returned, up to some row. -/
theorem handed_sublist (run : (dispatchClaimed platform config rows).Run history pool)
    (aggregateId : String) :
    (handed platform aggregateId pool).Sublist
      (rows.filter fun row => row.aggregateId = aggregateId && reachesBus platform row) := by
  rw [handed, filter_reachesBus, filter_reachesBus, ← dispatched_of_run run aggregateId,
    List.filter_append]
  exact (List.sublist_append_left _ _).filter _

/-- Once all rows are dispatched the bus has got them all. -/
theorem handed_complete (run : (dispatchClaimed platform config rows).Run history pool)
    (complete : pool.remaining = []) (aggregateId : String) :
    handed platform aggregateId pool =
      rows.filter fun row => row.aggregateId = aggregateId && reachesBus platform row := by
  rw [handed, filter_reachesBus, filter_reachesBus, ← dispatched_of_run run aggregateId, complete,
    List.append_nil]

end Runs

/-- The events of each aggregate reach the bus in order, in whatever way the workers interleave,
exactly when the claim returned them in order. -/
theorem handedInOrder_iff (config : RelayConfig) (rows : List ClaimedRow) :
    (∀ history pool, (dispatchClaimed platform config rows).Run history pool →
        HandedInOrder platform createdAt pool) ↔
      ReturnedInOrder platform createdAt rows := by
  constructor
  · intro ordered aggregateId
    obtain ⟨history, pool, run, complete⟩ :=
      WorkerPool.exists_complete_run (canFinish_dispatch platform) (aggregateGroups rows)
        (fun groups => workerCount_pos (groups : aggregateGroups rows ≠ []))
    rw [← handed_complete run complete aggregateId]
    exact (ordered history pool run).ascending aggregateId
  · intro returned history pool run
    refine ⟨fun aggregateId => (returned aggregateId).sublist (handed_sublist run aggregateId), ?_⟩
    rintro index other row row' different ⟨event, rest, busy⟩ ⟨event', rest', busy'⟩
    exact (WorkerPool.separated_of_run (KeyedGroups.filed_groupByKey rows) run).workers_apart
      different busy busy'

end Order
end Dispatch

/-! ### A batch that is returned out of order -/

/-- Two events of one aggregate, the later one first. -/
def swappedRows : List ClaimedRow :=
  ["2", "1"].map fun id =>
    { id, organizationId := none, eventType := "users.updated", aggregateId := "user"
      payload := .object
        [("eventId", .string id), ("occurredAt", .string id), ("payload", .object [])]
      attempts := 1 }

def lenientPlatform : Platform := ⟨fun _ => some 0, fun _ => ""⟩

/-- The later event is handed over first. -/
theorem swappedRows_handed :
    ¬ ∀ history pool, (dispatchClaimed lenientPlatform {} swappedRows).Run history pool →
      HandedInOrder lenientPlatform (fun id => if id = "1" then 1 else 2) pool := by
  intro ordered
  have begun : (dispatchClaimed lenientPlatform {} swappedRows).Run _ _ :=
    @TransitionSystem.Run.step _ _ _ _ _ _ (0, .done) (.start rfl) rfl
  have published : (dispatchClaimed lenientPlatform {} swappedRows).Run _ _ :=
    @TransitionSystem.Run.step _ _ _ _ _ _ (0, .done) begun rfl
  have marked : (dispatchClaimed lenientPlatform {} swappedRows).Run _ _ :=
    @TransitionSystem.Run.step _ _ _ _ _ _ (0, .done) published rfl
  have ascending := (ordered _ _ marked).ascending "user"
  have later : ¬ swappedRows.Pairwise (Precedes fun id => if id = "1" then 1 else 2) := by
    simp [swappedRows, Precedes]
  exact later ascending

end NestjsFastify.Outbox
