import Mathlib.Algebra.GroupWithZero.Nat
import NestjsFastify.OutboxDispatch
import NestjsFastify.RecordTable
import NestjsFastify.ScriptText

/-! # The outbox relay

Publishers insert rows; any number of relays claim them in batches, dispatch them and record the
outcomes; two purges delete old rows.  A relay may stop between any two of its statements.
-/
namespace NestjsFastify.Outbox
open WorkerPool (Pool Worker)
open RecordTable

structure OutboxRow where
  id : String
  organizationId : Option String
  eventType : String
  aggregateId : String
  payload : Json
  processedAt : Option Nat := none
  attempts : Nat := 0
  lastError : Option String := none
  createdAt : Nat
  nextAttemptAt : Option Nat := none

/-- What a publisher gives of a row; the other columns have defaults. -/
structure NewOutboxRow where
  id : String
  organizationId : Option String
  eventType : String
  aggregateId : String
  payload : Json

def NewOutboxRow.inserted (row : NewOutboxRow) (now : Nat) : OutboxRow :=
  { id := row.id, organizationId := row.organizationId, eventType := row.eventType
    aggregateId := row.aggregateId, payload := row.payload, createdAt := now }

/-- What the claim returns of a row. -/
def OutboxRow.claimed (row : OutboxRow) : ClaimedRow :=
  { id := row.id, organizationId := row.organizationId, eventType := row.eventType
    aggregateId := row.aggregateId, payload := row.payload, attempts := row.attempts }

/-- The settings of the two purges. -/
structure PurgeConfig where
  batchSize : Nat := 1000
  retentionDays : Nat := 7
  parkedRetentionDays : Nat := 30
  deriving DecidableEq, Repr

def dayMs : Nat := 86400000

section Statements
variable (config : RelayConfig)

/-- The `WHERE` of the claim. -/
def claimable (now : Nat) (row : OutboxRow) : Bool :=
  row.processedAt.isNone && row.attempts < config.maxAttempts &&
    row.nextAttemptAt.all (· ≤ now)

/-- The wait after an attempt, from the attempts before it. -/
def retryDelay (attempts : Nat) : Nat :=
  min (config.retryBaseMs * 2 ^ min attempts 30) config.retryMaxMs

/-- The `SET` of the claim. -/
def claim (now : Nat) (row : OutboxRow) : OutboxRow :=
  { row with
    attempts := row.attempts + 1
    nextAttemptAt := some (now + retryDelay config row.attempts) }

/-- `message.slice(0, MAX_OUTBOX_ERROR_MESSAGE_LENGTH)` -/
def truncatedError (message : String) : String :=
  String.ofList (ScriptText.sliceUnits message.toList maxOutboxErrorMessageLength)

/-- The change that the statement of a phase makes; publishing has no statement. -/
def recordOutcome (now : Nat) : DispatchPhase → Option (OutboxRow → OutboxRow)
  | .publishing _ => none
  | .marking => some fun row =>
      { row with processedAt := some now, lastError := none, nextAttemptAt := none }
  | .parking message => some fun row =>
      { row with
        lastError := some (truncatedError message)
        attempts := config.maxAttempts }
  | .recording message => some fun row =>
      { row with lastError := some (truncatedError message) }

/-- An unprocessed row that no claim takes any more. -/
def Parked (row : OutboxRow) : Prop :=
  row.processedAt = none ∧ config.maxAttempts ≤ row.attempts

end Statements

inductive PurgeKind where
  | processed
  | parked
  deriving DecidableEq, Repr

/-- The `WHERE` of a purge. -/
def purgeable (config : RelayConfig) (purge : PurgeConfig) (now : Nat) (row : OutboxRow) :
    PurgeKind → Bool
  | .processed => row.processedAt.isSome && row.createdAt + purge.retentionDays * dayMs < now
  | .parked =>
      row.processedAt.isNone && config.maxAttempts ≤ row.attempts &&
        row.createdAt + purge.parkedRetentionDays * dayMs < now

/-! ### The system -/

/-- The table, the ids that its rows ever had, the clock of the database, what each relay is
dispatching at the moment, and the phases that dispatched rows have entered, the last one last. -/
structure RelayWorld where
  rows : List OutboxRow
  issued : List String
  now : Nat
  relays : Nat → Option (Pool ClaimedRow DispatchPhase)
  log : List (ClaimedRow × DispatchPhase)

/-- The rows of a claim come back, or the claim is committed and its answer lost. -/
inductive ClaimOutcome where
  | returned
  | lost
  deriving DecidableEq, Repr

/-- The steps of the system.  A claim names the rows it takes, in the order in which it returns
them; a claim or a statement that has no effect and reports an error changes nothing. -/
inductive RelayAction where
  | insert (rows : List NewOutboxRow)
  | elapse (milliseconds : Nat)
  | claim (relay : Nat) (ids : List String) (outcome : ClaimOutcome)
  | advance (relay worker : Nat) (outcome : DispatchOutcome)
  | finish (relay : Nat)
  | crash (relay : Nat)
  | purge (kind : PurgeKind) (ids : List String)

def RelayWorld.row? (world : RelayWorld) (id : String) : Option OutboxRow :=
  world.rows.find? fun row => row.id = id

/-- The rows that the table has under the ids, in that order. -/
def RelayWorld.select (world : RelayWorld) (ids : List String) : List OutboxRow :=
  ids.filterMap world.row?

/-- What the step of a worker has entered in the log. -/
def entered (pool : Pool ClaimedRow DispatchPhase) (worker : Nat) :
    List (ClaimedRow × DispatchPhase) :=
  match pool.workers[worker]? with
  | some (.busy row phase _) => [(row, phase)]
  | _ => []

/-- The table after the outcome of a worker's phase; a statement succeeds only if its row exists. -/
def recorded (config : RelayConfig) (world : RelayWorld) (worker : Option (Worker ClaimedRow
    DispatchPhase)) (outcome : DispatchOutcome) : Option (List OutboxRow) :=
  match worker with
  | some (.busy row phase _) =>
      match recordOutcome config world.now phase, outcome with
      | some change, .done =>
          if world.rows.any (·.id = row.id) then
            some (updateMany (·.id = row.id) change world.rows)
          else none
      | some change, .failed true => some (updateMany (·.id = row.id) change world.rows)
      | _, _ => some world.rows
  | _ => some world.rows

section System
variable (platform : Platform) (config : RelayConfig) (purge : PurgeConfig)

def RelayWorld.step (world : RelayWorld) : RelayAction → Option RelayWorld
  | .insert new =>
      -- identifiers are UUIDs that no row has had before
      if (new.map NewOutboxRow.id).Nodup ∧ ∀ row ∈ new, row.id ∉ world.issued then
        some { world with
          rows := world.rows ++ new.map (·.inserted world.now)
          issued := world.issued ++ new.map NewOutboxRow.id }
      else none
  | .elapse milliseconds => some { world with now := world.now + milliseconds }
  | .claim relay ids outcome =>
      -- rows that other claims have locked are skipped, so the batch is any set of claimable rows
      if world.relays relay = none ∧ ids.Nodup ∧ ids.length ≤ config.batchSize ∧
          (∀ id ∈ ids, (world.row? id).any (claimable config world.now)) then
        let rows := updateMany (·.id ∈ ids) (claim config world.now) world.rows
        let batch := ({ world with rows }.select ids).map OutboxRow.claimed
        match outcome with
        | .lost => some { world with rows }
        | .returned =>
            some { world with
              rows
              relays := Function.update world.relays relay
                (some (.start (aggregateGroups batch) (workerCount config batch))) }
      else none
  | .advance relay worker outcome => do
      let pool ← world.relays relay
      let after ← pool.advance (dispatchTask platform) worker outcome
      let rows ← recorded config world pool.workers[worker]? outcome
      pure { world with
        rows
        relays := Function.update world.relays relay (some after)
        log := world.log ++ entered after worker }
  | .finish relay =>
      match world.relays relay with
      | some pool =>
          if pool.workers.all (· matches .finished) then
            some { world with relays := Function.update world.relays relay none }
          else none
      | none => none
  | .crash relay =>
      match world.relays relay with
      | some _ => some { world with relays := Function.update world.relays relay none }
      | none => none
  | .purge kind ids =>
      if ids.length ≤ purge.batchSize ∧
          (∀ id ∈ ids, (world.row? id).any fun row => purgeable config purge world.now row kind) then
        some { world with rows := deleteMany (·.id ∈ ids) world.rows }
      else none

def outboxSystem : TransitionSystem RelayWorld RelayAction where
  initial world :=
    world.rows = [] ∧ world.issued = [] ∧ (∀ relay, world.relays relay = none) ∧ world.log = []
  step world action := world.step platform config purge action

end System
end NestjsFastify.Outbox
