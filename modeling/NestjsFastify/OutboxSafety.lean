import NestjsFastify.OutboxClaims

/-! # Safety of the outbox relay

What every run keeps, and why a row of an undisturbed run is parked: every attempt of an
unprocessed row is still being dispatched or has failed, unless the row was rejected for good.
-/
namespace NestjsFastify.Outbox
open WorkerPool (Pool Worker)
open RecordTable
open TransitionSystem (Guarded)

variable {platform : Platform} {config : RelayConfig} {purge : PurgeConfig}
  {world after : RelayWorld}

/-! ### Undisturbed runs -/

/-- No crash, no claim whose answer is lost, no statement that reports an error. -/
def RelayAction.Undisturbed : RelayAction → Prop
  | .claim _ _ outcome => outcome = .returned
  | .advance _ _ outcome => ∀ applied, outcome ≠ .failed applied
  | .crash _ => False
  | _ => True

def Undisturbed (history : List (RelayWorld × RelayAction)) : Prop :=
  Guarded (fun _ action => action.Undisturbed) history

/-- Some relay is not done with the claim. -/
def InFlight (world : RelayWorld) (key : String × Nat) : Prop :=
  ∃ relay pool, world.relays relay = some pool ∧ ∃ row ∈ pool.lanes.flatten, row.key = key

/-- The bus rejected the claim for a reason that may pass. -/
def Failed (world : RelayWorld) (key : String × Nat) : Prop :=
  ∃ row message, (row, .recording message) ∈ world.log ∧ row.key = key

/-- Some claim of the row could not be dispatched, now or ever. -/
def Condemned (world : RelayWorld) (id : String) : Prop :=
  ∃ row message, (row, .parking message) ∈ world.log ∧ row.id = id

/-- The failed publishes of a row that left it to be retried. -/
def timesFailed (world : RelayWorld) (id : String) : Nat :=
  (world.log.filter fun entry => entry.1.id = id && entry.2 matches .recording _).length

/-- While groups wait, there are workers and none of them has finished. -/
def Staffed (pool : Pool ClaimedRow DispatchPhase) : Prop :=
  pool.workers = [] ∨ .finished ∈ pool.workers → pool.waiting = []

/-- What has become of the attempts of a row. -/
def Explained (world : RelayWorld) (row : OutboxRow) : Prop :=
  Condemned world row.id ∨ ∀ attempt, 1 ≤ attempt → attempt ≤ row.attempts →
    InFlight world (row.id, attempt) ∨ Failed world (row.id, attempt)

/-- Every relay is staffed, and the attempts of every unprocessed row are explained. -/
structure Followed (world : RelayWorld) : Prop where
  staffed : ∀ relay pool, world.relays relay = some pool → Staffed pool
  explained : ∀ row ∈ world.rows, row.processedAt = none → Explained world row

theorem staffed_start (config : RelayConfig) (batch : List ClaimedRow) :
    Staffed (.start (aggregateGroups batch) (workerCount config batch)) := by
  intro idle
  by_contra groups
  have positive : 0 < workerCount config batch := workerCount_pos groups
  rcases idle with none | finished
  · simp only [Pool.start, List.replicate_eq_nil_iff] at none
    omega
  · simp [Pool.start] at finished

theorem Staffed.advanced {worker : Nat} {outcome : DispatchOutcome}
    {pool next : Pool ClaimedRow DispatchPhase} (staffed : Staffed pool)
    (advanced : pool.Advanced (dispatchTask platform) worker outcome next) : Staffed next := by
  unfold Staffed at *
  cases advanced with
  | phase workers here resumed => simpa [workers] using staffed
  | item workers here resumed => simpa [workers] using staffed
  | group workers here settled spent groups =>
    simp only [groups, workers] at staffed
    simp only [List.append_eq_nil_iff, List.cons_ne_nil, and_false, false_or, List.mem_append,
      List.mem_cons, reduceCtorEq]
    intro finished
    exact absurd (staffed (.inr (by simp; tauto))) (by simp)
  | finish workers here settled spent groups => exact fun _ => groups

/-- A staffed relay whose workers have all finished is done with its batch. -/
theorem lanes_eq_nil {pool : Pool ClaimedRow DispatchPhase} (staffed : Staffed pool)
    (finished : pool.workers.all (· matches .finished) = true) : pool.lanes.flatten = [] := by
  have all : ∀ worker ∈ pool.workers, worker = .finished := by
    intro worker member
    have := List.all_eq_true.mp finished worker member
    cases worker <;> simp_all
  have waiting : pool.waiting = [] := by
    refine staffed ?_
    cases workers : pool.workers with
    | nil => exact .inl rfl
    | cons worker others =>
      have same := all worker (workers ▸ List.mem_cons_self)
      exact .inr (same ▸ List.mem_cons_self)
  simp only [Pool.lanes, waiting, List.map_nil, List.append_nil, List.flatten_eq_nil_iff,
    List.forall_mem_map]
  intro worker member
  rw [all worker member, Worker.lane_finished]

/-! ### Attempts stay explained -/

theorem WellKept.row?_of_mem (kept : WellKept config world) {row : OutboxRow}
    (member : row ∈ world.rows) : world.row? row.id = some row := by
  cases found : world.row? row.id with
  | none =>
    have absent := List.find?_eq_none.mp found row member
    simp at absent
  | some other =>
    have same : other.id = row.id := by simpa using List.find?_some found
    rw [kept.row_eq (List.mem_of_find?_eq_some found) member same]

theorem Failed.mono {key : String × Nat} (failed : Failed world key)
    (log : world.log ⊆ after.log) : Failed after key := by
  obtain ⟨row, message, logged, same⟩ := failed
  exact ⟨row, message, log logged, same⟩

theorem Condemned.mono {id : String} (condemned : Condemned world id)
    (log : world.log ⊆ after.log) : Condemned after id := by
  obtain ⟨row, message, logged, same⟩ := condemned
  exact ⟨row, message, log logged, same⟩

/-- Whatever a step does with a claim in flight, it stays explained if the claim stays in flight or
has failed. -/
theorem Explained.mono {row : OutboxRow} (explained : Explained world row)
    (log : world.log ⊆ after.log)
    (flights : ∀ attempt, InFlight world (row.id, attempt) →
      InFlight after (row.id, attempt) ∨ Failed after (row.id, attempt)) :
    Explained after row := by
  rcases explained with condemned | attempts
  · exact .inl (condemned.mono log)
  · refine .inr fun attempt positive bound => ?_
    rcases attempts attempt positive bound with inFlight | failed
    · exact flights attempt inFlight
    · exact .inr (failed.mono log)

/-- The relays go on as they are. -/
theorem Followed.of_relays (followed : Followed world) (log : after.log = world.log)
    (relays : after.relays = world.relays)
    (rows : ∀ row ∈ after.rows, row.processedAt = none →
      row.attempts = 0 ∨ row ∈ world.rows) : Followed after where
  staffed := relays ▸ followed.staffed
  explained := by
    intro row member unprocessed
    rcases rows row member unprocessed with unclaimed | old
    · exact .inr fun attempt positive bound => by omega
    · refine (followed.explained row old unprocessed).mono (log ▸ fun _ logged => logged) ?_
      rintro attempt ⟨relay, pool, there, rest⟩
      exact .inl ⟨relay, pool, relays ▸ there, rest⟩

/-- A claim in flight stays so, or a worker is done with it. -/
theorem InFlight.advanced {relay worker : Nat} {outcome : DispatchOutcome}
    {pool next : Pool ClaimedRow DispatchPhase} {key : String × Nat} {rows : List OutboxRow}
    {log : List (ClaimedRow × DispatchPhase)} (inFlight : InFlight world key)
    (dispatching : world.relays relay = some pool)
    (advanced : pool.Advanced (dispatchTask platform) worker outcome next) :
    InFlight { world with rows, log, relays := Function.update world.relays relay (some next) }
        key ∨
      ∃ row phase rest, pool.workers[worker]? = some (.busy row phase rest) ∧ row.key = key ∧
        resumeDispatch phase outcome = some none := by
  obtain ⟨other, pool', there, row, member, rfl⟩ := inFlight
  by_cases here : other = relay
  · subst here
    obtain rfl : pool = pool' := Option.some.inj (dispatching.symm.trans there)
    rcases advanced.leaves member with stays | ⟨phase, rest, busy, resumed⟩
    · exact .inl ⟨other, next, Function.update_self _ _ _, row, stays, rfl⟩
    · exact .inr ⟨row, phase, rest, busy, rfl, resumed⟩
  · exact .inl ⟨other, pool', (Function.update_of_ne here _ _).trans there, row, member, rfl⟩

/-- A phase that ends a dispatch without an error has applied its statement. -/
theorem statement_of_done {phase : DispatchPhase} {outcome : DispatchOutcome} (now : Nat)
    (resumed : resumeDispatch phase outcome = some none)
    (undisturbed : ∀ applied, outcome ≠ .failed applied) :
    recordOutcome config now phase ≠ none ∧ outcome = .done := by
  cases phase <;> cases outcome <;> simp_all [resumeDispatch, recordOutcome]

private theorem followed_advance (accounted : Accounted config world) (followed : Followed world)
    {relay worker : Nat} {outcome : DispatchOutcome} {pool next : Pool ClaimedRow DispatchPhase}
    {rows : List OutboxRow} (dispatching : world.relays relay = some pool)
    (advanced : pool.Advanced (dispatchTask platform) worker outcome next)
    (written : recorded config world pool.workers[worker]? outcome = some rows)
    (undisturbed : ∀ applied, outcome ≠ .failed applied) :
    Followed { world with
      rows
      relays := Function.update world.relays relay (some next)
      log := world.log ++ entered next worker } := by
  have log : world.log ⊆ world.log ++ entered next worker := List.subset_append_left _ _
  constructor
  · intro other pool' there
    simp only [Function.update_apply] at there
    split at there
    · obtain rfl := Option.some.inj there
      exact (followed.staffed relay pool dispatching).advanced advanced
    · exact followed.staffed other pool' there
  rcases recorded_cases written with ⟨rfl, silent⟩ | ⟨dispatched, phase, rest, change, busy,
    changes, rfl⟩
  · intro row member unprocessed
    refine (followed.explained row member unprocessed).mono log fun attempt inFlight => ?_
    rcases inFlight.advanced dispatching advanced with stays | ⟨row', phase, rest, busy, -, resumed⟩
    · exact .inl stays
    · obtain ⟨statement, done⟩ : recordOutcome config world.now phase ≠ none ∧ _ :=
        statement_of_done world.now resumed undisturbed
      rcases silent row' phase rest busy with none | notDone
      · exact absurd none statement
      · exact absurd done notDone
  · intro row member unprocessed
    obtain ⟨old, oldMem, rfl⟩ := mem_updateMany.mp member
    have logged : (dispatched, phase) ∈ world.log :=
      accounted.entered relay pool dispatching dispatched phase rest (List.mem_of_getElem? busy)
    -- the flights that end are those of the dispatched row
    have flights : ∀ key, InFlight world key → InFlight { world with
        rows := updateMany (fun row => decide (row.id = dispatched.id)) change world.rows
        relays := Function.update world.relays relay (some next)
        log := world.log ++ entered next worker } key ∨ key = dispatched.key := by
      intro key inFlight
      rcases inFlight.advanced dispatching advanced with stays | ⟨row', _, _, busy', same, -⟩
      · exact .inl stays
      · obtain ⟨rfl, -, -⟩ := Worker.busy.inj (Option.some.inj (busy.symm.trans busy'))
        exact .inr same.symm
    by_cases same : old.id = dispatched.id
    · simp only [same, decide_true, if_true] at unprocessed ⊢
      cases phase with
      | publishing event => simp [recordOutcome] at changes
      | marking =>
        obtain rfl := Option.some.inj changes
        simp at unprocessed
      | parking message =>
        obtain rfl := Option.some.inj changes
        exact .inl ⟨dispatched, message, log logged, same.symm⟩
      | recording message =>
        obtain rfl := Option.some.inj changes
        have before : Explained world old := followed.explained old oldMem unprocessed
        refine before.mono log fun attempt inFlight => ?_
        rcases flights _ inFlight with stays | ended
        · exact .inl stays
        · exact .inr ⟨dispatched, message, log logged, ended.symm⟩
    · simp only [same, decide_false, Bool.false_eq_true, if_false] at unprocessed ⊢
      refine (followed.explained old oldMem unprocessed).mono log fun attempt inFlight => ?_
      rcases flights _ inFlight with stays | ended
      · exact .inl stays
      · exact absurd (Prod.mk.inj ended).1 same

private theorem followed_claim (followed : Followed world) {relay : Nat} {ids : List String}
    {rows : List OutboxRow} {batch : List ClaimedRow} (free : world.relays relay = none)
    (updated : rows = updateMany (·.id ∈ ids) (claim config world.now) world.rows)
    (returned : batch = ({ world with rows }.select ids).map OutboxRow.claimed)
    (kept : WellKept config { world with rows }) :
    Followed { world with
      rows
      relays := Function.update world.relays relay
        (some (.start (aggregateGroups batch) (workerCount config batch))) } := by
  have stays : ∀ key, InFlight world key → InFlight { world with
      rows
      relays := Function.update world.relays relay
        (some (.start (aggregateGroups batch) (workerCount config batch))) } key := by
    rintro key ⟨other, pool, there, rest⟩
    have different : other ≠ relay := by
      rintro rfl
      simp [free] at there
    exact ⟨other, pool, (Function.update_of_ne different _ _).trans there, rest⟩
  constructor
  · intro other pool there
    simp only [Function.update_apply] at there
    split at there
    · obtain rfl := Option.some.inj there
      exact staffed_start config batch
    · exact followed.staffed other pool there
  · intro row member unprocessed
    obtain ⟨old, oldMem, here⟩ := mem_updateMany.mp (updated ▸ member)
    by_cases chosen : old.id ∈ ids
    · rw [if_pos (by simpa using chosen)] at here
      have before : Explained world old :=
        followed.explained old oldMem (by rw [← here] at unprocessed; exact unprocessed)
      rcases before with condemned | attempts
      · exact .inl (by rw [← here]; exact condemned)
      refine .inr fun attempt positive bound => ?_
      have count : row.attempts = old.attempts + 1 := by rw [← here]; rfl
      have sameId : row.id = old.id := by rw [← here]; rfl
      by_cases earlier : attempt ≤ old.attempts
      · rw [sameId]
        exact (attempts attempt positive earlier).imp (stays _) fun failed => failed
      -- the new attempt is one of the batch
      · have found : ({ world with rows } : RelayWorld).row? row.id = some row :=
          kept.row?_of_mem member
        have inBatch : row.claimed ∈ batch := by
          rw [returned]
          refine List.mem_map_of_mem (List.mem_filterMap.mpr ⟨row.id, ?_, found⟩)
          rw [sameId]
          exact chosen
        refine .inl ⟨relay, _, Function.update_self _ _ _, row.claimed, ?_, ?_⟩
        · exact Pool.mem_lanes_of_remaining ((remaining_start batch _).mem_iff.mpr inBatch)
        · exact Prod.ext rfl (by simp only [OutboxRow.claimed, ClaimedRow.key]; omega)
    · rw [if_neg (by simpa using chosen)] at here
      subst here
      exact (followed.explained old oldMem unprocessed).mono (fun _ logged => logged)
        fun attempt inFlight => .inl (stays _ inFlight)

section Runs
variable {history : List (RelayWorld × RelayAction)}

theorem followed_of_run (run : (outboxSystem platform config purge).Run history world)
    (undisturbed : Undisturbed history) : Followed world := by
  induction run with
  | start initial =>
    obtain ⟨rows, -, relays, -⟩ := initial
    constructor <;> simp [rows, relays]
  | step run taken ih =>
    have followed := ih fun entry member => undisturbed entry (List.mem_cons_of_mem _ member)
    have here := undisturbed _ List.mem_cons_self
    have keptAfter := (evolves_of_step (wellKept_of_run run) (relayStep_of_step taken)).2
    cases relayStep_of_step taken with
    | insert =>
      refine followed.of_relays rfl rfl fun row member _ => ?_
      rcases List.mem_append.mp member with old | inserted
      · exact .inr old
      · obtain ⟨source, -, rfl⟩ := List.mem_map.mp inserted
        exact .inl rfl
    | elapse => exact followed.of_relays rfl rfl fun row member _ => .inr member
    | lost => simp [RelayAction.Undisturbed] at here
    | claim free distinct selected updated returned =>
      refine followed_claim followed free updated returned ?_
      exact ⟨keptAfter.unique, keptAfter.issued, keptAfter.attempts⟩
    | advance dispatching advanced written =>
      exact followed_advance (accounted_of_run run) followed dispatching
        (Pool.advanced_of_advance advanced) written here
    | @finish relay pool dispatching finished =>
      have nothing := lanes_eq_nil (followed.staffed relay pool dispatching) finished
      constructor
      · intro other pool' there
        simp only [Function.update_apply] at there
        split at there
        · simp at there
        · exact followed.staffed other pool' there
      · intro row member unprocessed
        refine (followed.explained row member unprocessed).mono (fun _ logged => logged) ?_
        rintro attempt ⟨other, pool', there, row', rowMem, same⟩
        have different : other ≠ relay := by
          rintro rfl
          obtain rfl : pool = pool' := Option.some.inj (dispatching.symm.trans there)
          simp [nothing] at rowMem
        exact .inl ⟨other, pool', (Function.update_of_ne different _ _).trans there, row', rowMem,
          same⟩
    | crash => exact here.elim
    | purge =>
      exact followed.of_relays rfl rfl fun row member _ => .inr (mem_deleteMany.mp member).1

/-- The retry of a row is never farther away than the longest wait. -/
def RetriedSoon (config : RelayConfig) (world : RelayWorld) : Prop :=
  ∀ row ∈ world.rows, ∀ next ∈ row.nextAttemptAt, next ≤ world.now + config.retryMaxMs

theorem retriedSoon_of_run (run : (outboxSystem platform config purge).Run history world) :
    RetriedSoon config world := by
  refine run.invariant ?_ ?_
  · rintro state ⟨rows, -⟩
    simp [RetriedSoon, rows]
  · intro before action after soon taken
    have claims : ∀ (ids : List String), ∀ row ∈ updateMany (·.id ∈ ids)
        (claim config before.now) before.rows, ∀ next ∈ row.nextAttemptAt,
        next ≤ before.now + config.retryMaxMs := by
      intro ids row member
      obtain ⟨old, oldMem, rfl⟩ := mem_updateMany.mp member
      split
      · intro next due
        obtain rfl : before.now + retryDelay config old.attempts = next := Option.some.inj due
        exact Nat.add_le_add_left (Nat.min_le_right _ _) _
      · exact soon old oldMem
    cases relayStep_of_step taken with
    | insert =>
      intro row member
      rcases List.mem_append.mp member with old | inserted
      · exact soon row old
      · obtain ⟨source, -, rfl⟩ := List.mem_map.mp inserted
        simp [NewOutboxRow.inserted]
    | elapse =>
      intro row member next due
      have := soon row member next due
      simp only
      omega
    | @lost _ ids => exact claims ids
    | @claim _ ids rows batch free distinct selected updated returned => exact updated ▸ claims ids
    | advance dispatching advanced written =>
      rcases recorded_cases written with ⟨rfl, -⟩ | ⟨dispatched, phase, rest, change, -, changes,
        rfl⟩
      · exact soon
      · intro row member
        obtain ⟨old, oldMem, rfl⟩ := mem_updateMany.mp member
        split
        · cases phase <;> simp only [recordOutcome, Option.some.injEq, reduceCtorEq] at changes <;>
            subst changes
          · simp
          · exact soon old oldMem
          · exact soon old oldMem
        · exact soon old oldMem
    | finish | crash => exact soon
    | purge => exact fun row member => soon row (mem_deleteMany.mp member).1

/-- When nothing of it is in flight, a parked row has had its failures. -/
theorem le_timesFailed {id : String}
    (failed : ∀ attempt, 1 ≤ attempt → attempt ≤ config.maxAttempts → Failed world (id, attempt)) :
    config.maxAttempts ≤ timesFailed world id := by
  have subset : List.range' 1 config.maxAttempts ⊆
      (world.log.filter fun entry => entry.1.id = id && entry.2 matches .recording _).map
        fun entry => entry.1.attempts := by
    intro attempt member
    obtain ⟨positive, bound⟩ := List.mem_range'_1.mp member
    obtain ⟨row, message, logged, same⟩ := failed attempt positive (by omega)
    obtain ⟨sameId, sameAttempt⟩ := Prod.mk.inj same
    refine List.mem_map.mpr ⟨(row, .recording message), List.mem_filter.mpr ⟨logged, ?_⟩,
      sameAttempt⟩
    simpa using sameId
  have counted := (List.subperm_of_subset List.nodup_range' subset).length_le
  simpa [timesFailed] using counted

/-! ### Every run -/

/-- The laws of the relay after a run. -/
structure OutboxSafety (platform : Platform) (config : RelayConfig) (purge : PurgeConfig)
    (history : List (RelayWorld × RelayAction)) (world : RelayWorld) : Prop where
  attempts_le : ∀ row ∈ world.rows, row.attempts ≤ config.maxAttempts
  handed_le : ∀ id, timesHanded world id ≤ config.maxAttempts
  processed_not_claimed : ∀ row, row ∈ world.rows ∨ (∃ entry ∈ history, row ∈ entry.1.rows) →
    row.processedAt.isSome = true → ∀ relay ids outcome after,
      world.step platform config purge (.claim relay ids outcome) = some after → row.id ∉ ids
  deleted_settled : ∀ action after, world.step platform config purge action = some after →
    ∀ row ∈ world.rows, (∀ other ∈ after.rows, other.id ≠ row.id) →
      row.processedAt.isSome = true ∨ Parked config row
  claimable_again : ∀ row ∈ world.rows, row.processedAt = none → ¬ Parked config row →
    ∀ now, (∀ next ∈ row.nextAttemptAt, next ≤ now) → claimable config now row = true
  retried_soon : RetriedSoon config world
  parked_explained : Undisturbed history →
    ∀ row ∈ world.rows, Parked config row → Condemned world row.id ∨
      ∀ attempt, 1 ≤ attempt → attempt ≤ config.maxAttempts →
        InFlight world (row.id, attempt) ∨ Failed world (row.id, attempt)
  parked_failed : Undisturbed history →
    ∀ row ∈ world.rows, Parked config row → (∀ attempt, ¬ InFlight world (row.id, attempt)) →
      Condemned world row.id ∨ config.maxAttempts ≤ timesFailed world row.id

end Runs

/-! ### The last attempt -/

def sampleRow : NewOutboxRow :=
  { id := "1", organizationId := none, eventType := "users.updated", aggregateId := "user"
    payload := .object
      [("eventId", .string "1"), ("occurredAt", .string "1"), ("payload", .object [])] }

def emptyRelayWorld : RelayWorld := ⟨[], [], 0, fun _ => none, []⟩

end NestjsFastify.Outbox
