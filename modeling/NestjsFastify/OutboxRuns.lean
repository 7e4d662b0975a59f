import NestjsFastify.OutboxRelay

/-! # Runs of the outbox relay

What a step does to the table is said once; from it come the bound on the attempts of a row, that
a processed row stays processed, and which rows are deleted.
-/
namespace NestjsFastify.Outbox
open WorkerPool (Pool Worker)
open RecordTable

variable {platform : Platform} {config : RelayConfig} {purge : PurgeConfig}
  {world after : RelayWorld}

/-! ### Steps -/

/-- What a step can do. -/
inductive RelayStep (platform : Platform) (config : RelayConfig) (purge : PurgeConfig)
    (world : RelayWorld) : RelayAction → RelayWorld → Prop
  | insert {new : List NewOutboxRow} (distinct : (new.map NewOutboxRow.id).Nodup)
      (fresh : ∀ row ∈ new, row.id ∉ world.issued) :
      RelayStep platform config purge world (.insert new)
        { world with
          rows := world.rows ++ new.map (·.inserted world.now)
          issued := world.issued ++ new.map NewOutboxRow.id }
  | elapse {milliseconds : Nat} :
      RelayStep platform config purge world (.elapse milliseconds)
        { world with now := world.now + milliseconds }
  | lost {relay : Nat} {ids : List String} (distinct : ids.Nodup)
      (selected : ∀ id ∈ ids, (world.row? id).any (claimable config world.now) = true) :
      RelayStep platform config purge world (.claim relay ids .lost)
        { world with rows := updateMany (·.id ∈ ids) (claim config world.now) world.rows }
  | claim {relay : Nat} {ids : List String} {rows : List OutboxRow} {batch : List ClaimedRow}
      (free : world.relays relay = none) (distinct : ids.Nodup)
      (selected : ∀ id ∈ ids, (world.row? id).any (claimable config world.now) = true)
      (updated : rows = updateMany (·.id ∈ ids) (claim config world.now) world.rows)
      (returned : batch = ({ world with rows }.select ids).map OutboxRow.claimed) :
      RelayStep platform config purge world (.claim relay ids .returned)
        { world with
          rows
          relays := Function.update world.relays relay
            (some (.start (aggregateGroups batch) (workerCount config batch))) }
  | advance {relay worker : Nat} {outcome : DispatchOutcome}
      {pool next : Pool ClaimedRow DispatchPhase} {rows : List OutboxRow}
      (dispatching : world.relays relay = some pool)
      (advanced : pool.advance (dispatchTask platform) worker outcome = some next)
      (written : recorded config world pool.workers[worker]? outcome = some rows) :
      RelayStep platform config purge world (.advance relay worker outcome)
        { world with
          rows
          relays := Function.update world.relays relay (some next)
          log := world.log ++ entered next worker }
  | finish {relay : Nat} {pool : Pool ClaimedRow DispatchPhase}
      (dispatching : world.relays relay = some pool)
      (finished : pool.workers.all (· matches .finished) = true) :
      RelayStep platform config purge world (.finish relay)
        { world with relays := Function.update world.relays relay none }
  | crash {relay : Nat} {pool : Pool ClaimedRow DispatchPhase}
      (dispatching : world.relays relay = some pool) :
      RelayStep platform config purge world (.crash relay)
        { world with relays := Function.update world.relays relay none }
  | purge {kind : PurgeKind} {ids : List String}
      (selected : ∀ id ∈ ids, (world.row? id).any
        (fun row => purgeable config purge world.now row kind) = true) :
      RelayStep platform config purge world (.purge kind ids)
        { world with rows := deleteMany (·.id ∈ ids) world.rows }

theorem relayStep_of_step {action : RelayAction}
    (taken : world.step platform config purge action = some after) :
    RelayStep platform config purge world action after := by
  cases action with
  | insert new =>
    simp only [RelayWorld.step] at taken
    split at taken
    · rename_i allowed
      obtain rfl := Option.some.inj taken
      exact .insert allowed.1 allowed.2
    · simp at taken
  | elapse milliseconds =>
    obtain rfl := Option.some.inj taken
    exact .elapse
  | claim relay ids outcome =>
    simp only [RelayWorld.step] at taken
    split at taken
    · rename_i allowed
      obtain ⟨free, distinct, -, selected⟩ := allowed
      cases outcome with
      | lost =>
        obtain rfl := Option.some.inj taken
        exact .lost distinct selected
      | returned =>
        obtain rfl := Option.some.inj taken
        exact .claim free distinct selected rfl rfl
    · simp at taken
  | advance relay worker outcome =>
    simp only [RelayWorld.step, Option.bind_eq_bind, Option.pure_def,
      Option.bind_eq_some_iff] at taken
    obtain ⟨pool, dispatching, next, advanced, rows, written, same⟩ := taken
    obtain rfl := Option.some.inj same
    exact .advance dispatching advanced written
  | finish relay =>
    cases dispatching : world.relays relay with
    | none => simp [RelayWorld.step, dispatching] at taken
    | some pool =>
      simp only [RelayWorld.step, dispatching] at taken
      split at taken
      · rename_i finished
        obtain rfl := Option.some.inj taken
        exact .finish dispatching finished
      · simp at taken
  | crash relay =>
    cases dispatching : world.relays relay with
    | none => simp [RelayWorld.step, dispatching] at taken
    | some pool =>
      simp only [RelayWorld.step, dispatching] at taken
      obtain rfl := Option.some.inj taken
      exact .crash dispatching
  | purge kind ids =>
    simp only [RelayWorld.step] at taken
    split at taken
    · rename_i allowed
      obtain rfl := Option.some.inj taken
      exact .purge allowed.2
    · simp at taken

/-- What the outcome of a phase writes: nothing, or the change of the phase to the dispatched
row. -/
theorem recorded_cases {worker : Option (Worker ClaimedRow DispatchPhase)}
    {outcome : DispatchOutcome} {rows : List OutboxRow}
    (written : recorded config world worker outcome = some rows) :
    (rows = world.rows ∧ ∀ row phase rest, worker = some (.busy row phase rest) →
        recordOutcome config world.now phase = none ∨ outcome ≠ .done) ∨
      ∃ row phase rest change, worker = some (.busy row phase rest) ∧
        recordOutcome config world.now phase = some change ∧
        rows = updateMany (·.id = row.id) change world.rows := by
  unfold recorded at written
  split at written
  · rename_i row phase rest
    cases changes : recordOutcome config world.now phase with
    | none =>
      rw [changes] at written
      refine .inl ⟨(Option.some.inj written).symm, fun _ _ _ same => ?_⟩
      obtain ⟨-, rfl, -⟩ := Worker.busy.inj (Option.some.inj same)
      exact .inl changes
    | some change =>
      have updated : updateMany (·.id = row.id) change world.rows = rows →
          ∃ row' phase' rest' change', some (Worker.busy row phase rest) =
              some (.busy row' phase' rest') ∧
            recordOutcome config world.now phase' = some change' ∧
            rows = updateMany (·.id = row'.id) change' world.rows :=
        fun same => ⟨row, phase, rest, change, rfl, changes, same.symm⟩
      rw [changes] at written
      cases outcome with
      | done =>
        simp only at written
        split at written
        · exact .inr (updated (Option.some.inj written))
        · simp at written
      | rejected failure summary =>
        exact .inl ⟨(Option.some.inj written).symm, by simp⟩
      | failed applied =>
        cases applied with
        | true => exact .inr (updated (Option.some.inj written))
        | false => exact .inl ⟨(Option.some.inj written).symm, by simp⟩
  · rename_i other
    exact .inl ⟨(Option.some.inj written).symm, fun row phase rest same =>
      absurd same (other row phase rest)⟩

/-! ### The table -/

/-- What the changes of a row have in common. -/
structure Revision (config : RelayConfig) (row revised : OutboxRow) : Prop where
  id : revised.id = row.id
  attempts : row.attempts ≤ revised.attempts
  bound : revised.attempts ≤ config.maxAttempts
  processed : row.processedAt.isSome = true → revised.processedAt.isSome = true

theorem revision_of_record {now : Nat} {phase : DispatchPhase} {change : OutboxRow → OutboxRow}
    (changes : recordOutcome config now phase = some change) {row : OutboxRow}
    (bound : row.attempts ≤ config.maxAttempts) : Revision config row (change row) := by
  cases phase with
  | publishing => simp [recordOutcome] at changes
  | marking =>
    obtain rfl := Option.some.inj changes
    exact ⟨rfl, Nat.le_refl _, bound, fun _ => rfl⟩
  | parking =>
    obtain rfl := Option.some.inj changes
    exact ⟨rfl, bound, Nat.le_refl _, fun processed => processed⟩
  | recording =>
    obtain rfl := Option.some.inj changes
    exact ⟨rfl, Nat.le_refl _, bound, fun processed => processed⟩

theorem revision_of_claim {now : Nat} {row : OutboxRow}
    (selected : claimable config now row = true) :
    Revision config row (claim config now row) := by
  simp only [claimable, Bool.and_eq_true, decide_eq_true_eq] at selected
  exact ⟨rfl, Nat.le_succ _, selected.1.2, fun processed => processed⟩

/-- Rows have distinct ids, all of them issued, and attempts within the bound. -/
structure WellKept (config : RelayConfig) (world : RelayWorld) : Prop where
  unique : (world.rows.map OutboxRow.id).Nodup
  issued : ∀ row ∈ world.rows, row.id ∈ world.issued
  attempts : ∀ row ∈ world.rows, row.attempts ≤ config.maxAttempts

/-- What a step does to the table: ids stay issued, and a row under an issued id was there before
and is a revision of what it was. -/
structure Evolves (config : RelayConfig) (world after : RelayWorld) : Prop where
  issued : world.issued ⊆ after.issued
  revised : ∀ row ∈ after.rows, row.id ∈ world.issued →
    ∃ old ∈ world.rows, Revision config old row

theorem Revision.refl {row : OutboxRow} (bound : row.attempts ≤ config.maxAttempts) :
    Revision config row row := ⟨rfl, Nat.le_refl _, bound, fun processed => processed⟩

theorem WellKept.row_eq (kept : WellKept config world) {row other : OutboxRow}
    (member : row ∈ world.rows) (otherMem : other ∈ world.rows) (same : row.id = other.id) :
    row = other :=
  List.inj_on_of_nodup_map kept.unique member otherMem same

/-- A selected id stands for the row that has it. -/
theorem WellKept.selected (kept : WellKept config world) {ids : List String}
    {test : OutboxRow → Bool} (selected : ∀ id ∈ ids, (world.row? id).any test = true)
    {row : OutboxRow} (member : row ∈ world.rows) (chosen : row.id ∈ ids) : test row = true := by
  obtain ⟨found, here, passes⟩ := (Option.any_eq_true _ _).mp (selected _ chosen)
  have same : found.id = row.id := by simpa using List.find?_some here
  rwa [kept.row_eq (List.mem_of_find?_eq_some here) member same] at passes

/-- An update that revises the rows it selects. -/
private theorem evolves_update (kept : WellKept config world) {selects : OutboxRow → Bool}
    {change : OutboxRow → OutboxRow}
    (revises : ∀ row ∈ world.rows, selects row = true → Revision config row (change row))
    {relays : Nat → Option (Pool ClaimedRow DispatchPhase)}
    {log : List (ClaimedRow × DispatchPhase)} :
    Evolves config world
      { world with rows := updateMany selects change world.rows, relays, log } ∧
    WellKept config { world with rows := updateMany selects change world.rows, relays, log } := by
  have revision : ∀ row ∈ world.rows,
      Revision config row (if selects row then change row else row) := by
    intro row member
    split
    · exact revises row member ‹_›
    · exact .refl (kept.attempts row member)
  have ids : (updateMany selects change world.rows).map OutboxRow.id =
      world.rows.map OutboxRow.id := by
    simp only [updateMany, List.map_map]
    exact List.map_congr_left fun row member => (revision row member).id
  refine ⟨⟨fun _ member => member, ?_⟩, ⟨ids ▸ kept.unique, ?_, ?_⟩⟩
  · intro row member _
    obtain ⟨old, oldMem, rfl⟩ := mem_updateMany.mp member
    exact ⟨old, oldMem, revision old oldMem⟩
  · intro row member
    obtain ⟨old, oldMem, rfl⟩ := mem_updateMany.mp member
    exact (revision old oldMem).id ▸ kept.issued old oldMem
  · intro row member
    obtain ⟨old, oldMem, rfl⟩ := mem_updateMany.mp member
    exact (revision old oldMem).bound

/-- Rows that stay as they are, some of them perhaps gone. -/
private theorem evolves_sublist (kept : WellKept config world) {rows : List OutboxRow}
    (sublist : rows.Sublist world.rows) {now : Nat}
    {relays : Nat → Option (Pool ClaimedRow DispatchPhase)}
    {log : List (ClaimedRow × DispatchPhase)} :
    Evolves config world { world with rows, now, relays, log } ∧
    WellKept config { world with rows, now, relays, log } := by
  refine ⟨⟨fun _ member => member, fun row member _ => ?_⟩, ⟨?_, ?_, ?_⟩⟩
  · exact ⟨row, sublist.subset member, .refl (kept.attempts row (sublist.subset member))⟩
  · exact kept.unique.sublist (sublist.map _)
  · exact fun row member => kept.issued row (sublist.subset member)
  · exact fun row member => kept.attempts row (sublist.subset member)

theorem evolves_of_step {action : RelayAction} (kept : WellKept config world)
    (taken : RelayStep platform config purge world action after) :
    Evolves config world after ∧ WellKept config after := by
  cases taken with
  | @insert new distinct fresh =>
    have issuedOf : ∀ row ∈ new.map (·.inserted world.now), row.id ∈ new.map NewOutboxRow.id := by
      simp only [List.forall_mem_map]
      exact fun row member => List.mem_map_of_mem member
    refine ⟨⟨List.subset_append_left _ _, ?_⟩, ⟨?_, ?_, ?_⟩⟩
    · intro row member wasIssued
      rcases List.mem_append.mp member with old | inserted
      · exact ⟨row, old, .refl (kept.attempts row old)⟩
      · obtain ⟨source, sourceMem, rfl⟩ := List.mem_map.mp inserted
        exact absurd wasIssued (fresh source sourceMem)
    · simp only [List.map_append, List.map_map]
      refine List.nodup_append.mpr ⟨kept.unique, distinct, ?_⟩
      rintro id oldMem _ newMem rfl
      obtain ⟨old, oldRow, rfl⟩ := List.mem_map.mp oldMem
      obtain ⟨source, sourceMem, same⟩ := List.mem_map.mp newMem
      exact fresh source sourceMem ((show source.id = old.id from same) ▸ kept.issued old oldRow)
    · intro row member
      rcases List.mem_append.mp member with old | inserted
      · exact List.mem_append_left _ (kept.issued row old)
      · exact List.mem_append_right _ (issuedOf row inserted)
    · intro row member
      rcases List.mem_append.mp member with old | inserted
      · exact kept.attempts row old
      · obtain ⟨source, -, rfl⟩ := List.mem_map.mp inserted
        exact Nat.zero_le _
  | elapse => exact evolves_sublist kept (List.Sublist.refl _)
  | lost distinct selected =>
    refine evolves_update kept fun row member chosen => ?_
    exact revision_of_claim (kept.selected selected member (by simpa using chosen))
  | claim free distinct selected updated returned =>
    subst updated
    refine evolves_update kept fun row member chosen => ?_
    exact revision_of_claim (kept.selected selected member (by simpa using chosen))
  | advance dispatching advanced written =>
    rcases recorded_cases written with ⟨rfl, -⟩ | ⟨row, phase, rest, change, -, changes, rfl⟩
    · exact evolves_sublist kept (List.Sublist.refl _)
    · exact evolves_update kept fun row member _ =>
        revision_of_record changes (kept.attempts row member)
  | finish dispatching finished => exact evolves_sublist kept (List.Sublist.refl _)
  | crash dispatching => exact evolves_sublist kept (List.Sublist.refl _)
  | purge selected => exact evolves_sublist kept List.filter_sublist

section Runs
variable {history : List (RelayWorld × RelayAction)}

theorem wellKept_of_run (run : (outboxSystem platform config purge).Run history world) :
    WellKept config world := by
  refine run.invariant ?_ ?_
  · rintro state ⟨rows, -, -, -⟩
    exact ⟨by simp [rows], by simp [rows], by simp [rows]⟩
  · intro before action after kept taken
    exact (evolves_of_step kept (relayStep_of_step taken)).2

/-- Once processed, a row stays so as long as it is there, and its id never comes back. -/
def Settled (id : String) (world : RelayWorld) : Prop :=
  id ∈ world.issued ∧ ∀ row ∈ world.rows, row.id = id → row.processedAt.isSome = true

theorem Settled.step {id : String} (settled : Settled id world)
    (evolves : Evolves config world after) : Settled id after := by
  refine ⟨evolves.issued settled.1, ?_⟩
  rintro row member rfl
  obtain ⟨old, oldMem, revision⟩ := evolves.revised row member settled.1
  exact revision.processed (settled.2 old oldMem revision.id.symm)

/-- No claim takes a settled row. -/
theorem not_claimed_of_settled {id : String}
    (settled : Settled id world) {relay : Nat} {ids : List String} {outcome : ClaimOutcome}
    (taken : world.step platform config purge (.claim relay ids outcome) = some after) :
    id ∉ ids := by
  intro chosen
  have selected : ∀ id ∈ ids, (world.row? id).any (claimable config world.now) = true := by
    cases relayStep_of_step taken with
    | lost distinct selected => exact selected
    | claim free distinct selected updated returned => exact selected
  obtain ⟨row, found, claimed⟩ := (Option.any_eq_true _ _).mp (selected id chosen)
  have same : row.id = id := by simpa using List.find?_some found
  have processed := settled.2 row (List.mem_of_find?_eq_some found) same
  simp only [claimable, Bool.and_eq_true, Option.isNone_iff_eq_none] at claimed
  simp [claimed.1.1] at processed

theorem settled_of_mem (run : (outboxSystem platform config purge).Run history world)
    {entry : RelayWorld × RelayAction} (member : entry ∈ history) {row : OutboxRow}
    (present : row ∈ entry.1.rows) (processed : row.processedAt.isSome = true) :
    Settled row.id world := by
  refine run.stable (Settled row.id) ?_ member ?_
  · rintro before action after ⟨earlier, earlierRun⟩ settled taken
    exact settled.step (evolves_of_step (wellKept_of_run earlierRun) (relayStep_of_step taken)).1
  · obtain ⟨earlier, earlierRun⟩ := run.reachable_of_mem member
    have kept := wellKept_of_run earlierRun
    refine ⟨kept.issued row present, fun other otherMem same => ?_⟩
    rw [kept.row_eq otherMem present same]
    exact processed

/-- A deleted row was processed or parked. -/
theorem deleted_cases (kept : WellKept config world) {action : RelayAction}
    (taken : world.step platform config purge action = some after) {row : OutboxRow}
    (member : row ∈ world.rows) (gone : ∀ other ∈ after.rows, other.id ≠ row.id) :
    row.processedAt.isSome = true ∨ Parked config row := by
  have updated : ∀ (selects : OutboxRow → Bool) (change : OutboxRow → OutboxRow),
      (∀ row, (change row).id = row.id) →
      ∃ other ∈ updateMany selects change world.rows, other.id = row.id := by
    intro selects change same
    refine ⟨_, mem_updateMany.mpr ⟨row, member, rfl⟩, ?_⟩
    split
    · exact same row
    · rfl
  cases relayStep_of_step taken with
  | insert => exact absurd rfl (gone row (List.mem_append_left _ member))
  | elapse => exact absurd rfl (gone row member)
  | @lost _ ids =>
    obtain ⟨other, otherMem, same⟩ := updated (·.id ∈ ids) (claim config world.now) fun _ => rfl
    exact absurd same (gone other otherMem)
  | @claim _ ids rows batch free distinct selected same returned =>
    subst same
    obtain ⟨other, otherMem, same⟩ := updated (·.id ∈ ids) (claim config world.now) fun _ => rfl
    exact absurd same (gone other otherMem)
  | advance dispatching advanced written =>
    rcases recorded_cases written with ⟨rfl, -⟩ | ⟨dispatched, phase, rest, change, -, changes, rfl⟩
    · exact absurd rfl (gone row member)
    · have sameId : ∀ row, (change row).id = row.id := by
        intro row
        cases phase <;> simp only [recordOutcome, Option.some.injEq, reduceCtorEq] at changes <;>
          subst changes <;> rfl
      obtain ⟨other, otherMem, same⟩ := updated (·.id = dispatched.id) change sameId
      exact absurd same (gone other otherMem)
  | finish => exact absurd rfl (gone row member)
  | crash => exact absurd rfl (gone row member)
  | @purge kind ids selected =>
    have chosen : row.id ∈ ids := by
      by_contra other
      exact gone row (mem_deleteMany.mpr ⟨member, by simpa using other⟩) rfl
    have passes := kept.selected selected member chosen
    cases kind with
    | processed =>
      simp only [purgeable, Bool.and_eq_true] at passes
      exact .inl passes.1
    | parked =>
      simp only [purgeable, Bool.and_eq_true, decide_eq_true_eq,
        Option.isNone_iff_eq_none] at passes
      exact .inr passes.1

end Runs

end NestjsFastify.Outbox
