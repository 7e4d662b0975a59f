import Mathlib.Data.List.Infix
import NestjsFastify.IdempotencyContract

/-! # Runs of the requests with one key

A step of a request is one of a few moves.  Two invariants follow from them: as long as no record
lapses only the request that owns the record is on its way to the handler or back, and the record
is that of an execution.
-/
namespace NestjsFastify.Idempotency

/-! ## Moves -/

section
variable (config : EnvConfig) (server : HttpServer) (world : KeyWorld) (owner : Nat)
  (attempt : Attempt)

/-- What a request in a stage can do. -/
inductive Move : Stage → AttemptAction → KeyWorld → Prop
  | acquire (free : live world.now world.stored = none) : Move .arriving .setNx
      { world.put owner { attempt with stage := .claimed } with
        stored := some ⟨.pending attempt.fingerprint owner,
          world.now + config.lockTtlMs attempt.multipart⟩ }
  | refuse (found : StoredRecord) (taken : live world.now world.stored = some found) :
      Move .arriving .setNx
        { world.put owner { attempt with stage := .refused } with stored := some found }
  | replay (response : Response) (answer : attempt.answer server
        ((live world.now world.stored).map (·.record)) = some response) :
      Move .refused .get { world.put owner { attempt with stage := .done } with
        log := .replayed attempt.fingerprint response :: world.log }
  | turnAway : Move .refused .get (world.put owner { attempt with stage := .done })
  | skip (timedOut : attempt.timedOut = true) : Move .claimed .proceed
      (world.put owner { attempt with stage := attempt.onLateValue .undefined })
  | run : Move .claimed .proceed { world.put owner { attempt with stage := .running } with
      log := .started owner :: world.log }
  | respond (outcome : Outcome) (inTime : attempt.timedOut = false) :
      Move .running (.finish outcome)
        { world.put owner { attempt with stage := .responding (outcome.reply server) } with
          log := .finished ⟨attempt.fingerprint, attempt.route, outcome, attempt.timedOut⟩ ::
            world.log }
  | finishLate (outcome : Outcome) (stage : Stage) (timedOut : attempt.timedOut = true)
      (next : stage = .done ∨ stage = attempt.onLateValue outcome.value) :
      Move .running (.finish outcome) { world.put owner { attempt with stage } with
        log := .finished ⟨attempt.fingerprint, attempt.route, outcome, attempt.timedOut⟩ ::
          world.log }
  | leave (reply : Reply) : Move (.responding reply) .settle
      (world.put owner { attempt with stage := .done })
  | complete (reply : Reply) (record : IdempotencyRecord) (success : isSuccess reply.status = true)
      (recorded : replyRecord attempt.fingerprint reply = some record) :
      Move (.responding reply) .settle { world.put owner { attempt with stage := .done } with
        stored := ((StoreCommand.completeIfOwner owner record config.recordTtlMs).run world.now
          world.stored).1 }
  | release (reply : Reply) : Move (.responding reply) .settle
      { world.put owner { attempt with stage := .done } with
        stored := ((StoreCommand.releaseIfOwner owner).run world.now world.stored).1
        log :=
          if ((StoreCommand.releaseIfOwner owner).run world.now world.stored).2 = .done true then
            .released owner :: world.log
          else world.log }
  | record (record : IdempotencyRecord) : Move (.recording record) .record
      { world.put owner { attempt with stage := .done } with
        stored := ((StoreCommand.completeIfOwner owner record config.recordTtlMs).run world.now
          world.stored).1 }
  | timeout (stage : Stage) :
      Move stage .timeout (world.put owner { attempt with timedOut := true })
  | closeWindow (stage : Stage) :
      Move stage .closeWindow (world.put owner { attempt with listening := false })

variable {config server world owner attempt}

theorem move_of_settle {reply : Reply} {after : KeyWorld}
    (taken : attemptStep config server world owner attempt (.responding reply) .settle =
      some after) : Move config server world owner attempt (.responding reply) .settle after := by
  unfold attemptStep at taken
  cases command : finalizeCommand config.recordTtlMs attempt.fingerprint owner reply with
  | none =>
    simp only [command] at taken
    obtain rfl := Option.some.inj taken
    exact .leave reply
  | some chosen =>
    simp only [command] at taken
    obtain rfl := Option.some.inj taken
    unfold finalizeCommand at command
    split_ifs at command with success
    · obtain ⟨record, recorded, rfl⟩ := Option.map_eq_some_iff.mp command
      simp only [reduceCtorEq, false_and, if_false]
      exact .complete reply record success recorded
    · obtain rfl := Option.some.inj command
      simp only [true_and]
      exact .release reply

theorem move_of_step {stage : Stage} {action : AttemptAction} {after : KeyWorld}
    (taken : attemptStep config server world owner attempt stage action = some after) :
    Move config server world owner attempt stage action after := by
  cases action with
  | setNx =>
    cases stage <;> simp only [attemptStep, reduceCtorEq, Option.some.injEq] at taken
    subst taken
    cases free : live world.now world.stored with
    | none => simpa [StoreCommand.run, free] using Move.acquire free
    | some found => simpa [StoreCommand.run, free] using Move.refuse found free
  | get =>
    cases stage <;> simp only [attemptStep, reduceCtorEq] at taken
    cases answer : attempt.answer server ((live world.now world.stored).map (·.record)) with
    | none =>
      simp only [answer, Option.some.injEq] at taken
      exact taken ▸ .turnAway
    | some response =>
      simp only [answer, Option.some.injEq] at taken
      exact taken ▸ .replay response answer
  | proceed =>
    cases stage <;> simp only [attemptStep, reduceCtorEq] at taken
    split_ifs at taken with timedOut
    · exact Option.some.inj taken ▸ .skip timedOut
    · exact Option.some.inj taken ▸ .run
  | finish outcome =>
    cases stage <;> simp only [attemptStep, reduceCtorEq, Option.some.injEq] at taken
    subst taken
    by_cases timedOut : attempt.timedOut = true
    · by_cases failed : outcome.failed = true
      · simp only [if_pos timedOut, if_pos failed]
        exact .finishLate outcome .done timedOut (.inl rfl)
      · simp only [if_pos timedOut, if_neg failed]
        exact .finishLate outcome _ timedOut (.inr rfl)
    · simp only [if_neg timedOut]
      exact .respond outcome (by simpa using timedOut)
  | settle =>
    cases stage with
    | responding reply => exact move_of_settle taken
    | arriving | refused | claimed | running | recording | done => simp [attemptStep] at taken
  | record =>
    cases stage with
    | recording record =>
      simp only [attemptStep, Option.some.injEq] at taken
      exact taken ▸ .record record
    | arriving | refused | claimed | running | responding | done => simp [attemptStep] at taken
  | timeout =>
    cases stage <;> simp only [attemptStep] at taken <;> split_ifs at taken <;>
      exact Option.some.inj taken ▸ .timeout _
  | closeWindow =>
    cases stage <;> simp only [attemptStep] at taken <;> split_ifs at taken <;>
      exact Option.some.inj taken ▸ .closeWindow _

end

/-! ## The owner of the record -/

/-- The request has acquired the key and has not asked the store for anything since. -/
def Stage.holds : Stage → Bool
  | claimed | running | responding _ | recording _ => true
  | arriving | refused | done => false

/-- The record is that of the request on its way, and the handler is started once for it. -/
structure SingleOwner (world : KeyWorld) : Prop where
  holder : ∀ (owner : Nat) (attempt : Attempt), world.attempts[owner]? = some attempt →
    attempt.stage.holds = true →
      ∃ expiresAt, world.stored = some ⟨.pending attempt.fingerprint owner, expiresAt⟩
  claimed : ∀ (owner : Nat) (attempt : Attempt), world.attempts[owner]? = some attempt →
    attempt.stage = .claimed → startsSinceRelease world.log = 0
  free : world.stored = none → startsSinceRelease world.log = 0
  once : startsSinceRelease world.log ≤ 1

theorem KeyWorld.Unexpired.live_eq {world : KeyWorld} (unexpired : world.Unexpired) :
    live world.now world.stored = world.stored := by
  cases stored : world.stored with
  | none => rfl
  | some found => exact live_of_le (unexpired found stored)

section
variable {config : EnvConfig} {server : HttpServer} {world after : KeyWorld} {owner : Nat}
  {attempt new : Attempt} {stage : Stage} {action : AttemptAction}

theorem put_getElem? (found : world.attempts[owner]? = some attempt) (other : Nat) :
    (world.put owner new).attempts[other]? =
      if owner = other then some new else world.attempts[other]? := by
  obtain ⟨bound, -⟩ := List.getElem?_eq_some_iff.mp found
  simp only [KeyWorld.put, List.getElem?_set, bound, if_true]

namespace SingleOwner

/-- A request moves without a change of the record or of the number of starts. -/
theorem put (sound : SingleOwner world) (found : world.attempts[owner]? = some attempt)
    (same : new.fingerprint = attempt.fingerprint)
    (holds : new.stage.holds = true → attempt.stage.holds = true)
    (claims : new.stage = .claimed → attempt.stage = .claimed) {log : List KeyEvent}
    (starts : startsSinceRelease log = startsSinceRelease world.log) :
    SingleOwner { world.put owner new with log } where
  holder other otherAttempt otherFound otherHolds := by
    rw [put_getElem? found] at otherFound
    split_ifs at otherFound with here
    · obtain rfl := Option.some.inj otherFound
      subst here
      exact same ▸ sound.holder owner attempt found (holds otherHolds)
    · exact sound.holder other otherAttempt otherFound otherHolds
  claimed other otherAttempt otherFound otherClaims := by
    rw [put_getElem? found] at otherFound
    split_ifs at otherFound with here
    · obtain rfl := Option.some.inj otherFound
      exact starts.trans (sound.claimed owner attempt found (claims otherClaims))
    · exact starts.trans (sound.claimed other otherAttempt otherFound otherClaims)
  free none := starts.trans (sound.free none)
  once := starts ▸ sound.once

/-- Two requests on their way are the same. -/
theorem eq_of_holds (sound : SingleOwner world) (found : world.attempts[owner]? = some attempt)
    (holds : attempt.stage.holds = true) {other : Nat} {otherAttempt : Attempt}
    (otherFound : world.attempts[other]? = some otherAttempt)
    (otherHolds : otherAttempt.stage.holds = true) : owner = other := by
  obtain ⟨_, stored⟩ := sound.holder owner attempt found holds
  obtain ⟨_, otherStored⟩ := sound.holder other otherAttempt otherFound otherHolds
  rw [stored] at otherStored
  simp only [Option.some.injEq, StoredRecord.mk.injEq, IdempotencyRecord.pending.injEq]
    at otherStored
  exact otherStored.1.2

/-- The request that was on its way is done, and nobody else is. -/
theorem ended (sound : SingleOwner world) (found : world.attempts[owner]? = some attempt)
    (holds : attempt.stage.holds = true) (idle : new.stage.holds = false)
    {stored : Option StoredRecord} {log : List KeyEvent}
    (free : stored = none → startsSinceRelease log = 0) (once : startsSinceRelease log ≤ 1) :
    SingleOwner { world.put owner new with stored, log } := by
  have nobody : ∀ (other : Nat) (otherAttempt : Attempt),
      (world.put owner new).attempts[other]? = some otherAttempt →
        otherAttempt.stage.holds = false := by
    intro other otherAttempt otherFound
    rw [put_getElem? found] at otherFound
    split_ifs at otherFound with here
    · exact Option.some.inj otherFound ▸ idle
    · by_contra otherHolds
      exact here (sound.eq_of_holds found holds otherFound (by simpa using otherHolds))
  exact {
    holder := fun other otherAttempt otherFound otherHolds =>
      Bool.noConfusion ((nobody other otherAttempt otherFound).symm.trans otherHolds)
    claimed := fun other otherAttempt otherFound otherClaims => by
      have idleOther := nobody other otherAttempt otherFound
      rw [otherClaims] at idleOther
      exact Bool.noConfusion idleOther
    free
    once }

theorem acquired (sound : SingleOwner world) (found : world.attempts[owner]? = some attempt)
    (free : world.stored = none) (expiresAt : Nat) :
    SingleOwner { world.put owner { attempt with stage := .claimed } with
      stored := some ⟨.pending attempt.fingerprint owner, expiresAt⟩ } where
  holder other otherAttempt otherFound otherHolds := by
    rw [put_getElem? found] at otherFound
    split_ifs at otherFound with here
    · obtain rfl := Option.some.inj otherFound
      exact ⟨expiresAt, here ▸ rfl⟩
    · obtain ⟨_, stored⟩ := sound.holder other otherAttempt otherFound otherHolds
      exact nomatch free.symm.trans stored
  claimed _ _ _ _ := sound.free free
  free := nofun
  once := sound.once

theorem started (sound : SingleOwner world) (found : world.attempts[owner]? = some attempt)
    (claims : attempt.stage = .claimed) :
    SingleOwner { world.put owner { attempt with stage := .running } with
      log := .started owner :: world.log } where
  holder other otherAttempt otherFound otherHolds := by
    rw [put_getElem? found] at otherFound
    split_ifs at otherFound with here
    · obtain rfl := Option.some.inj otherFound
      exact here ▸ sound.holder owner attempt found (by rw [claims]; rfl)
    · exact sound.holder other otherAttempt otherFound otherHolds
  claimed other otherAttempt otherFound otherClaims := by
    rw [put_getElem? found] at otherFound
    split_ifs at otherFound with here
    · obtain rfl := Option.some.inj otherFound
      exact nomatch otherClaims
    · exact absurd (sound.eq_of_holds found (by rw [claims]; rfl) otherFound
        (by rw [otherClaims]; rfl)) here
  free none := by
    obtain ⟨_, stored⟩ := sound.holder owner attempt found (by rw [claims]; rfl)
    exact nomatch none.symm.trans stored
  once := by simp [startsSinceRelease, sound.claimed owner attempt found claims]

theorem onLateValue_ne_claimed (attempt : Attempt) (value : ReturnValue) :
    attempt.onLateValue value ≠ .claimed := by
  unfold Attempt.onLateValue
  split
  · split <;> simp
  · simp

theorem move (sound : SingleOwner world) (unexpired : world.Unexpired)
    (found : world.attempts[owner]? = some attempt)
    (moved : Move config server world owner attempt attempt.stage action after) :
    SingleOwner after := by
  have live_eq := unexpired.live_eq
  generalize at_ : attempt.stage = stage at moved
  have owned : ∀ {record : IdempotencyRecord} (holds : attempt.stage.holds = true),
      ((StoreCommand.completeIfOwner owner record config.recordTtlMs).run world.now
        world.stored).1 ≠ none := by
    intro record holds
    obtain ⟨expiresAt, stored⟩ := sound.holder owner attempt found holds
    rw [complete_of_owned (live_eq.trans stored) (by simp [IdempotencyRecord.ownedBy])]
    simp
  cases moved with
  | acquire free => exact sound.acquired found (live_eq.symm.trans free) _
  | refuse other taken =>
    rw [← taken, live_eq]
    refine sound.put found ?_ (fun holds => ?_) (fun claims => ?_) ?_
    · rfl
    · cases holds
    · cases claims
    · rfl
  | replay response | turnAway =>
    refine sound.put found ?_ ?_ ?_ ?_ <;> simp [Stage.holds, startsSinceRelease]
  | skip timedOut =>
    refine sound.put found ?_ (fun _ => by rw [at_]; rfl) (fun claims => ?_) ?_
    · rfl
    · exact absurd claims (onLateValue_ne_claimed attempt .undefined)
    · rfl
  | run => exact sound.started found at_
  | respond outcome =>
    refine sound.put found ?_ ?_ ?_ ?_ <;> simp [at_, Stage.holds, startsSinceRelease]
  | finishLate outcome stage timedOut next =>
    refine sound.put found ?_ (fun _ => by rw [at_]; rfl) (fun claims => ?_) ?_
    · rfl
    · rcases next with rfl | rfl
      · cases claims
      · exact absurd claims (onLateValue_ne_claimed attempt outcome.value)
    · rfl
  | leave reply => refine sound.put found ?_ ?_ ?_ ?_ <;> simp [Stage.holds]
  | complete reply record success recorded =>
    have holds : attempt.stage.holds = true := by rw [at_]; rfl
    exact sound.ended found holds rfl (fun none => absurd none (owned holds)) sound.once
  | release reply =>
    have holds : attempt.stage.holds = true := by rw [at_]; rfl
    obtain ⟨expiresAt, stored⟩ := sound.holder owner attempt found holds
    have released : (StoreCommand.releaseIfOwner owner).run world.now world.stored =
        (none, .done true) := by
      simp only [StoreCommand.run, live_eq]
      simp [stored, IdempotencyRecord.ownedBy]
    rw [released, if_pos rfl]
    exact sound.ended found holds rfl (fun _ => rfl) (Nat.zero_le 1)
  | record record =>
    have holds : attempt.stage.holds = true := by rw [at_]; rfl
    exact sound.ended found holds rfl (fun none => absurd none (owned holds)) sound.once
  | timeout stage | closeWindow stage =>
    refine sound.put found ?_ ?_ ?_ ?_ <;> simp

theorem arrive (sound : SingleOwner world) (waits : new.stage = .arriving) :
    SingleOwner { world with attempts := world.attempts ++ [new] } := by
  have known : ∀ (owner : Nat) (attempt : Attempt),
      (world.attempts ++ [new])[owner]? = some attempt → attempt.stage ≠ .arriving →
        world.attempts[owner]? = some attempt := by
    intro owner attempt found busy
    rcases Nat.lt_or_ge owner world.attempts.length with bound | bound
    · rwa [List.getElem?_append_left bound] at found
    · rw [List.getElem?_append_right bound] at found
      have member := List.mem_of_getElem? found
      rw [List.mem_singleton.mp member] at busy
      exact absurd waits busy
  exact {
    holder := fun owner attempt found holds => by
      have busy : attempt.stage ≠ .arriving := fun here => by simp [here, Stage.holds] at holds
      exact sound.holder owner attempt (known owner attempt found busy) holds
    claimed := fun owner attempt found claims =>
      sound.claimed owner attempt (known owner attempt found (by simp [claims])) claims
    free := sound.free
    once := sound.once }

end SingleOwner

theorem singleOwner_of_run {history : List (KeyWorld × KeyAction)}
    (run : (keySystem config server).Run history world)
    (unexpired : TransitionSystem.Guarded (fun world _ => world.Unexpired) history) :
    SingleOwner world := by
  refine run.guardedInvariant _ (fun world initial => ?_) (fun before action after lives sound taken
    => ?_) unexpired
  · obtain ⟨now, rfl⟩ := initial
    exact ⟨by simp, by simp, fun _ => rfl, Nat.zero_le 1⟩
  · cases action with
    | elapse milliseconds =>
      obtain rfl := Option.some.inj taken
      exact ⟨sound.holder, sound.claimed, sound.free, sound.once⟩
    | arrive fingerprint route multipart =>
      obtain rfl := Option.some.inj taken
      exact sound.arrive rfl
    | attempt owner action =>
      obtain ⟨attempt, found, taken⟩ := Option.bind_eq_some_iff.mp taken
      exact sound.move lives found (move_of_step taken)

end

/-! ## The origin of the record -/

/-- The record is that of an execution. -/
def Backed (server : HttpServer) (log : List KeyEvent) (record : IdempotencyRecord) : Prop :=
  ∃ execution, .finished execution ∈ log ∧ execution.record server = some record

/-- What a request is about to record comes from an execution. -/
def StageBacked (server : HttpServer) (log : List KeyEvent) (fingerprint : String) : Stage → Prop
  | .responding reply => ∃ execution, .finished execution ∈ log ∧
      execution.fingerprint = fingerprint ∧ execution.late = false ∧
        reply = execution.outcome.reply server
  | .recording record => Backed server log record
  | _ => True

structure FromExecutions (server : HttpServer) (world : KeyWorld) : Prop where
  stages : ∀ attempt ∈ world.attempts,
    StageBacked server world.log attempt.fingerprint attempt.stage
  stored : ∀ stored ∈ world.stored,
    (∃ fingerprint owner, stored.record = .pending fingerprint owner) ∨
      Backed server world.log stored.record
  replays : ∀ fingerprint response, .replayed fingerprint response ∈ world.log →
    ∃ execution, .finished execution ∈ world.log ∧ execution.fingerprint = fingerprint ∧
      execution.ReplayedAs server response

section
variable {config : EnvConfig} {server : HttpServer} {world after : KeyWorld} {owner : Nat}
  {attempt new : Attempt} {action : AttemptAction} {log : List KeyEvent}

theorem Backed.mono {record : IdempotencyRecord} (backed : Backed server world.log record)
    (grows : world.log ⊆ log) : Backed server log record := by
  obtain ⟨execution, finished, same⟩ := backed
  exact ⟨execution, grows finished, same⟩

theorem StageBacked.mono {fingerprint : String} {stage : Stage}
    (backed : StageBacked server world.log fingerprint stage) (grows : world.log ⊆ log) :
    StageBacked server log fingerprint stage := by
  cases stage with
  | responding reply =>
    obtain ⟨execution, finished, rest⟩ := backed
    exact ⟨execution, grows finished, rest⟩
  | recording record => exact Backed.mono backed grows
  | arriving | refused | claimed | running | done => trivial

/-- A late value is recorded for the execution that returned it. -/
theorem onLateValue_backed {outcome : Outcome}
    (finished : .finished ⟨attempt.fingerprint, attempt.route, outcome, true⟩ ∈ log) :
    StageBacked server log attempt.fingerprint (attempt.onLateValue outcome.value) := by
  unfold Attempt.onLateValue
  split_ifs
  · cases recorded : lateRecord attempt.fingerprint attempt.route outcome.value with
    | none => trivial
    | some record => exact ⟨_, finished, by simpa [Execution.record] using recorded⟩
  · trivial

/-- What is found in the store when it is completed: the record that was there or the new one. -/
theorem mem_completed {record : IdempotencyRecord} {found : StoredRecord}
    (member : found ∈ ((StoreCommand.completeIfOwner owner record config.recordTtlMs).run world.now
      world.stored).1) : found ∈ world.stored ∨ found.record = record := by
  unfold StoreCommand.run at member
  cases present : live world.now world.stored with
  | none => simp [present] at member
  | some there =>
    simp only [present] at member
    split_ifs at member
    · exact .inr (by rw [← Option.some.inj member])
    · obtain rfl := Option.some.inj member
      exact .inl (mem_of_live present)

theorem mem_released {found : StoredRecord}
    (member : found ∈ ((StoreCommand.releaseIfOwner owner).run world.now world.stored).1) :
    found ∈ world.stored := by
  unfold StoreCommand.run at member
  cases present : live world.now world.stored with
  | none => simp [present] at member
  | some there =>
    simp only [present] at member
    split_ifs at member
    · simp at member
    · obtain rfl := Option.some.inj member
      exact mem_of_live present

namespace FromExecutions

/-- A request moves; what it records or replays is that of an execution. -/
theorem put (sound : FromExecutions server world) {stored : Option StoredRecord}
    (backed : StageBacked server log new.fingerprint new.stage) (grows : world.log ⊆ log)
    (origin : ∀ found ∈ stored, found ∈ world.stored ∨
      (∃ fingerprint owner, found.record = .pending fingerprint owner) ∨
        Backed server log found.record)
    (replays : ∀ fingerprint response, .replayed fingerprint response ∈ log →
      .replayed fingerprint response ∈ world.log ∨ ∃ execution, .finished execution ∈ world.log ∧
        execution.fingerprint = fingerprint ∧ execution.ReplayedAs server response) :
    FromExecutions server { world.put owner new with stored, log } where
  stages other member := by
    rcases List.mem_or_eq_of_mem_set member with earlier | rfl
    · exact (sound.stages other earlier).mono grows
    · exact backed
  stored found member := by
    rcases origin found member with earlier | recorded
    · exact (sound.stored found earlier).imp_right (·.mono grows)
    · exact recorded
  replays fingerprint response replayed := by
    obtain ⟨execution, finished, rest⟩ := (replays fingerprint response replayed).elim
      (sound.replays fingerprint response) id
    exact ⟨execution, grows finished, rest⟩

/-- An answer that is a replay comes from the record that was found. -/
theorem answered (sound : FromExecutions server world) (lawful : server.Lawful)
    {response : Response} (answer : attempt.answer server
      ((live world.now world.stored).map (·.record)) = some response) :
    ∃ execution, .finished execution ∈ world.log ∧
      execution.fingerprint = attempt.fingerprint ∧ execution.ReplayedAs server response := by
  cases present : live world.now world.stored with
  | none => simp [present, Attempt.answer] at answer
  | some found =>
    cases kept : found.record with
    | pending => simp [present, kept, Attempt.answer] at answer
    | completed fingerprint status contentType body =>
      simp only [present, kept, Option.map_some, Attempt.answer] at answer
      split_ifs at answer with same
      obtain rfl := Option.some.inj answer
      rcases sound.stored found (mem_of_live present) with pending | backed
      · obtain ⟨_, _, pending⟩ := pending
        exact nomatch kept.symm.trans pending
      · obtain ⟨execution, finished, recorded⟩ := backed
        rw [kept] at recorded
        obtain ⟨sameRequest, replayed⟩ := replayedAs_of_record lawful recorded
        exact ⟨execution, finished, sameRequest.trans same.1, replayed⟩

theorem move (sound : FromExecutions server world) (lawful : server.Lawful)
    (found : world.attempts[owner]? = some attempt)
    (inTime : action = .proceed → attempt.timedOut = false ∨ attempt.listening = false)
    (moved : Move config server world owner attempt attempt.stage action after) :
    FromExecutions server after := by
  have member := List.mem_of_getElem? found
  have before := sound.stages attempt member
  have same := List.Subset.refl world.log
  have kept : ∀ found ∈ world.stored, found ∈ world.stored ∨
      (∃ fingerprint owner, found.record = .pending fingerprint owner) ∨
        Backed server world.log found.record := fun _ => .inl
  generalize at_ : attempt.stage = stage at moved before
  cases moved with
  | acquire free =>
    refine sound.put trivial same (fun found fresh => ?_) fun _ _ => .inl
    obtain rfl := Option.some.inj fresh
    exact .inr (.inl ⟨_, _, rfl⟩)
  | refuse other taken =>
    refine sound.put trivial same (fun found there => .inl ?_) fun _ _ => .inl
    exact Option.some.inj there ▸ mem_of_live taken
  | replay response answer =>
    refine sound.put trivial (List.subset_cons_self _ _) (fun _ => .inl) ?_
    intro fingerprint other replayed
    rcases List.mem_cons.mp replayed with here | earlier
    · obtain ⟨rfl, rfl⟩ := KeyEvent.replayed.inj here
      exact .inr (sound.answered lawful answer)
    · exact .inl earlier
  | turnAway => exact sound.put trivial same kept fun _ _ => .inl
  | skip timedOut =>
    have ended : attempt.listening = false := by simpa [timedOut] using inTime rfl
    refine sound.put ?_ same kept fun _ _ => .inl
    rw [Attempt.onLateValue, ended]
    trivial
  | run =>
    exact sound.put trivial (List.subset_cons_self _ _) (fun _ => .inl)
      fun _ _ there => .inl (by simpa using there)
  | respond outcome early =>
    exact sound.put ⟨_, List.mem_cons_self, rfl, early, rfl⟩ (List.subset_cons_self _ _)
      (fun _ => .inl) fun _ _ there => .inl (by simpa using there)
  | finishLate outcome stage timedOut next =>
    refine sound.put ?_ (List.subset_cons_self _ _) (fun _ => .inl)
      fun _ _ there => .inl (by simpa using there)
    rcases next with rfl | rfl
    · trivial
    · exact onLateValue_backed (timedOut ▸ List.mem_cons_self)
  | leave reply => exact sound.put trivial same kept fun _ _ => .inl
  | complete reply record success recorded =>
    refine sound.put trivial same (fun found there => ?_) fun _ _ => .inl
    refine (mem_completed there).imp_right fun isRecord => .inr ?_
    obtain ⟨execution, finished, sameRequest, early, rfl⟩ := before
    refine ⟨execution, finished, ?_⟩
    rw [Execution.record, early, sameRequest, isRecord]
    simpa [success] using recorded
  | release reply =>
    refine sound.put trivial ?_ (fun found there => .inl (mem_released there)) ?_
    · split_ifs
      · exact List.subset_cons_self _ _
      · exact same
    · intro fingerprint response replayed
      split_ifs at replayed
      · exact .inl (by simpa using replayed)
      · exact .inl replayed
  | record record =>
    refine sound.put trivial same (fun found there => ?_) fun _ _ => .inl
    exact (mem_completed there).imp_right fun isRecord => .inr (by rw [isRecord]; exact before)
  | timeout stage | closeWindow stage =>
    exact sound.put (at_ ▸ before) same kept fun _ _ => .inl

end FromExecutions

theorem fromExecutions_of_run {history : List (KeyWorld × KeyAction)} (lawful : server.Lawful)
    (run : (keySystem config server).Run history world)
    (inTime : TransitionSystem.Guarded KeyWorld.ClaimsInTime history) :
    FromExecutions server world := by
  refine run.guardedInvariant _ (fun world initial => ?_)
    (fun before action after early sound taken => ?_) inTime
  · obtain ⟨now, rfl⟩ := initial
    exact ⟨by simp, by simp, by simp⟩
  · cases action with
    | elapse milliseconds =>
      obtain rfl := Option.some.inj taken
      exact ⟨sound.stages, sound.stored, sound.replays⟩
    | arrive fingerprint route multipart =>
      obtain rfl := Option.some.inj taken
      refine ⟨List.forall_mem_append.mpr ⟨sound.stages, ?_⟩, sound.stored, sound.replays⟩
      exact List.forall_mem_singleton.mpr trivial
    | attempt owner action =>
      obtain ⟨attempt, found, taken⟩ := Option.bind_eq_some_iff.mp taken
      refine sound.move lawful found (fun here => ?_) (move_of_step taken)
      subst here
      exact early attempt found

end

/-! ## Runs -/

section
variable {config : EnvConfig} {server : HttpServer} {world after : KeyWorld} {owner : Nat}
  {history : List (KeyWorld × KeyAction)}

/-- Only the owner of a pending record changes it with its commands. -/
theorem run_of_owner {now : Nat} {stored : Option StoredRecord} (command : StoreCommand)
    (final : (∃ record recordTtlMs, command = .completeIfOwner owner record recordTtlMs) ∨
      command = .releaseIfOwner owner) :
    live now (command.run now stored).1 = live now stored ∨
      ∃ found fingerprint, live now stored = some found ∧
        found.record = .pending fingerprint owner := by
  cases present : live now stored with
  | none =>
    have unchanged : (command.run now stored).1 = none := by
      rcases final with ⟨record, recordTtlMs, rfl⟩ | rfl <;> simp [StoreCommand.run, present]
    exact .inl (by rw [unchanged]; rfl)
  | some found =>
    cases owned : found.record.ownedBy owner with
    | true =>
      cases kept : found.record with
      | pending fingerprint other =>
        obtain rfl : other = owner := by simpa [kept, IdempotencyRecord.ownedBy] using owned
        exact .inr ⟨found, fingerprint, rfl, kept⟩
      | completed => simp [kept, IdempotencyRecord.ownedBy] at owned
    | false =>
      have unchanged : (command.run now stored).1 = some found := by
        refine run_of_not_owned present fun token brought => ?_
        rcases final with ⟨record, recordTtlMs, rfl⟩ | rfl <;>
          exact Option.some.inj brought ▸ owned
      obtain ⟨-, unexpired⟩ := Option.mem_filter_iff.mp present
      exact .inl (by rw [unchanged]; exact live_of_le (by simpa using unexpired))

theorem owned_of_final {action : AttemptAction} (final : action.isFinal = true)
    (taken : keyStep config server world (.attempt owner action) = some after) :
    live world.now after.stored = live world.now world.stored ∨
      ∃ found fingerprint, live world.now world.stored = some found ∧
        found.record = .pending fingerprint owner := by
  obtain ⟨attempt, found, taken⟩ := Option.bind_eq_some_iff.mp taken
  have moved := move_of_step taken
  generalize attempt.stage = stage at moved
  cases moved with
  | leave => exact .inl rfl
  | complete reply record | record record => exact run_of_owner _ (.inl ⟨_, _, rfl⟩)
  | release => exact run_of_owner _ (.inr rfl)
  | acquire | refuse | replay | turnAway | skip | run | respond | finishLate | timeout
    | closeWindow => simp [AttemptAction.isFinal] at final

end

/-! ### Particular requests -/

def containsText (part text : String) : Bool := part.toList <:+: text.toList

/-- JSON gets a charset if it has none. -/
def withCharset (type : String) : String :=
  if containsText "json" type && !containsText "charset" type then type ++ "; charset=utf-8"
  else type

/-- A framework without plugins. -/
def plainServer : HttpServer where
  isJson := containsText "json"
  send status contentType
    | .undefined => ⟨status, contentType, .absent⟩
    | .text text =>
        ⟨status, some ((contentType.map withCharset).getD "text/plain; charset=utf-8"), .text text⟩
    | .json (some text) =>
        if contentType.all (containsText "json") then
          ⟨status, some (withCharset (contentType.getD "application/json")), .text text⟩
        else ⟨status, contentType, .other⟩
    | .json none =>
        ⟨500, some "application/problem+json; charset=utf-8", .text "Internal Server Error"⟩
    | .null =>
        if contentType.all (containsText "json") then
          ⟨status, some (withCharset (contentType.getD "application/json")), .text "null"⟩
        else ⟨status, contentType, .absent⟩
    | .file _ | .bytes => ⟨status, some (contentType.getD "application/octet-stream"), .other⟩
  write reply :=
    if reply.status = 204 then ⟨204, none, some ""⟩
    else ⟨reply.status, reply.contentType, replayableBody reply.payload⟩

theorem withCharset_idem (type : String) : withCharset (withCharset type) = withCharset type := by
  unfold withCharset
  split_ifs with lacks again
  · have has : containsText "charset" (type ++ "; charset=utf-8") = true := by
      refine decide_eq_true ⟨type.toList ++ "; ".toList, "=utf-8".toList, ?_⟩
      simp
    simp [has] at again
  · rfl
  · rfl

theorem plainServer_text (status : Nat) (type text : String) :
    plainServer.send status (some type) (.text text) =
      ⟨status, some (withCharset type), .text text⟩ := rfl

/-- A text is sent again as it was sent before. -/
theorem plainServer_again (status : Nat) (text : String) {type : String}
    (complete : withCharset type = type) :
    plainServer.send status (some type) (.text text) = ⟨status, some type, .text text⟩ := by
  rw [plainServer_text, complete]

theorem plainServer_lawful : plainServer.Lawful where
  resent status contentType value text sent := by
    have again : ∀ {type}, withCharset type = type → ∀ {reply : Reply},
        reply = ⟨reply.status, some type, .text text⟩ → ∃ type, reply.contentType = some type ∧
          plainServer.send reply.status (some type) (.text text) = reply := by
      intro type complete reply same
      rw [same]
      exact ⟨type, rfl, plainServer_again _ text complete⟩
    cases value with
    | undefined | file | bytes => simp [plainServer] at sent
    | text given =>
      obtain rfl : given = text := by simpa [plainServer] using sent
      cases contentType with
      | none => exact again (by decide +kernel : withCharset "text/plain; charset=utf-8" = _) rfl
      | some type => exact again (withCharset_idem type) rfl
    | json encoded =>
      cases encoded with
      | none =>
        obtain rfl : "Internal Server Error" = text := by simpa [plainServer] using sent
        exact again
          (by decide +kernel : withCharset "application/problem+json; charset=utf-8" = _) rfl
      | some given =>
        simp only [plainServer] at sent
        split_ifs at sent with typed
        obtain rfl := Payload.text.inj sent
        exact again (withCharset_idem (contentType.getD "application/json"))
          (by simp only [plainServer, if_pos typed])
    | null =>
      simp only [plainServer] at sent
      split_ifs at sent with typed
      obtain rfl := Payload.text.inj sent
      exact again (withCharset_idem (contentType.getD "application/json"))
        (by simp only [plainServer, if_pos typed])
  untyped status text := by
    rw [plainServer_text]
    rfl
  typed status type text json := by
    have isJson : containsText "json" type = true := json
    simp [plainServer, isJson]
  status_kept status contentType value encodes := by
    cases value with
    | json encoded =>
      cases encoded with
      | none => exact absurd rfl encodes
      | some text =>
        simp only [plainServer]
        split_ifs <;> rfl
    | null =>
      simp only [plainServer]
      split_ifs <;> rfl
    | undefined | text | file | bytes => rfl
  noContent first second firstEmpty secondEmpty := by
    simp [plainServer, firstEmpty, secondEmpty]

/-- A request is answered with a timeout while its handler runs, and a second one repeats it. -/
def lateRetry (route : Route) (outcome : Outcome) : List KeyAction :=
  [.arrive "payload" route false, .attempt 0 .setNx, .attempt 0 .proceed, .attempt 0 .timeout,
    .attempt 0 (.finish outcome), .attempt 0 .record, .arrive "payload" route false,
    .attempt 1 .setNx, .attempt 1 .get]

/-- A test for steps that are in time, with the records alive. -/
def inTimeCheck (world : KeyWorld) : KeyAction → Bool
  | .attempt owner .proceed => world.stored.all (world.now ≤ ·.expiresAt) &&
      (world.attempts[owner]?).all fun attempt => !attempt.timedOut || !attempt.listening
  | _ => world.stored.all (world.now ≤ ·.expiresAt)

theorem inTimeCheck_sound (world : KeyWorld) (action : KeyAction)
    (passes : inTimeCheck world action = true) :
    world.Unexpired ∧ world.ClaimsInTime action := by
  have unexpired : world.stored.all (world.now ≤ ·.expiresAt) = true → world.Unexpired := by
    intro lives stored member
    simp only [Option.all_eq_true, decide_eq_true_eq] at lives
    exact lives stored member
  unfold inTimeCheck at passes
  split at passes
  · obtain ⟨lives, early⟩ := Bool.and_eq_true_iff.mp passes
    refine ⟨unexpired lives, fun attempt found => ?_⟩
    simp only [Option.all_eq_true] at early
    simpa using early attempt found
  · refine ⟨unexpired passes, ?_⟩
    rename_i other
    cases action with
    | attempt owner action =>
      cases action with
      | proceed => exact absurd rfl (other owner)
      | setNx | get | finish | settle | record | timeout | closeWindow => trivial
    | elapse | arrive => trivial

end NestjsFastify.Idempotency
