import Mathlib.Data.Prod.Lex
import Mathlib.Data.String.Basic
import NestjsFastify.CursorSweep
import NestjsFastify.StoredFileStore

/-! # Recovery of verifications

Every minute the rows that are still VERIFYING are enqueued again, a batch at a time.  A cursor
remembers how far the sweep has come, and starts again when a batch was not full.
-/
namespace NestjsFastify.VerificationRecovery
open CursorSweep (Marks behind orderBy)
open Upload (StoredFileRow UploadVerificationRequest)

/-! ## `enqueueUploadVerification` -/

inductive JobState where
  | waiting
  | active
  | delayed
  | completed
  | failed
  | unknown
  deriving DecidableEq, Repr

structure Job where
  name : String
  data : UploadVerificationRequest
  state : JobState
  attempts : Nat
  deriving DecidableEq, Repr

/-- The jobs of the queue by their ids. -/
abbrev Queue := String → Option Job

/-- How the queue works: the digest in its job ids, and the ids of the jobs that it cannot
handle. -/
structure Platform where
  sha256 : String → String
  broken : String → Bool

def Platform.verificationJobId (platform : Platform) (storageKey : String) : String :=
  "verify__" ++ platform.sha256 storageKey

/-- A new job, with `RETRIED_JOB_OPTIONS`. -/
def newJob (request : UploadVerificationRequest) : Job where
  name := "verify-magic-bytes"
  data := request
  state := .waiting
  attempts := 3

/-- `enqueueUploadVerification`, which throws if the queue cannot handle the job. -/
def enqueueUploadVerification (platform : Platform) (queue : Queue)
    (request : UploadVerificationRequest) : Option Queue :=
  let jobId := platform.verificationJobId request.key
  if platform.broken jobId then none
  else
    match queue jobId with
    | none => some (Function.update queue jobId (some (newJob request)))
    | some job =>
        match job.state with
        | .unknown => some (Function.update queue jobId (some (newJob request)))
        | .failed | .completed =>
            some (Function.update queue jobId (some { job with state := .waiting }))
        | .waiting | .active | .delayed => some queue

/-! ## `recover` -/

def RECOVERY_BATCH_SIZE : Nat := 100
def RECOVERY_GRACE_MS : Nat := 30000
def HOUR_MS : Nat := 3600000

/-- `(updatedAt, id)`, compared in this order. -/
abbrev Cursor := Nat ×ₗ String

def INITIAL_CURSOR : Cursor := toLex (0, "00000000-0000-0000-0000-000000000000")

def cursorOf (row : StoredFileRow) : Cursor := toLex (row.updatedAt, row.id.text)

def verificationRequest (row : StoredFileRow) : UploadVerificationRequest where
  key := row.key
  bucket := row.bucket
  declaredContentType := row.contentType

/-- The `WHERE` of `findCandidates`, the cursor apart. -/
def isEligible (staleHours now : Nat) (row : StoredFileRow) : Bool :=
  row.status = .verifying && row.deletedAt.isNone && now ≤ row.updatedAt + staleHours * HOUR_MS &&
    row.updatedAt + RECOVERY_GRACE_MS < now

def findCandidates (staleHours now : Nat) (rows : List StoredFileRow) (cursor : Cursor) :
    List StoredFileRow :=
  behind cursorOf cursor RECOVERY_BATCH_SIZE (rows.filter (isEligible staleHours now))

/-- A tick: its time, the answers of `isLeader` in turn, and whether the database answers. -/
structure Tick where
  now : Nat
  leads : Nat → Bool
  database : Bool

structure Recovery where
  cursor : Cursor := INITIAL_CURSOR
  queue : Queue := fun _ => none

/-- What the loop over the candidates has done when it ends, by itself or early. -/
structure BatchEnd where
  recovery : Recovery
  attempts : List StoredFileRow
  finished : Bool

/-- The loop of `recover`, with the number of answers that `isLeader` has given. -/
def recoverBatch (platform : Platform) (leads : Nat → Bool) :
    Nat → List StoredFileRow → Recovery → BatchEnd
  | _, [], recovery => ⟨recovery, [], true⟩
  | asked, candidate :: candidates, recovery =>
      if leads asked = false then ⟨recovery, [], false⟩
      else
        match enqueueUploadVerification platform recovery.queue (verificationRequest candidate) with
        | none => ⟨recovery, [candidate], false⟩
        | some queue =>
            let rest := recoverBatch platform leads (asked + 1) candidates
              { cursor := cursorOf candidate, queue }
            { rest with attempts := candidate :: rest.attempts }

/-- `recover`, with the rows that it has attempted to enqueue. -/
def recover (platform : Platform) (staleHours : Nat) (rows : List StoredFileRow) (tick : Tick)
    (recovery : Recovery) : Recovery × List StoredFileRow :=
  if tick.leads 0 = false ∨ tick.database = false then (recovery, [])
  else
    let candidates := findCandidates staleHours tick.now rows recovery.cursor
    let batch := recoverBatch platform tick.leads 1 candidates recovery
    if batch.finished ∧ candidates.length < RECOVERY_BATCH_SIZE then
      ({ batch.recovery with cursor := INITIAL_CURSOR }, batch.attempts)
    else (batch.recovery, batch.attempts)

/-- Ticks one after the other. -/
def recoverAll (platform : Platform) (staleHours : Nat) (rows : List StoredFileRow) :
    List Tick → Recovery → Recovery × List StoredFileRow
  | [], recovery => (recovery, [])
  | tick :: ticks, recovery =>
      let (recovery, attempts) := recover platform staleHours rows tick recovery
      let (recovery, later) := recoverAll platform staleHours rows ticks recovery
      (recovery, attempts ++ later)

/-! ## What is to hold -/

/-- The table of the stored files: one row for an id, and none from before the epoch. -/
structure StoredFiles where
  rows : List StoredFileRow
  unique : (rows.map (·.id)).Nodup
  epoch : ∀ row ∈ rows, 0 < row.updatedAt

/-- The rows that are eligible at the given time. -/
def StoredFiles.eligible (files : StoredFiles) (staleHours now : Nat) : List StoredFileRow :=
  files.rows.filter (isEligible staleHours now)

/-- The row cannot be enqueued. -/
def Platform.fails (platform : Platform) (row : StoredFileRow) : Bool :=
  platform.broken (platform.verificationJobId row.key)

/-- The scheduler leads all the time, and the database answers. -/
def Tick.Steady (tick : Tick) : Prop := (∀ asked, tick.leads asked = true) ∧ tick.database = true

/-- The same rows are eligible in all ticks. -/
def Fixed (staleHours : Nat) (rows eligible : List StoredFileRow) (ticks : List Tick) : Prop :=
  ∀ tick ∈ ticks, rows.filter (isEligible staleHours tick.now) = eligible

section
variable {platform : Platform} {staleHours : Nat} {rows eligible before after : List StoredFileRow}
  {tick : Tick} {ticks : List Tick} {recovery : Recovery} {row other : StoredFileRow}

theorem enqueue_eq_none {queue : Queue} {request : UploadVerificationRequest} :
    enqueueUploadVerification platform queue request = none ↔
      platform.broken (platform.verificationJobId request.key) = true := by
  unfold enqueueUploadVerification
  by_cases broken : platform.broken (platform.verificationJobId request.key) = true
  · simp [broken]
  · rw [if_neg broken]
    refine iff_of_false ?_ broken
    split
    · simp
    · split <;> simp

/-- How the loop over the candidates has ended, with those that it has not passed. -/
inductive Stop (platform : Platform) (leads : Nat → Bool) (passed rest : List StoredFileRow)
    (batch : BatchEnd) : Prop where
  | finished (all : rest = []) (ended : batch.finished = true) (attempts : batch.attempts = passed)
  | unled (lost : ∃ asked, leads asked = false) (early : batch.finished = false)
      (attempts : batch.attempts = passed)
  | failed (row : StoredFileRow) (later : List StoredFileRow) (split : rest = row :: later)
      (fails : platform.fails row = true) (early : batch.finished = false)
      (attempts : batch.attempts = passed ++ [row])

/-- The loop passes candidates that do not fail, and moves the cursor over them. -/
theorem recoverBatch_spec {leads : Nat → Bool} {candidates beyond : List StoredFileRow}
    (asked : Nat) (marks : Marks cursorOf recovery.cursor before (candidates ++ beyond))
    (sorted : (before ++ (candidates ++ beyond)).Pairwise fun first second =>
      cursorOf first < cursorOf second) :
    ∃ passed rest, candidates = passed ++ rest ∧ (∀ row ∈ passed, platform.fails row = false) ∧
      Marks cursorOf (recoverBatch platform leads asked candidates recovery).recovery.cursor
        (before ++ passed) (rest ++ beyond) ∧
      Stop platform leads passed rest (recoverBatch platform leads asked candidates recovery) := by
  induction candidates generalizing asked before recovery with
  | nil => exact ⟨[], [], rfl, by simp, by simpa [recoverBatch] using marks, .finished rfl rfl rfl⟩
  | cons row candidates ih =>
    rw [recoverBatch]
    split_ifs with lost
    · exact ⟨[], row :: candidates, rfl, by simp, by simpa using marks, .unled ⟨_, lost⟩ rfl rfl⟩
    · cases enqueued : enqueueUploadVerification platform recovery.queue
          (verificationRequest row) with
      | none =>
        exact ⟨[], row :: candidates, rfl, by simp, by simpa using marks,
          .failed row candidates rfl (enqueue_eq_none.mp enqueued) rfl rfl⟩
      | some queue =>
        have succeeds : platform.fails row = false := by
          by_contra fails
          have none : enqueueUploadVerification platform recovery.queue (verificationRequest row) =
            none := enqueue_eq_none.mpr (Bool.not_eq_false _ ▸ fails)
          rw [enqueued] at none
          cases none
        rw [List.cons_append] at sorted
        have moved : Marks cursorOf (cursorOf row) (before ++ [row]) (candidates ++ beyond) :=
          Marks.move sorted
        rw [List.append_cons] at sorted
        obtain ⟨passed, rest, split, succeed, marked, stop⟩ :=
          @ih (before ++ [row]) { cursor := cursorOf row, queue } (asked + 1) moved sorted
        refine ⟨row :: passed, rest, by rw [split, List.cons_append],
          List.forall_mem_cons.mpr ⟨succeeds, succeed⟩, ?_, ?_⟩
        · rw [List.append_cons]
          exact marked
        · cases stop with
          | finished all ended attempts =>
            exact .finished all ended (congrArg (row :: ·) attempts)
          | unled lost early attempts => exact .unled lost early (congrArg (row :: ·) attempts)
          | failed other later split fails early attempts =>
            exact .failed other later split fails early (congrArg (row :: ·) attempts)

/-! ## Ticks -/

/-- What a tick does: it ends the sweep, or moves the cursor over the rows that it passes. -/
inductive TickCases (platform : Platform) (tick : Tick) (before passed rest : List StoredFileRow)
    (result : Recovery × List StoredFileRow) : Prop where
  | resets (all : rest = []) (short : passed.length < RECOVERY_BATCH_SIZE)
      (cursor : result.1.cursor = INITIAL_CURSOR) (attempts : result.2 = passed)
  | passes (marks : Marks cursorOf result.1.cursor (before ++ passed) rest)
      (full : tick.Steady → passed.length = RECOVERY_BATCH_SIZE) (attempts : result.2 = passed)
  | fails (marks : Marks cursorOf result.1.cursor (before ++ passed) rest) (row : StoredFileRow)
      (later : List StoredFileRow) (split : rest = row :: later)
      (fails : platform.fails row = true) (attempts : result.2 = passed ++ [row])

/-- The eligible rows, the oldest first, with distinct keys. -/
structure Sorted (eligible before after : List StoredFileRow) : Prop where
  distinct : (eligible.map cursorOf).Nodup
  whole : orderBy cursorOf eligible = before ++ after

theorem Sorted.pairwise (sorted : Sorted eligible before after) :
    (before ++ after).Pairwise fun first second => cursorOf first < cursorOf second :=
  sorted.whole ▸ CursorSweep.pairwise_lt_orderBy sorted.distinct

theorem recover_cases (fixed : rows.filter (isEligible staleHours tick.now) = eligible)
    (sorted : Sorted eligible before after)
    (marks : Marks cursorOf recovery.cursor before after) :
    ∃ passed rest, after = passed ++ rest ∧ (∀ row ∈ passed, platform.fails row = false) ∧
      passed.length ≤ RECOVERY_BATCH_SIZE ∧
        TickCases platform tick before passed rest
          (recover platform staleHours rows tick recovery) := by
  have found : findCandidates staleHours tick.now rows recovery.cursor =
      after.take RECOVERY_BATCH_SIZE := by
    rw [findCandidates, fixed]
    exact marks.behind_eq sorted.distinct sorted.whole _
  have cut : after.take RECOVERY_BATCH_SIZE ++ after.drop RECOVERY_BATCH_SIZE = after :=
    List.take_append_drop _ _
  obtain ⟨passed, rest, split, succeed, marked, stop⟩ :=
    @recoverBatch_spec platform before recovery tick.leads (after.take RECOVERY_BATCH_SIZE)
      (after.drop RECOVERY_BATCH_SIZE) 1 (cut.symm ▸ marks) (cut.symm ▸ sorted.pairwise)
  have whole : after = passed ++ (rest ++ after.drop RECOVERY_BATCH_SIZE) := by
    rw [← List.append_assoc, ← split, cut]
  have length := congrArg List.length split
  rw [List.length_take, List.length_append] at length
  simp only [recover, found]
  split_ifs with idle ended
  · refine ⟨[], after, rfl, by simp, Nat.zero_le _, .passes (by simpa using marks) ?_ rfl⟩
    rintro ⟨leads, database⟩
    simp [leads, database] at idle
  · obtain ⟨finished, short⟩ := ended
    rw [List.length_take] at short
    cases stop with
    | finished all _ attempts =>
      subst all
      have none : after.drop RECOVERY_BATCH_SIZE = [] := List.drop_eq_nil_of_le (by omega)
      rw [none] at whole
      refine ⟨passed, [], whole, succeed, ?_, .resets rfl ?_ rfl attempts⟩ <;>
        · rw [List.length_nil] at length
          omega
    | unled _ early => simp [early] at finished
    | failed _ _ _ _ early => simp [early] at finished
  · refine ⟨passed, rest ++ after.drop RECOVERY_BATCH_SIZE, whole, succeed, by omega, ?_⟩
    cases stop with
    | finished all finished attempts =>
      refine .passes marked (fun _ => ?_) attempts
      subst all
      rw [List.length_nil] at length
      simp only [finished, true_and, List.length_take] at ended
      omega
    | unled lost _ attempts =>
      refine .passes marked (fun steady => ?_) attempts
      obtain ⟨asked, lost⟩ := lost
      rw [steady.1 asked] at lost
      cases lost
    | failed row later split fails _ attempts =>
      exact .fails marked row (later ++ after.drop RECOVERY_BATCH_SIZE)
        (by rw [split, List.cons_append]) fails attempts

/-! ## Sweeps -/

theorem recoverAll_cons : recoverAll platform staleHours rows (tick :: ticks) recovery =
    ((recoverAll platform staleHours rows ticks (recover platform staleHours rows tick recovery).1).1,
      (recover platform staleHours rows tick recovery).2 ++
        (recoverAll platform staleHours rows ticks
          (recover platform staleHours rows tick recovery).1).2) :=
  rfl

/-- The rows that are passed go to those before the cursor. -/
theorem Sorted.move {passed rest : List StoredFileRow} (sorted : Sorted eligible before after)
    (split : after = passed ++ rest) : Sorted eligible (before ++ passed) rest :=
  ⟨sorted.distinct, by rw [sorted.whole, split, List.append_assoc]⟩

/-- A row is passed, or those that are passed come before it. -/
theorem mem_passed_or {passed rest front back : List StoredFileRow}
    (split : passed ++ rest = front ++ row :: back) :
    row ∈ passed ∨ ∃ between, front = passed ++ between ∧ rest = between ++ row :: back := by
  rcases List.append_eq_append_iff.mp split with ⟨between, one, two⟩ | ⟨between, one, two⟩
  · exact .inr ⟨between, one, two⟩
  · cases between with
    | nil => exact .inr ⟨[], by simpa using one.symm, two.symm⟩
    | cons first later =>
      obtain ⟨rfl, -⟩ := List.cons.inj two
      exact .inl (by simp [one])

/-- The tick that passes every row ends the sweep. -/
theorem steady_sweep (fixed : Fixed staleHours rows eligible ticks)
    (steady : ∀ tick ∈ ticks, tick.Steady) (sorted : Sorted eligible before after)
    (marks : Marks cursorOf recovery.cursor before after)
    (succeed : ∀ row ∈ after, platform.fails row = false) :
    (ticks.length = after.length / RECOVERY_BATCH_SIZE + 1 →
      (recoverAll platform staleHours rows ticks recovery).2 = after ∧
        (recoverAll platform staleHours rows ticks recovery).1.cursor = INITIAL_CURSOR) ∧
    (ticks.length ≤ after.length / RECOVERY_BATCH_SIZE →
      ∃ passed rest, after = passed ++ rest ∧
        passed.length = RECOVERY_BATCH_SIZE * ticks.length ∧
        Marks cursorOf (recoverAll platform staleHours rows ticks recovery).1.cursor
          (before ++ passed) rest) := by
  induction ticks generalizing before after recovery with
  | nil => exact ⟨by simp, fun _ => ⟨[], after, rfl, rfl, by simpa [recoverAll] using marks⟩⟩
  | cons tick ticks ih =>
    obtain ⟨fixedNow, fixedLater⟩ := List.forall_mem_cons.mp fixed
    obtain ⟨steadyNow, steadyLater⟩ := List.forall_mem_cons.mp steady
    obtain ⟨passed, rest, split, -, -, cases⟩ :=
      @recover_cases platform _ _ _ _ _ tick _ fixedNow sorted marks
    have whole : after.length = passed.length + rest.length := by rw [split, List.length_append]
    have size : RECOVERY_BATCH_SIZE = 100 := rfl
    rw [recoverAll_cons]
    cases cases with
    | resets all short cursor attempts =>
      subst all
      rw [List.length_nil, Nat.add_zero] at whole
      have none : after.length / RECOVERY_BATCH_SIZE = 0 := Nat.div_eq_of_lt (by omega)
      constructor
      · intro last
        obtain rfl : ticks = [] :=
          List.eq_nil_of_length_eq_zero (by rw [none] at last; simpa using last)
        exact ⟨by simp [recoverAll, attempts, split], cursor⟩
      · intro few
        rw [none] at few
        simp at few
    | passes marked full attempts =>
      have length := full steadyNow
      have later := ih fixedLater steadyLater (sorted.move split) marked
        fun row member => succeed row (split ▸ List.mem_append_right _ member)
      simp only [List.length_cons, size] at later length ⊢
      constructor
      · intro last
        obtain ⟨attempted, cursor⟩ := later.1 (by omega)
        exact ⟨by rw [attempts, attempted, split], cursor⟩
      · intro few
        obtain ⟨more, left, parts, count, marked⟩ := later.2 (by omega)
        refine ⟨passed ++ more, left, by rw [split, parts, List.append_assoc], ?_, ?_⟩
        · rw [List.length_append]
          omega
        · rwa [← List.append_assoc]
    | fails _ row later parts fails =>
      have member : row ∈ after := by simp [split, parts]
      rw [succeed row member] at fails
      cases fails

/-- A row is attempted once the ticks have passed the rows before it, if none of them fails. -/
theorem mem_attempts {front back : List StoredFileRow} {steady : List Tick}
    (fixed : Fixed staleHours rows eligible ticks) (among : steady.Sublist ticks)
    (allSteady : ∀ tick ∈ steady, tick.Steady)
    (sorted : Sorted eligible before after) (marks : Marks cursorOf recovery.cursor before after)
    (split : after = front ++ row :: back) (succeed : ∀ other ∈ front, platform.fails other = false)
    (succeeds : platform.fails row = false)
    (enough : front.length < RECOVERY_BATCH_SIZE * steady.length) :
    row ∈ (recoverAll platform staleHours rows ticks recovery).2 := by
  induction ticks generalizing before after recovery front steady with
  | nil =>
    obtain rfl := List.sublist_nil.mp among
    simp at enough
  | cons tick ticks ih =>
    obtain ⟨fixedNow, fixedLater⟩ := List.forall_mem_cons.mp fixed
    obtain ⟨passed, rest, parts, -, -, cases⟩ :=
      @recover_cases platform _ _ _ _ _ tick _ fixedNow sorted marks
    rw [recoverAll_cons, List.mem_append]
    rcases mem_passed_or (parts.symm.trans split) with there | ⟨between, frontSplit, restSplit⟩
    · left
      cases cases with
      | resets _ _ _ attempts | passes _ _ attempts => exact attempts ▸ there
      | fails _ _ _ _ _ attempts => exact attempts ▸ List.mem_append_left _ there
    · right
      have first : ∀ head later, rest = head :: later → platform.fails head = false := by
        rintro head later rfl
        cases between with
        | nil =>
          obtain ⟨rfl, -⟩ := List.cons.inj restSplit
          exact succeeds
        | cons next between =>
          obtain ⟨rfl, -⟩ := List.cons.inj restSplit
          exact succeed head (by simp [frontSplit])
      have shorter : front.length = passed.length + between.length := by
        rw [frontSplit, List.length_append]
      have succeedBetween : ∀ other ∈ between, platform.fails other = false :=
        fun other member => succeed other (frontSplit ▸ List.mem_append_right _ member)
      cases cases with
      | resets all => simp [all] at restSplit
      | fails _ head later headSplit fails =>
        rw [first head later headSplit] at fails
        cases fails
      | passes marked full =>
        have size : RECOVERY_BATCH_SIZE = 100 := rfl
        cases among with
        | cons _ among =>
          exact ih fixedLater among allSteady (sorted.move parts) marked restSplit succeedBetween
            (by omega)
        | @cons_cons steady _ _ among =>
          obtain ⟨steadyNow, steadyLater⟩ := List.forall_mem_cons.mp allSteady
          have passedAll := full steadyNow
          refine ih fixedLater among steadyLater (sorted.move parts) marked restSplit
            succeedBetween ?_
          simp only [List.length_cons, size] at enough passedAll ⊢
          omega

/-- A row behind one that fails is never attempted. -/
theorem not_mem_attempts {front back : List StoredFileRow}
    (fixed : Fixed staleHours rows eligible ticks) (sorted : Sorted eligible before after)
    (marks : Marks cursorOf recovery.cursor before after)
    (split : after = front ++ other :: back) (fails : platform.fails other = true)
    (behind : row ∈ back) :
    row ∉ (recoverAll platform staleHours rows ticks recovery).2 := by
  induction ticks generalizing before after recovery front with
  | nil => simp [recoverAll]
  | cons tick ticks ih =>
    obtain ⟨fixedNow, fixedLater⟩ := List.forall_mem_cons.mp fixed
    obtain ⟨passed, rest, parts, succeed, -, cases⟩ :=
      @recover_cases platform _ _ _ _ _ tick _ fixedNow sorted marks
    rw [recoverAll_cons, List.mem_append, not_or]
    rcases mem_passed_or (parts.symm.trans split) with there | ⟨between, frontSplit, restSplit⟩
    · rw [succeed other there] at fails
      cases fails
    · have nodup : (passed ++ rest).Nodup := by
        have distinct := sorted.pairwise
        rw [parts] at distinct
        exact ((List.pairwise_append.mp distinct).2.1).imp fun less same => (same ▸ less).false
      rw [restSplit, List.append_cons, ← List.append_assoc, List.nodup_append] at nodup
      have apart : row ∉ passed ++ (between ++ [other]) :=
        fun member => nodup.2.2 row member row behind rfl
      rw [List.mem_append, not_or] at apart
      cases cases with
      | resets all => simp [all] at restSplit
      | passes marked _ attempts =>
        exact ⟨attempts ▸ apart.1, ih fixedLater (sorted.move parts) marked restSplit⟩
      | fails marked head later headSplit _ attempts =>
        refine ⟨?_, ih fixedLater (sorted.move parts) marked restSplit⟩
        have among : head ∈ between ++ [other] := by
          cases between with
          | nil => simp [(List.cons.inj (headSplit.symm.trans restSplit)).1]
          | cons next between => simp [(List.cons.inj (headSplit.symm.trans restSplit)).1]
        rw [attempts, List.mem_append, List.mem_singleton]
        rintro (there | rfl)
        · exact apart.1 there
        · exact apart.2 among

/-! ## The recovery -/

/-- At least so many of the ticks are steady. -/
def ManySteady (count : Nat) (ticks : List Tick) : Prop :=
  ∃ steady : List Tick, steady.Sublist ticks ∧ (∀ tick ∈ steady, tick.Steady) ∧
    count ≤ steady.length

/-- Without failures a sweep attempts every row once, and takes as many ticks as it has batches and
one that is not full. -/
def SweepsOnce (platform : Platform) (staleHours now : Nat) (files : StoredFiles) : Prop :=
  ∀ queue ticks, Fixed staleHours files.rows (files.eligible staleHours now) ticks →
    (∀ tick ∈ ticks, tick.Steady) →
    (ticks.length = (files.eligible staleHours now).length / RECOVERY_BATCH_SIZE + 1 →
      (recoverAll platform staleHours files.rows ticks { queue }).2.Perm
          (files.eligible staleHours now) ∧
        (recoverAll platform staleHours files.rows ticks { queue }).1.cursor = INITIAL_CURSOR) ∧
    (0 < ticks.length →
      ticks.length ≤ (files.eligible staleHours now).length / RECOVERY_BATCH_SIZE →
        (recoverAll platform staleHours files.rows ticks { queue }).1.cursor ≠ INITIAL_CURSOR)

/-- The rows that do not fail are attempted within a bounded number of steady ticks. -/
def Covers (platform : Platform) (staleHours now : Nat) (files : StoredFiles) : Prop :=
  ∃ bound, ∀ queue ticks, Fixed staleHours files.rows (files.eligible staleHours now) ticks →
    ManySteady bound ticks → ∀ row ∈ files.eligible staleHours now, platform.fails row = false →
      row ∈ (recoverAll platform staleHours files.rows ticks { queue }).2

/-- No row that does not fail is behind one that does. -/
def FailuresLast (platform : Platform) (staleHours now : Nat) (files : StoredFiles) : Prop :=
  ∀ row ∈ files.eligible staleHours now, platform.fails row = false →
    ∀ other ∈ files.eligible staleHours now, platform.fails other = true →
      cursorOf row < cursorOf other

end

section
variable {platform : Platform} {staleHours now : Nat} {files : StoredFiles}
  {row other : StoredFileRow}

theorem StoredFiles.sorted (files : StoredFiles) (staleHours now : Nat) :
    Sorted (files.eligible staleHours now) []
      (orderBy cursorOf (files.eligible staleHours now)) := by
  refine ⟨List.pairwise_map.mpr ?_, rfl⟩
  refine ((List.pairwise_map.mp files.unique).sublist List.filter_sublist).imp ?_
  intro first second apart same
  have text : first.id.text = second.id.text := congrArg (fun cursor => (ofLex cursor).2) same
  exact apart (by cases firstId : first.id; cases secondId : second.id; simp_all)

/-- A sweep starts before every row. -/
theorem StoredFiles.marks (files : StoredFiles) (staleHours now : Nat) :
    Marks cursorOf INITIAL_CURSOR [] (orderBy cursorOf (files.eligible staleHours now)) where
  passed := by simp
  ahead row member := by
    have present := (List.mem_filter.mp (CursorSweep.mem_orderBy.mp member)).1
    exact Prod.Lex.toLex_lt_toLex.mpr (.inl (files.epoch row present))

/-- The cursor is beyond the start once it has passed a row. -/
theorem ne_initial_of_marks {recovery : Recovery} {passed rest : List StoredFileRow}
    (marks : Marks cursorOf recovery.cursor passed rest) (some : 0 < passed.length)
    (among : ∀ row ∈ passed, INITIAL_CURSOR < cursorOf row) :
    recovery.cursor ≠ INITIAL_CURSOR := by
  obtain ⟨row, member⟩ := List.exists_mem_of_length_pos some
  exact ((among row member).trans_le (marks.passed row member)).ne'

theorem sweepsOnce (succeed : ∀ row ∈ files.eligible staleHours now, platform.fails row = false) :
    SweepsOnce platform staleHours now files := by
  intro queue ticks fixed steady
  have perm := CursorSweep.perm_orderBy cursorOf (files.eligible staleHours now)
  have marks := files.marks staleHours now
  obtain ⟨ends, goes⟩ := @steady_sweep platform staleHours _ _ _ _ ticks { queue } fixed steady
    (files.sorted staleHours now) marks fun row member => succeed row (perm.mem_iff.mp member)
  rw [perm.length_eq] at ends goes
  constructor
  · intro last
    obtain ⟨attempted, cursor⟩ := ends last
    exact ⟨attempted ▸ perm, cursor⟩
  · intro positive few
    obtain ⟨passed, rest, split, count, marked⟩ := goes few
    refine ne_initial_of_marks marked ?_ fun row member => ?_
    · have size : RECOVERY_BATCH_SIZE = 100 := rfl
      rw [List.nil_append, count, size]
      omega
    · exact marks.ahead row (split ▸ List.mem_append_left _ member)

/-- Rows behind one that fails are never attempted. -/
theorem failuresLast_of_covers (covers : Covers platform staleHours now files) :
    FailuresLast platform staleHours now files := by
  intro row member succeeds other otherMember fails
  obtain ⟨bound, covers⟩ := covers
  by_contra before
  have sorted := files.sorted staleHours now
  have apart : cursorOf other ≠ cursorOf row := fun same => by
    rw [List.inj_on_of_nodup_map sorted.distinct otherMember member same, succeeds] at fails
    cases fails
  have less : cursorOf other < cursorOf row := lt_of_le_of_ne (not_lt.mp before) apart
  obtain ⟨front, back, split⟩ :=
    List.append_of_mem ((CursorSweep.perm_orderBy cursorOf _).mem_iff.mpr otherMember)
  have behind : row ∈ back := by
    have present := (CursorSweep.perm_orderBy cursorOf _).mem_iff.mpr member
    have pairs := sorted.pairwise
    rw [List.nil_append, split] at pairs
    rw [split, List.mem_append, List.mem_cons] at present
    rcases present with earlier | rfl | later
    · have first := (List.pairwise_append.mp pairs).2.2 row earlier other List.mem_cons_self
      exact absurd first less.asymm
    · exact absurd rfl apart
    · exact later
  let steady : Tick := { now, leads := fun _ => true, database := true }
  have fixed : Fixed staleHours files.rows (files.eligible staleHours now)
      (List.replicate bound steady) := fun tick among => by
    rw [List.eq_of_mem_replicate among]
    rfl
  have many : ManySteady bound (List.replicate bound steady) :=
    ⟨_, .refl _, fun tick among => List.eq_of_mem_replicate among ▸ ⟨fun _ => rfl, rfl⟩, by simp⟩
  exact @not_mem_attempts platform staleHours _ _ _ _ _ { } row other front back fixed sorted
    (files.marks staleHours now) split fails behind
    (covers (fun _ => none) _ fixed many row member succeeds)

theorem covers_of_failuresLast (last : FailuresLast platform staleHours now files) :
    Covers platform staleHours now files := by
  refine ⟨(files.eligible staleHours now).length / RECOVERY_BATCH_SIZE + 1, ?_⟩
  rintro queue ticks fixed ⟨steady, among, allSteady, many⟩ row member succeeds
  have perm := CursorSweep.perm_orderBy cursorOf (files.eligible staleHours now)
  have sorted := files.sorted staleHours now
  obtain ⟨front, back, split⟩ := List.append_of_mem (perm.mem_iff.mpr member)
  have succeedFront : ∀ other ∈ front, platform.fails other = false := by
    intro other earlier
    have pairs := sorted.pairwise
    rw [List.nil_append, split] at pairs
    have less := (List.pairwise_append.mp pairs).2.2 other earlier row List.mem_cons_self
    by_contra fails
    have present : other ∈ files.eligible staleHours now :=
      perm.mem_iff.mp (split ▸ List.mem_append_left _ earlier)
    exact less.asymm (last row member succeeds other present (by simpa using fails))
  refine @mem_attempts platform staleHours _ _ _ _ ticks { queue } row front back steady fixed
    among allSteady sorted (files.marks staleHours now) split succeedFront succeeds ?_
  have length := perm.length_eq
  have size : RECOVERY_BATCH_SIZE = 100 := rfl
  rw [split, List.length_append, List.length_cons] at length
  rw [size] at many ⊢
  omega

/-- Without failures a sweep attempts every row once, and the rows that do not fail are attempted
within a bounded number of ticks exactly if none of them is behind one that does. -/
theorem recovery_laws (platform : Platform) (staleHours now : Nat) (files : StoredFiles) :
    ((∀ row ∈ files.eligible staleHours now, platform.fails row = false) →
        SweepsOnce platform staleHours now files) ∧
      (Covers platform staleHours now files ↔ FailuresLast platform staleHours now files) :=
  ⟨sweepsOnce, failuresLast_of_covers, covers_of_failuresLast⟩

end

/-! ## A row that cannot be enqueued -/

def sampleRow (id : Upload.Uuid) (key : String) (updatedAt : Nat) : StoredFileRow where
  id
  organizationId := "organization"
  userId := id
  sourceKey := "uploads/" ++ key
  key
  bucket := "uploads"
  contentType := "image/png"
  size := 1
  etag := "etag"
  status := .verifying
  updatedAt

theorem length_earlier : "019a0f6e-3c1b-7d2e-9b7a-5f4e3d2c1b0a".length = 36 := by decide +kernel

theorem length_later : "019a0f6e-3c1b-7d2e-9b7a-5f4e3d2c1b0b".length = 36 := by decide +kernel

def earlierRow : StoredFileRow :=
  sampleRow ⟨"019a0f6e-3c1b-7d2e-9b7a-5f4e3d2c1b0a", length_earlier⟩ "files/first.png" 1

def laterRow : StoredFileRow :=
  sampleRow ⟨"019a0f6e-3c1b-7d2e-9b7a-5f4e3d2c1b0b", length_later⟩ "files/second.png" 2

def twoFiles : StoredFiles where
  rows := [earlierRow, laterRow]
  unique := by decide +kernel
  epoch := by decide +kernel

/-- The queue cannot handle the job of the earlier row. -/
def brokenPlatform : Platform where
  sha256 key := key
  broken jobId := jobId == "verify__files/first.png"

/-- The later row is never recovered. -/
theorem laterRow_starves :
    ¬Covers brokenPlatform 24 60000 twoFiles ∧
      laterRow ∈ twoFiles.eligible 24 60000 ∧ brokenPlatform.fails laterRow = false := by
  have later : laterRow ∈ twoFiles.eligible 24 60000 := by decide +kernel
  have succeeds : brokenPlatform.fails laterRow = false := by decide +kernel
  refine ⟨fun covers => ?_, later, succeeds⟩
  have less := failuresLast_of_covers covers laterRow later succeeds earlierRow (by decide +kernel)
    (by decide +kernel)
  rcases Prod.Lex.toLex_lt_toLex.mp less with earlier | ⟨same, -⟩
  · exact absurd earlier (by decide)
  · exact absurd same (by decide)

end NestjsFastify.VerificationRecovery
