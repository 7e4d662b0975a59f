import Mathlib.Data.List.Nodup
import NestjsFastify.DeadLetterQueue

/-! # Dead letters are complete

A pass of the task leaves an entry for every job that it has scanned, unless the job had attempts
left: a job that is failed for having stalled too often keeps them, and no router takes it.
-/
namespace NestjsFastify.DeadLetters

abbrev QueueWorld : Type := SharedService.World Queues RouterPhase

abbrev QueueEvent : Type := SharedService.Event RouterPhase QueueOutcome JobEvent

abbrev QueueHistory : Type := List (QueueWorld × QueueEvent)

/-! ### What happens to jobs -/

theorem Queues.mem_put {queues : Queues} {job other : Job} :
    other ∈ (queues.put job).jobs ↔ other = job ∨ (other ∈ queues.jobs ∧ other.id ≠ job.id) := by
  simp [put]

theorem Queues.getJob_some {queues : Queues} {id : String} {job : Job}
    (found : queues.getJob id = some job) : job ∈ queues.jobs ∧ job.id = id :=
  ⟨List.mem_of_find?_eq_some found, by simpa using List.find?_some found⟩

theorem Queues.getJob_none {queues : Queues} {id : String} (missing : queues.getJob id = none)
    {job : Job} (member : job ∈ queues.jobs) : job.id ≠ id := by
  simpa using List.find?_eq_none.mp missing job member

/-- A job that was there goes on as the other one. -/
structure Job.Becomes (job changed : Job) : Prop where
  id : changed.id = job.id
  number : changed.number = job.number
  attempts : changed.maxAttempts = job.maxAttempts
  more : job.attemptsMade ≤ changed.attemptsMade

/-- What an event does to the jobs. -/
inductive JobChange (queues : Queues) (event : JobEvent) : Queues → Prop
  | added {job : Job} (absent : ∀ other ∈ queues.jobs, other.id ≠ job.id)
      (number : job.number = queues.nextNumber) (state : job.state = .pending) :
      JobChange queues event { queues.put job with nextNumber := queues.nextNumber + 1 }
  | changed {job next : Job} (member : job ∈ queues.jobs) (becomes : job.Becomes next)
      (state : next.state ≠ .failed) : JobChange queues event (queues.put next)
  | failed {job next : Job} {failedReason : String} (member : job ∈ queues.jobs)
      (becomes : job.Becomes next)
      (spent : next.maxAttempts ≤ next.attemptsMade ∨ event = .stalled job.id ∧ job = next) :
      JobChange queues event (queues.fail next failedReason)
  | removed {id : String} : JobChange queues event
      { queues with jobs := queues.jobs.filter fun other => other.id ≠ id }

theorem jobStep_cases {queues after : Queues} {event : JobEvent}
    (taken : jobStep queues event = some after) : JobChange queues event after := by
  cases event with
  | added id name data attempts =>
    simp only [jobStep, Option.ite_none_right_eq_some, Option.isNone_iff_eq_none,
      Option.some.injEq] at taken
    obtain ⟨missing, rfl⟩ := taken
    exact .added (fun other member => Queues.getJob_none missing member) rfl rfl
  | attemptFailed id failedReason =>
    simp only [jobStep, Option.map_eq_some_iff] at taken
    obtain ⟨job, found, rfl⟩ := taken
    obtain ⟨member, -⟩ := Queues.getJob_some (Option.filter_eq_some_iff.mp found).1
    have pending : job.state = .pending := by simpa using (Option.filter_eq_some_iff.mp found).2
    split_ifs with left
    · exact .changed member ⟨rfl, rfl, rfl, Nat.le_succ _⟩ (by simp [pending])
    · exact .failed member ⟨rfl, rfl, rfl, Nat.le_succ _⟩ (.inl (Nat.not_lt.mp left))
  | stalled id =>
    simp only [jobStep, Option.map_eq_some_iff] at taken
    obtain ⟨job, found, rfl⟩ := taken
    obtain ⟨member, rfl⟩ := Queues.getJob_some (Option.filter_eq_some_iff.mp found).1
    exact .failed member ⟨rfl, rfl, rfl, Nat.le_refl _⟩ (.inr ⟨rfl, rfl⟩)
  | completed id =>
    simp only [jobStep, Option.map_eq_some_iff] at taken
    obtain ⟨job, found, rfl⟩ := taken
    obtain ⟨member, -⟩ := Queues.getJob_some (Option.filter_eq_some_iff.mp found).1
    exact .changed member ⟨rfl, rfl, rfl, Nat.le_succ _⟩ (by simp)
  | retried id =>
    simp only [jobStep, Option.map_eq_some_iff] at taken
    obtain ⟨job, found, rfl⟩ := taken
    obtain ⟨member, -⟩ := Queues.getJob_some (Option.filter_eq_some_iff.mp found).1
    exact .changed member ⟨rfl, rfl, rfl, Nat.le_refl _⟩ (by simp)
  | removed id =>
    simp only [jobStep, Option.map_eq_some_iff] at taken
    obtain ⟨job, -, rfl⟩ := taken
    exact .removed

/-! ### Numbers -/

/-- Jobs differ in their ids and in their numbers, and entries in their ids. -/
structure WellKept (queues : Queues) : Prop where
  ids : ∀ job ∈ queues.jobs, ∀ other ∈ queues.jobs, job.id = other.id → job = other
  numbers : ∀ job ∈ queues.jobs, ∀ other ∈ queues.jobs, job.number = other.number → job = other
  issued : ∀ job ∈ queues.jobs, job.number < queues.nextNumber
  entries : (queues.entries.map DeadLetter.id).Nodup

theorem WellKept.put {queues : Queues} (wellKept : WellKept queues) {next : Job}
    (apart : ∀ other ∈ queues.jobs, other.id ≠ next.id → other.number ≠ next.number)
    {nextNumber : Nat} (grows : queues.nextNumber ≤ nextNumber)
    (issued : next.number < nextNumber) (events : List FailedEvent) :
    WellKept { queues.put next with nextNumber, events } where
  ids job member other otherMember same := by
    rcases Queues.mem_put.mp member with rfl | ⟨own, different⟩ <;>
      rcases Queues.mem_put.mp otherMember with rfl | ⟨otherOwn, otherDifferent⟩
    · rfl
    · exact absurd same.symm otherDifferent
    · exact absurd same different
    · exact wellKept.ids job own other otherOwn same
  numbers job member other otherMember same := by
    rcases Queues.mem_put.mp member with rfl | ⟨own, different⟩ <;>
      rcases Queues.mem_put.mp otherMember with rfl | ⟨otherOwn, otherDifferent⟩
    · rfl
    · exact absurd same.symm (apart other otherOwn otherDifferent)
    · exact absurd same (apart job own different)
    · exact wellKept.numbers job own other otherOwn same
  issued job member := by
    rcases Queues.mem_put.mp member with rfl | ⟨own, -⟩
    · exact issued
    · exact Nat.lt_of_lt_of_le (wellKept.issued job own) grows
  entries := wellKept.entries

theorem WellKept.change {queues after : Queues} {event : JobEvent} (wellKept : WellKept queues)
    (change : JobChange queues event after) : WellKept after := by
  have kept : ∀ {job next : Job}, job ∈ queues.jobs → job.Becomes next →
      ∀ other ∈ queues.jobs, other.id ≠ next.id → other.number ≠ next.number := by
    intro job next member becomes other own different same
    have here := wellKept.numbers other own job member (same.trans becomes.number)
    exact different (here ▸ becomes.id.symm)
  cases change with
  | @added job absent number state =>
    exact wellKept.put (fun other own _ same =>
      absurd (wellKept.issued other own) (by rw [same, number]; exact Nat.lt_irrefl _))
      (Nat.le_succ _) (number ▸ Nat.lt_succ_self _) queues.events
  | changed member becomes state =>
    exact wellKept.put (kept member becomes) (Nat.le_refl _)
      (becomes.number ▸ wellKept.issued _ member) queues.events
  | @failed job next failedReason member becomes spent =>
    exact @WellKept.put queues wellKept
      { next with state := .failed, failedReason := some failedReason }
      (fun other own different => kept member becomes other own different) _ (Nat.le_refl _)
      (becomes.number ▸ wellKept.issued _ member) _
  | removed =>
    exact ⟨fun job member other own => wellKept.ids job (List.mem_filter.mp member).1 other
        (List.mem_filter.mp own).1,
      fun job member other own => wellKept.numbers job (List.mem_filter.mp member).1 other
        (List.mem_filter.mp own).1,
      fun job member => wellKept.issued job (List.mem_filter.mp member).1, wellKept.entries⟩

/-! ### Entries -/

/-- The job of this id has an entry. -/
def Queues.Delivered (queues : Queues) (id : String) : Prop :=
  ∃ entry ∈ queues.entries, entry.id = dlqJobIdFor id

theorem Queues.any_entry {queues : Queues} {id : String} :
    (queues.entries.any fun entry => entry.id = id) = true ↔
      ∃ entry ∈ queues.entries, entry.id = id := by
  simp

theorem mem_entries_addEntry {queues : Queues} {entry other : DeadLetter}
    (member : other ∈ (queues.addEntry entry).entries) :
    other ∈ queues.entries ∨ other = entry := by
  unfold Queues.addEntry at member
  split_ifs at member
  · exact .inl member
  · simpa using member

theorem Queues.Delivered.addEntry {queues : Queues} {id : String} (delivered : queues.Delivered id)
    (entry : DeadLetter) : (queues.addEntry entry).Delivered id := by
  obtain ⟨other, own, same⟩ := delivered
  unfold Queues.addEntry
  split_ifs
  · exact ⟨other, own, same⟩
  · exact ⟨other, List.mem_append_left _ own, same⟩

theorem delivered_addEntry {queues : Queues} {id : String} {entry : DeadLetter}
    (same : entry.id = dlqJobIdFor id) : (queues.addEntry entry).Delivered id := by
  unfold Queues.addEntry
  split_ifs with there
  · obtain ⟨other, own, equal⟩ := Queues.any_entry.mp there
    exact ⟨other, own, equal.trans same⟩
  · exact ⟨entry, List.mem_append_right _ List.mem_cons_self, same⟩

theorem WellKept.addEntry {queues : Queues} (wellKept : WellKept queues) (entry : DeadLetter) :
    WellKept (queues.addEntry entry) := by
  unfold Queues.addEntry
  split_ifs with there
  · exact wellKept
  · refine ⟨wellKept.ids, wellKept.numbers, wellKept.issued, ?_⟩
    simp only [List.map_append, List.map_singleton]
    refine List.nodup_append.mpr ⟨wellKept.entries, List.nodup_singleton _, ?_⟩
    intro id old other new same
    obtain ⟨present, own, rfl⟩ := List.mem_map.mp old
    exact there (Queues.any_entry.mpr ⟨present, own, same.trans (List.mem_singleton.mp new)⟩)

/-- No id is given to two entries, so that there is one at most. -/
theorem countP_of_delivered {queues : Queues} (wellKept : WellKept queues) {id : String}
    (delivered : queues.Delivered id) :
    queues.entries.countP (fun entry => entry.id = dlqJobIdFor id) = 1 := by
  have counted : queues.entries.countP (fun entry => entry.id = dlqJobIdFor id) =
      (queues.entries.map DeadLetter.id).count (dlqJobIdFor id) := by
    rw [List.count, List.countP_map]
    rfl
  obtain ⟨entry, own, same⟩ := delivered
  rw [counted]
  exact List.count_eq_one_of_mem wellKept.entries (same ▸ List.mem_map_of_mem own)

/-! ### Jobs without attempts left -/

/-- The job of this number has used its attempts, if it is there. -/
structure Queues.Owed (queues : Queues) (number : Nat) (id : String) : Prop where
  issued : number < queues.nextNumber
  spent : ∀ job ∈ queues.jobs, job.number = number →
    job.id = id ∧ job.maxAttempts ≤ job.attemptsMade

def Queues.Gone (queues : Queues) (number : Nat) : Prop :=
  ∀ job ∈ queues.jobs, job.number ≠ number

/-- The job has an entry or is gone. -/
def Queues.Settled (queues : Queues) (number : Nat) (id : String) : Prop :=
  queues.Gone number ∨ queues.Delivered id

section Change
variable {queues after : Queues} {event : JobEvent} {number : Nat} {id : String}

theorem entries_change (change : JobChange queues event after) :
    after.entries = queues.entries := by
  cases change <;> rfl

/-- Every job is new, was there before, or has become of one that was. -/
theorem JobChange.origin (change : JobChange queues event after) {job : Job}
    (member : job ∈ after.jobs) : job.number = queues.nextNumber ∨ job ∈ queues.jobs ∨
      ∃ before ∈ queues.jobs, before.Becomes job := by
  cases change with
  | added absent fresh state =>
    rcases Queues.mem_put.mp member with rfl | ⟨own, -⟩
    · exact .inl fresh
    · exact .inr (.inl own)
  | changed own becomes state =>
    rcases Queues.mem_put.mp member with rfl | ⟨own, -⟩
    · exact .inr (.inr ⟨_, own, becomes⟩)
    · exact .inr (.inl own)
  | failed own becomes spent =>
    rcases Queues.mem_put.mp member with rfl | ⟨own, -⟩
    · exact .inr (.inr ⟨_, own, ⟨becomes.id, becomes.number, becomes.attempts, becomes.more⟩⟩)
    · exact .inr (.inl own)
  | removed => exact .inr (.inl (List.mem_filter.mp member).1)

theorem nextNumber_change (change : JobChange queues event after) :
    queues.nextNumber ≤ after.nextNumber := by
  cases change with
  | added => exact Nat.le_succ _
  | _ => exact Nat.le_refl _

theorem Queues.Owed.change (owed : queues.Owed number id)
    (change : JobChange queues event after) : after.Owed number id where
  issued := Nat.lt_of_lt_of_le owed.issued (nextNumber_change change)
  spent job member same := by
    rcases change.origin member with fresh | own | ⟨before, own, becomes⟩
    · exact absurd owed.issued (by rw [← same, fresh]; exact Nat.lt_irrefl _)
    · exact owed.spent job own same
    · obtain ⟨here, spent⟩ := owed.spent before own (becomes.number ▸ same)
      refine ⟨becomes.id.trans here, ?_⟩
      rw [becomes.attempts]
      exact Nat.le_trans spent becomes.more

theorem Queues.Settled.change (settled : queues.Settled number id) (owed : queues.Owed number id)
    (change : JobChange queues event after) : after.Settled number id := by
  rcases settled with gone | ⟨entry, own, same⟩
  · refine .inl fun job member equal => ?_
    rcases change.origin member with fresh | own | ⟨before, own, becomes⟩
    · exact absurd owed.issued (by rw [← equal, fresh]; exact Nat.lt_irrefl _)
    · exact gone job own equal
    · exact gone before own (becomes.number ▸ equal)
  · exact .inr ⟨entry, entries_change change ▸ own, same⟩

end Change

/-! ### Statements -/

section Statements
variable {queues after : Queues} {request : QueueRequest} {outcome : QueueOutcome}
  {response : QueueResponse}

theorem performQueue_cases (performed : performQueue queues request outcome =
    some (after, response)) : (after = queues ∨ after = queues.effect request) ∧
      (response = .failed ∨ ∃ pick clock, outcome = .done pick clock ∧
        after = queues.effect request ∧ response = queues.respond pick clock request) := by
  cases outcome with
  | done pick clock =>
    obtain ⟨rfl, rfl⟩ := Prod.mk.inj (Option.some.inj performed)
    exact ⟨.inr rfl, .inr ⟨pick, clock, rfl, rfl, rfl⟩⟩
  | refused =>
    obtain ⟨rfl, rfl⟩ := Prod.mk.inj (Option.some.inj performed)
    exact ⟨.inl rfl, .inl rfl⟩
  | lost =>
    obtain ⟨rfl, rfl⟩ := Prod.mk.inj (Option.some.inj performed)
    exact ⟨.inr rfl, .inl rfl⟩

theorem jobs_effect (queues : Queues) (request : QueueRequest) :
    (queues.effect request).jobs = queues.jobs ∧
      (queues.effect request).nextNumber = queues.nextNumber ∧
        (queues.effect request).events = queues.events := by
  cases request with
  | add entry =>
    simp only [Queues.effect, Queues.addEntry]
    split_ifs <;> exact ⟨rfl, rfl, rfl⟩
  | _ => exact ⟨rfl, rfl, rfl⟩

theorem jobs_perform (performed : performQueue queues request outcome = some (after, response)) :
    after.jobs = queues.jobs ∧ after.nextNumber = queues.nextNumber ∧
      after.events = queues.events := by
  rcases (performQueue_cases performed).1 with rfl | rfl
  · exact ⟨rfl, rfl, rfl⟩
  · exact jobs_effect queues request

theorem Queues.Delivered.perform {id : String} (delivered : queues.Delivered id)
    (performed : performQueue queues request outcome = some (after, response)) :
    after.Delivered id := by
  rcases (performQueue_cases performed).1 with rfl | rfl
  · exact delivered
  · cases request with
    | add entry => exact delivered.addEntry entry
    | _ => exact delivered

theorem WellKept.perform (wellKept : WellKept queues)
    (performed : performQueue queues request outcome = some (after, response)) :
    WellKept after := by
  rcases (performQueue_cases performed).1 with rfl | rfl
  · exact wellKept
  · cases request with
    | add entry => exact wellKept.addEntry entry
    | _ => exact wellKept

theorem Queues.Owed.perform {number : Nat} {id : String} (owed : queues.Owed number id)
    (performed : performQueue queues request outcome = some (after, response)) :
    after.Owed number id := by
  obtain ⟨jobs, nextNumber, -⟩ := jobs_perform performed
  exact ⟨nextNumber ▸ owed.issued, jobs ▸ owed.spent⟩

theorem Queues.Settled.perform {number : Nat} {id : String} (settled : queues.Settled number id)
    (performed : performQueue queues request outcome = some (after, response)) :
    after.Settled number id := by
  rcases settled with gone | delivered
  · exact .inl (by unfold Queues.Gone; rw [(jobs_perform performed).1]; exact gone)
  · exact .inr (delivered.perform performed)

end Statements

/-! ### Passes -/

/-- The router still has the job to route. -/
def RouterPhase.Awaits (id : String) : RouterPhase → Prop
  | .checking candidates _ _ => ∃ candidate ∈ candidates, candidate.jobId = id
  | .gettingJob args rest => args.jobId = id ∨ ∃ candidate ∈ rest, candidate.jobId = id
  | .adding entry rest => entry.id = dlqJobIdFor id ∨ ∃ candidate ∈ rest, candidate.jobId = id
  | _ => False

theorem awaits_routeNext {rest : List Candidate} {id : String} :
    (routeNext rest).Awaits id ↔ ∃ candidate ∈ rest, candidate.jobId = id := by
  cases rest with
  | nil => simp [routeNext, RouterPhase.Awaits]
  | cons candidate rest => simp [routeNext, RouterPhase.Awaits]

theorem awaits_routeCandidates {candidates : List Candidate} {routed : List String} {id : String} :
    (routeCandidates candidates routed).Awaits id ↔
      (∃ candidate ∈ candidates, candidate.jobId = id) ∧ id ∉ routed := by
  rw [routeCandidates, awaits_routeNext]
  constructor
  · rintro ⟨candidate, member, rfl⟩
    obtain ⟨own, unrouted⟩ := List.mem_filter.mp member
    exact ⟨⟨candidate, own, rfl⟩, of_decide_eq_true unrouted⟩
  · rintro ⟨⟨candidate, own, rfl⟩, unrouted⟩
    exact ⟨candidate, List.mem_filter.mpr ⟨own, decide_eq_true unrouted⟩, rfl⟩

/-- A candidate is awaited until an entry is found for it. -/
theorem awaits_checkNext {candidates pending : List Candidate} {routed : List String} {id : String}
    (own : ∃ candidate ∈ candidates, candidate.jobId = id) (unrouted : id ∉ routed) :
    (checkNext candidates pending routed).Awaits id := by
  unfold checkNext
  split_ifs
  · exact awaits_routeCandidates.mpr ⟨own, unrouted⟩
  · exact own

variable {source : SourceQueue} {history : QueueHistory} {world : QueueWorld}

/-- No statement of the process has failed. -/
def ErrorFree (history : QueueHistory) (process : Nat) : Prop :=
  ∀ entry ∈ history, ∀ outcome, entry.2 = .advance process outcome →
    ∃ pick clock, outcome = .done pick clock

/-- The process has found the job among the failed ones. -/
def Scanned (source : SourceQueue) (history : QueueHistory) (process : Nat) (job : Job) : Prop :=
  ∃ queues failed, (deadLetterService source).Answered history process queues
    (.getFailed 0 (reconcileScanLimit - 1)) (.jobs failed) ∧ job ∈ failed

theorem scanned_cons {entry : QueueWorld × QueueEvent} {process : Nat} {job : Job}
    (scanned : Scanned source (entry :: history) process job) :
    Scanned source history process job ∨ ∃ outcome phase after failed,
      entry.2 = .advance process outcome ∧ entry.1.processes process = .running phase ∧
        phase.request = some (.getFailed 0 (reconcileScanLimit - 1)) ∧
          performQueue entry.1.shared (.getFailed 0 (reconcileScanLimit - 1)) outcome =
            some (after, .jobs failed) ∧ job ∈ failed := by
  obtain ⟨queues, failed, ⟨moment, oracle, phase, after, member, rfl, running, requested,
    performed⟩, own⟩ := scanned
  rcases List.mem_cons.mp member with rfl | old
  · exact .inr ⟨oracle, phase, after, failed, rfl, running, requested, performed, own⟩
  · exact .inl ⟨_, failed, ⟨moment, oracle, phase, after, old, rfl, running, requested,
      performed⟩, own⟩

/-- Every job that a pass has scanned without attempts left has its entry, is gone, or is still to
be routed. -/
structure PassTrace (source : SourceQueue) (history : QueueHistory) (queues : Queues)
    (process : Nat) (phase : RouterPhase) : Prop where
  routed : ∀ candidates pending routed, phase = .checking candidates pending routed →
    ∀ id ∈ routed, queues.Delivered id
  owed : ErrorFree history process → ∀ job, Scanned source history process job →
    job.maxAttempts ≤ job.attemptsMade → queues.Owed job.number job.id ∧
      (queues.Settled job.number job.id ∨ phase.Awaits job.id)

/-- What another process or the queue does takes nothing away. -/
theorem PassTrace.kept {queues after : Queues} {process : Nat} {phase : RouterPhase}
    (trace : PassTrace source history queues process phase) {entry : QueueWorld × QueueEvent}
    (other : ∀ outcome, entry.2 ≠ .advance process outcome)
    (delivered : ∀ id, queues.Delivered id → after.Delivered id)
    (owed : ∀ number id, queues.Owed number id → after.Owed number id)
    (settled : ∀ number id, queues.Owed number id → queues.Settled number id →
      after.Settled number id) :
    PassTrace source (entry :: history) after process phase where
  routed candidates pending routed same id member :=
    delivered id (trace.routed candidates pending routed same id member)
  owed free job scanned spent := by
    have before : Scanned source history process job :=
      (scanned_cons scanned).resolve_right fun ⟨outcome, _, _, _, same, _⟩ => other outcome same
    obtain ⟨still, rest⟩ := trace.owed (fun entry member => free entry
      (List.mem_cons_of_mem _ member)) job before spent
    exact ⟨owed _ _ still, rest.imp_left (settled _ _ still)⟩

/-- The answers to the statements of a pass. -/
theorem settled_or_awaits_resume {queues : Queues} (wellKept : WellKept queues) {phase : RouterPhase}
    {request : QueueRequest} (requested : phase.request = some request) {number : Nat} {id : String}
    (owed : queues.Owed number id) (routed : ∀ candidates pending routed,
      phase = .checking candidates pending routed → ∀ id ∈ routed, queues.Delivered id)
    (awaits : phase.Awaits id) (pick clock : Nat) :
    (queues.effect request).Settled number id ∨
      (phase.resume source (queues.respond pick clock request)).Awaits id := by
  cases phase with
  | scanning => exact awaits.elim
  | finished => exact awaits.elim
  | checking candidates pending already =>
    obtain rfl := Option.some.inj requested
    simp only [Queues.respond]
    split
    next jobId picked =>
      by_cases present : (queues.entries.any fun entry => entry.id = dlqJobIdFor jobId) = true
      · simp only [RouterPhase.resume, present, if_true]
        by_cases found : id ∈ jobId :: already
        · refine .inl (.inr ?_)
          rcases List.mem_cons.mp found with rfl | before
          · exact Queues.any_entry.mp present
          · exact routed candidates pending already rfl id before
        · exact .inr (awaits_checkNext awaits found)
      · simp only [RouterPhase.resume, present]
        by_cases found : id ∈ already
        · exact .inl (.inr (routed candidates pending already rfl id found))
        · exact .inr (awaits_checkNext awaits found)
    next => exact .inr (awaits_routeCandidates.mpr ⟨awaits, List.not_mem_nil⟩)
  | gettingJob args rest =>
    obtain rfl := Option.some.inj requested
    simp only [Queues.respond, RouterPhase.resume, Queues.effect]
    rcases awaits with rfl | later
    · cases found : queues.getJob args.jobId with
      | none =>
        refine .inl (.inl fun job member same => ?_)
        exact Queues.getJob_none found member (owed.spent job member same).1
      | some job =>
        obtain ⟨member, here⟩ := Queues.getJob_some found
        simp only [RouterPhase.resumeJob]
        split_ifs with left
        · refine .inl (.inl fun other own same => ?_)
          obtain ⟨otherHere, spent⟩ := owed.spent other own same
          obtain rfl := wellKept.ids other own job member (otherHere.trans here.symm)
          exact absurd left (Nat.not_lt.mpr spent)
        · exact .inr (.inl (by rw [here]))
    · refine .inr ?_
      cases queues.getJob args.jobId with
      | none => exact awaits_routeNext.mpr later
      | some job =>
        simp only [RouterPhase.resumeJob]
        split_ifs
        · exact awaits_routeNext.mpr later
        · exact .inr later
  | adding entry rest =>
    obtain rfl := Option.some.inj requested
    rcases awaits with same | later
    · exact .inl (.inr (delivered_addEntry same))
    · exact .inr (awaits_routeNext.mpr later)

theorem routeNext_ne_checking {rest candidates pending : List Candidate} {routed : List String} :
    routeNext rest ≠ .checking candidates pending routed := by
  cases rest <;> exact fun impossible => (nomatch impossible)

theorem routed_of_checkNext {candidates pending others more : List Candidate}
    {already routed : List String}
    (same : checkNext candidates pending already = .checking others more routed) :
    routed = already := by
  unfold checkNext at same
  split_ifs at same
  · exact absurd same routeNext_ne_checking
  · exact (RouterPhase.checking.inj same).2.2.symm

/-- What the checks have found is there. -/
theorem routed_resume {queues : Queues} {phase : RouterPhase} {request : QueueRequest}
    (requested : phase.request = some request) (routed : ∀ candidates pending routed,
      phase = .checking candidates pending routed → ∀ id ∈ routed, queues.Delivered id)
    {response : QueueResponse} (answer : response = .failed ∨
      ∃ pick clock, response = queues.respond pick clock request)
    {candidates pending : List Candidate} {found : List String}
    (same : phase.resume source response = .checking candidates pending found) :
    ∀ id ∈ found, queues.Delivered id := by
  cases phase with
  | scanning =>
    cases response with
    | jobs failed =>
      rw [routed_of_checkNext same]
      exact fun _ impossible => absurd impossible List.not_mem_nil
    | _ => cases same
  | checking others more already =>
    obtain rfl := Option.some.inj requested
    have before := routed others more already rfl
    cases response with
    | entry jobId present =>
      rw [routed_of_checkNext same]
      cases present with
      | false => exact before
      | true =>
        rcases answer with impossible | ⟨pick, clock, answered⟩
        · cases impossible
        · simp only [Queues.respond] at answered
          split at answered
          · obtain ⟨rfl, there⟩ := QueueResponse.entry.inj answered
            intro id member
            rcases List.mem_cons.mp member with rfl | old
            · exact Queues.any_entry.mp there.symm
            · exact before id old
          · cases answered
    | _ => exact absurd same routeNext_ne_checking
  | gettingJob args rest =>
    cases response with
    | job found clock =>
      cases found with
      | none => exact absurd same routeNext_ne_checking
      | some job =>
        simp only [RouterPhase.resume, RouterPhase.resumeJob] at same
        split_ifs at same
        exact absurd same routeNext_ne_checking
    | _ => exact absurd same routeNext_ne_checking
  | adding entry rest => exact absurd same routeNext_ne_checking
  | finished => cases requested

theorem PassTrace.advance {process : Nat} {phase : RouterPhase}
    (trace : PassTrace source history world.shared process phase) (wellKept : WellKept world.shared)
    {request : QueueRequest} (requested : phase.request = some request) {outcome : QueueOutcome}
    {after : Queues} {response : QueueResponse}
    (running : world.processes process = .running phase)
    (performed : performQueue world.shared request outcome = some (after, response)) :
    PassTrace source ((world, .advance process outcome) :: history) after process
      (phase.resume source response) := by
  have answer := (performQueue_cases performed).2
  constructor
  case routed =>
    intro candidates pending routed same id member
    refine Queues.Delivered.perform (routed_resume requested trace.routed ?_ same id member) performed
    exact answer.imp_right fun ⟨pick, clock, _, _, same⟩ => ⟨pick, clock, same⟩
  case owed =>
    intro free job scanned spent
    obtain ⟨pick, clock, rfl⟩ := free _ List.mem_cons_self outcome rfl
    obtain ⟨rfl, rfl⟩ := Prod.mk.inj (Option.some.inj performed)
    rcases scanned_cons scanned with before | ⟨_, _, _, failed, same, was, asked, found, own⟩
    · obtain ⟨owed, rest⟩ := trace.owed (fun entry member => free entry
        (List.mem_cons_of_mem _ member)) job before spent
      refine ⟨owed.perform performed, ?_⟩
      rcases rest with settled | awaits
      · exact .inl (settled.perform performed)
      · exact settled_or_awaits_resume wellKept requested owed trace.routed awaits pick clock
    · obtain rfl := (SharedService.Event.advance.inj same).2
      obtain rfl := SharedService.Process.running.inj (running.symm.trans was)
      obtain rfl := Option.some.inj (requested.symm.trans asked)
      obtain rfl := QueueResponse.jobs.inj (Prod.mk.inj (Option.some.inj found)).2
      have member : job ∈ world.shared.jobs :=
        (List.mem_filter.mp (List.mem_of_mem_drop (List.mem_of_mem_take own))).1
      have owed : world.shared.Owed job.number job.id :=
        ⟨wellKept.issued job member, fun other there equal => by
          obtain rfl := wellKept.numbers other there job member equal
          exact ⟨rfl, spent⟩⟩
      refine ⟨owed.perform performed, .inr ?_⟩
      cases phase with
      | scanning =>
        exact awaits_checkNext ⟨_, List.mem_map_of_mem own, rfl⟩ List.not_mem_nil
      | _ => cases asked

/-- The passes of a run, and the processes that have made no statement yet. -/
structure PassesTraced (source : SourceQueue) (history : QueueHistory) (world : QueueWorld) :
    Prop where
  wellKept : WellKept world.shared
  trace : ∀ process phase, world.processes process = .running phase →
    PassTrace source history world.shared process phase
  absent : ∀ process, world.processes process = .absent → ∀ job,
    ¬ Scanned source history process job

theorem passesTraced_of_run (run : (deadLetterService source).system.Run history world) :
    PassesTraced source history world := by
  induction run with
  | @start world initial =>
    obtain ⟨⟨jobs, -, entries⟩, absent⟩ := initial
    refine ⟨⟨?_, ?_, ?_, ?_⟩, ?_, ?_⟩
    · simp [jobs]
    · simp [jobs]
    · simp [jobs]
    · simp [entries]
    · intro process phase running
      rw [absent process] at running
      cases running
    · rintro process - job ⟨_, _, ⟨_, _, _, _, impossible, -⟩, -⟩
      exact absurd impossible List.not_mem_nil
  | @step history before after event run taken ih =>
    cases SharedService.step_cases taken with
    | @spawn name phase absent admitted =>
      have keeps : ∀ process job, Scanned source ((before, .spawn name phase) :: history) process job →
          Scanned source history process job := fun process job scanned =>
        (scanned_cons scanned).resolve_right fun ⟨_, _, _, _, impossible, _⟩ => (nomatch impossible)
      refine ⟨ih.wellKept, fun process other running => ?_, fun process away job scanned => ?_⟩
      · rcases SharedService.update_running running with ⟨rfl, same⟩ | ⟨-, old⟩
        · obtain rfl := SharedService.Process.running.inj same
          refine ⟨fun candidates pending routed impossible => ?_, fun _ job scanned => ?_⟩
          · subst impossible
            exact absurd admitted Bool.false_ne_true
          · exact absurd (keeps process job scanned) (ih.absent process absent job)
        · exact (ih.trace process other old).kept (fun _ impossible => (nomatch impossible))
            (fun _ delivered => delivered) (fun _ _ owed => owed) fun _ _ _ settled => settled
      · by_cases here : process = name
        · exact ih.absent process (here ▸ absent) job (keeps process job scanned)
        · exact ih.absent process (by simpa [here] using away) job (keeps process job scanned)
    | @advance name outcome phase request shared response running requested performed =>
      refine ⟨ih.wellKept.perform performed, fun process other now => ?_,
        fun process away job scanned => ?_⟩
      · rcases SharedService.update_running now with ⟨rfl, same⟩ | ⟨different, old⟩
        · obtain rfl := SharedService.Process.running.inj same
          exact (ih.trace process phase running).advance ih.wellKept requested running performed
        · refine (ih.trace process other old).kept (fun _ same => ?_)
            (fun _ delivered => delivered.perform performed) (fun _ _ owed => owed.perform performed)
            fun _ _ _ settled => settled.perform performed
          exact different (SharedService.Event.advance.inj same).1.symm
      · have different : process ≠ name := by
          rintro rfl
          simp at away
        refine ih.absent process (by simpa [different] using away) job ?_
        refine (scanned_cons scanned).resolve_right fun ⟨_, _, _, _, same, _⟩ => ?_
        exact different (SharedService.Event.advance.inj same).1.symm
    | @crash name phase was =>
      have keeps : ∀ process job, Scanned source ((before, .crash name) :: history) process job →
          Scanned source history process job := fun process job scanned =>
        (scanned_cons scanned).resolve_right fun ⟨_, _, _, _, impossible, _⟩ => (nomatch impossible)
      refine ⟨ih.wellKept, fun process other running => ?_, fun process away job scanned => ?_⟩
      · rcases SharedService.update_running running with ⟨-, impossible⟩ | ⟨-, old⟩
        · cases impossible
        · exact (ih.trace process other old).kept (fun _ impossible => (nomatch impossible))
            (fun _ delivered => delivered) (fun _ _ owed => owed) fun _ _ _ settled => settled
      · have different : process ≠ name := by
          rintro rfl
          simp at away
        exact ih.absent process (by simpa [different] using away) job (keeps process job scanned)
    | @external event shared changed =>
      have change := jobStep_cases changed
      refine ⟨ih.wellKept.change change, fun process other running => ?_,
        fun process away job scanned => ?_⟩
      · exact (ih.trace process other running).kept (fun _ impossible => (nomatch impossible))
          (fun _ ⟨entry, own, same⟩ => ⟨entry, entries_change change ▸ own, same⟩)
          (fun _ _ owed => owed.change change) fun _ _ owed settled => settled.change owed change
      · refine ih.absent process away job ?_
        exact (scanned_cons scanned).resolve_right fun ⟨_, _, _, _, impossible, _⟩ =>
          (nomatch impossible)

/-! ### Entries are of failed jobs -/

/-- A job of this id is or was in the failed set. -/
def FailedBefore (history : QueueHistory) (world : QueueWorld) (id : String) : Prop :=
  (∃ job ∈ world.shared.jobs, job.id = id ∧ job.state = .failed) ∨
    ∃ moment ∈ history, ∃ job ∈ moment.1.shared.jobs, job.id = id ∧ job.state = .failed

theorem FailedBefore.step {id : String} (failed : FailedBefore history world id)
    (event : QueueEvent) (after : QueueWorld) :
    FailedBefore ((world, event) :: history) after id := by
  rcases failed with now | ⟨moment, member, earlier⟩
  · exact .inr ⟨(world, event), List.mem_cons_self, now⟩
  · exact .inr ⟨moment, List.mem_cons_of_mem _ member, earlier⟩

theorem dlqJobIdFor_injective {first second : String}
    (same : dlqJobIdFor first = dlqJobIdFor second) : first = second := by
  simpa [dlqJobIdFor] using same

theorem candidate_of_awaits {candidates pending : List Candidate} {routed : List String}
    {id : String} (awaits : (checkNext candidates pending routed).Awaits id) :
    ∃ candidate ∈ candidates, candidate.jobId = id := by
  unfold checkNext at awaits
  split_ifs at awaits
  · exact (awaits_routeCandidates.mp awaits).1
  · exact awaits

/-- A router takes up only what it was started for and what it finds failed. -/
theorem awaits_of_resume {queues : Queues} {phase : RouterPhase} {request : QueueRequest}
    (requested : phase.request = some request) {response : QueueResponse}
    (answer : response = .failed ∨ ∃ pick clock, response = queues.respond pick clock request)
    {id : String} (awaits : (phase.resume source response).Awaits id) :
    phase.Awaits id ∨ ∃ job ∈ queues.jobs, job.id = id ∧ job.state = .failed := by
  cases phase with
  | scanning =>
    obtain rfl := Option.some.inj requested
    cases response with
    | jobs failed =>
      obtain ⟨candidate, member, rfl⟩ := candidate_of_awaits awaits
      obtain ⟨job, own, rfl⟩ := List.mem_map.mp member
      rcases answer with impossible | ⟨pick, clock, answered⟩
      · cases impossible
      · obtain rfl := QueueResponse.jobs.inj answered
        obtain ⟨there, failed⟩ :=
          List.mem_filter.mp (List.mem_of_mem_drop (List.mem_of_mem_take own))
        exact .inr ⟨job, there, rfl, of_decide_eq_true failed⟩
    | _ => exact awaits.elim
  | checking candidates pending already =>
    refine .inl ?_
    cases response with
    | entry jobId present => exact candidate_of_awaits awaits
    | _ => exact (awaits_routeCandidates.mp awaits).1
  | gettingJob args rest =>
    obtain rfl := Option.some.inj requested
    refine .inl ?_
    cases response with
    | job found clock =>
      rcases answer with impossible | ⟨_, _, answered⟩
      · cases impossible
      obtain ⟨rfl, -⟩ := QueueResponse.job.inj answered
      cases found : queues.getJob args.jobId with
      | none =>
        rw [found] at awaits
        exact .inr (awaits_routeNext.mp awaits)
      | some job =>
        rw [found] at awaits
        simp only [RouterPhase.resume, RouterPhase.resumeJob] at awaits
        split_ifs at awaits
        · exact .inr (awaits_routeNext.mp awaits)
        · rcases awaits with same | later
          · exact .inl ((Queues.getJob_some found).2.symm.trans (dlqJobIdFor_injective same))
          · exact .inr later
    | _ => exact .inr (awaits_routeNext.mp awaits)
  | adding entry rest => exact .inl (.inr (awaits_routeNext.mp awaits))
  | finished => cases requested

theorem named_of_resume {phase : RouterPhase} {response : QueueResponse} {entry : DeadLetter}
    {rest : List Candidate} (same : phase.resume source response = .adding entry rest) :
    ∃ id, entry.id = dlqJobIdFor id := by
  have next : ∀ candidates, routeNext candidates ≠ .adding entry rest := fun candidates => by
    cases candidates <;> exact fun impossible => (nomatch impossible)
  have check : ∀ candidates pending routed,
      checkNext candidates pending routed ≠ .adding entry rest := by
    intro candidates pending routed
    unfold checkNext
    split_ifs
    · exact next _
    · exact fun impossible => (nomatch impossible)
  cases phase with
  | gettingJob args rest =>
    cases response with
    | job found clock =>
      cases found with
      | none => exact absurd same (next _)
      | some job =>
        simp only [RouterPhase.resume, RouterPhase.resumeJob] at same
        split_ifs at same
        · exact absurd same (next _)
        · obtain ⟨rfl, -⟩ := RouterPhase.adding.inj same
          exact ⟨job.id, rfl⟩
    | _ => exact absurd same (next _)
  | scanning =>
    cases response with
    | jobs failed => exact absurd same (check _ _ _)
    | _ => cases same
  | checking candidates pending already =>
    cases response with
    | entry jobId present => exact absurd same (check _ _ _)
    | _ => exact absurd same (next _)
  | adding other others => exact absurd same (next _)
  | finished => cases same

/-- Whatever is routed has been in the failed set. -/
structure TerminalTraced (history : QueueHistory) (world : QueueWorld) : Prop where
  events : ∀ event ∈ world.shared.events, FailedBefore history world event.jobId
  awaited : ∀ process phase, world.processes process = .running phase →
    ∀ id, phase.Awaits id → FailedBefore history world id
  named : ∀ process entry rest, world.processes process = .running (.adding entry rest) →
    ∃ id, entry.id = dlqJobIdFor id
  entries : ∀ entry ∈ world.shared.entries,
    ∃ id, entry.id = dlqJobIdFor id ∧ FailedBefore history world id

theorem TerminalTraced.advance {name : Nat} {outcome : QueueOutcome} {phase : RouterPhase}
    {request : QueueRequest} {shared : Queues} {response : QueueResponse}
    (traced : TerminalTraced history world) (running : world.processes name = .running phase)
    (requested : phase.request = some request)
    (performed : performQueue world.shared request outcome = some (shared, response)) :
    TerminalTraced ((world, .advance name outcome) :: history) ⟨shared,
      Function.update world.processes name (.running (phase.resume source response))⟩ := by
  have later : ∀ {id}, FailedBefore history world id →
      FailedBefore ((world, .advance name outcome) :: history) ⟨shared, Function.update
        world.processes name (.running (phase.resume source response))⟩ id :=
    fun failed => failed.step _ _
  constructor
  case events =>
    intro event member
    rw [(jobs_perform performed).2.2] at member
    exact later (traced.events event member)
  case awaited =>
    intro process other now id awaits
    rcases SharedService.update_running now with ⟨rfl, same⟩ | ⟨-, old⟩
    · obtain rfl := SharedService.Process.running.inj same
      have answer : response = .failed ∨
          ∃ pick clock, response = world.shared.respond pick clock request :=
        (performQueue_cases performed).2.imp_right
          fun ⟨pick, clock, _, _, same⟩ => ⟨pick, clock, same⟩
      rcases awaits_of_resume requested answer awaits with before | found
      · exact later (traced.awaited process phase running id before)
      · exact later (.inl found)
    · exact later (traced.awaited process other old id awaits)
  case named =>
    intro process entry rest now
    rcases SharedService.update_running now with ⟨rfl, same⟩ | ⟨-, old⟩
    · exact named_of_resume (SharedService.Process.running.inj same)
    · exact traced.named process entry rest old
  case entries =>
    intro entry member
    have before : ∀ entry ∈ world.shared.entries, ∃ id, entry.id = dlqJobIdFor id ∧
        FailedBefore ((world, .advance name outcome) :: history) ⟨shared, Function.update
          world.processes name (.running (phase.resume source response))⟩ id :=
      fun entry own => (traced.entries entry own).imp fun _ ⟨same, failed⟩ => ⟨same, later failed⟩
    rcases (performQueue_cases performed).1 with rfl | rfl
    · exact before entry member
    · cases phase with
      | adding new rest =>
        obtain rfl := Option.some.inj requested
        rcases mem_entries_addEntry member with old | rfl
        · exact before entry old
        · obtain ⟨id, same⟩ := traced.named name entry rest running
          exact ⟨id, same, later (traced.awaited name _ running id (.inl same))⟩
      | finished => cases requested
      | _ =>
        obtain rfl := Option.some.inj requested
        exact before entry member

theorem terminalTraced_of_run (run : (deadLetterService source).system.Run history world) :
    TerminalTraced history world := by
  induction run with
  | @start world initial =>
    obtain ⟨⟨-, events, entries⟩, absent⟩ := initial
    exact ⟨fun event member => by simp [events] at member,
      fun process phase running => by simp [absent process] at running,
      fun process entry rest running => by simp [absent process] at running,
      fun entry member => by simp [entries] at member⟩
  | @step history before after event run taken ih =>
    cases SharedService.step_cases taken with
    | @spawn name phase absent admitted =>
      refine ⟨fun event member => (ih.events event member).step _ _,
        fun process other now id awaits => ?_, fun process entry rest now => ?_,
        fun entry member => (ih.entries entry member).imp fun _ ⟨same, failed⟩ =>
          ⟨same, failed.step _ _⟩⟩
      · rcases SharedService.update_running now with ⟨rfl, same⟩ | ⟨-, old⟩
        · obtain rfl := SharedService.Process.running.inj same
          cases phase with
          | scanning => exact awaits.elim
          | gettingJob args rest =>
            cases rest with
            | nil =>
              rcases awaits with rfl | ⟨_, impossible, -⟩
              · exact (ih.events args (of_decide_eq_true admitted)).step _ _
              · exact absurd impossible List.not_mem_nil
            | cons => exact absurd admitted Bool.false_ne_true
          | _ => exact absurd admitted Bool.false_ne_true
        · exact (ih.awaited process other old id awaits).step _ _
      · rcases SharedService.update_running now with ⟨rfl, same⟩ | ⟨-, old⟩
        · obtain rfl := SharedService.Process.running.inj same
          exact absurd admitted Bool.false_ne_true
        · exact ih.named process entry rest old
    | advance running requested performed => exact ih.advance running requested performed
    | @crash name phase was =>
      refine ⟨fun event member => (ih.events event member).step _ _,
        fun process other now id awaits => ?_, fun process entry rest now => ?_,
        fun entry member => (ih.entries entry member).imp fun _ ⟨same, failed⟩ =>
          ⟨same, failed.step _ _⟩⟩
      · rcases SharedService.update_running now with ⟨-, impossible⟩ | ⟨-, old⟩
        · cases impossible
        · exact (ih.awaited process other old id awaits).step _ _
      · rcases SharedService.update_running now with ⟨-, impossible⟩ | ⟨-, old⟩
        · cases impossible
        · exact ih.named process entry rest old
    | @external event shared changed =>
      have change := jobStep_cases changed
      refine ⟨fun event member => ?_,
        fun process other running id awaits => (ih.awaited process other running id awaits).step _ _,
        ih.named, fun entry member => ?_⟩
      · cases change with
        | failed own becomes spent =>
          rcases List.mem_cons.mp member with rfl | old
          · exact .inl ⟨_, List.mem_cons_self, rfl, rfl⟩
          · exact (ih.events event old).step _ _
        | _ => exact (ih.events event member).step _ _
      · rw [entries_change change] at member
        exact (ih.entries entry member).imp fun _ ⟨same, failed⟩ => ⟨same, failed.step _ _⟩

/-! ### Completeness -/

/-- What dead-letter routing is for. -/
structure DeadLetterCompleteness (source : SourceQueue) (history : QueueHistory)
    (world : QueueWorld) : Prop where
  complete : ∀ process, world.processes process = .running .finished →
    ErrorFree history process → ∀ job, Scanned source history process job →
      (∃ still ∈ world.shared.jobs, still.number = job.number ∧ still.state = .failed) →
        world.shared.entries.countP (fun entry => entry.id = dlqJobIdFor job.id) = 1
  unique : (world.shared.entries.map DeadLetter.id).Nodup
  terminal : ∀ entry ∈ world.shared.entries,
    ∃ id, entry.id = dlqJobIdFor id ∧ FailedBefore history world id

/-- A job that is failed for having stalled too often has used its attempts. -/
def StallsSpent (world : QueueWorld) (event : QueueEvent) : Prop :=
  ∀ id, event = .external (.stalled id) → ∀ job ∈ world.shared.jobs, job.id = id →
    job.maxAttempts ≤ job.attemptsMade

/-- A pass leaves an entry for every job without attempts left. -/
theorem countP_of_pass (run : (deadLetterService source).system.Run history world) {process : Nat}
    (finished : world.processes process = .running .finished) (free : ErrorFree history process)
    {job still : Job} (scanned : Scanned source history process job)
    (spent : job.maxAttempts ≤ job.attemptsMade) (member : still ∈ world.shared.jobs)
    (same : still.number = job.number) :
    world.shared.entries.countP (fun entry => entry.id = dlqJobIdFor job.id) = 1 := by
  have traced := passesTraced_of_run run
  obtain ⟨-, rest⟩ := (traced.trace process _ finished).owed free job scanned spent
  rcases rest.resolve_right not_false with gone | delivered
  · exact absurd same (gone still member)
  · exact countP_of_delivered traced.wellKept delivered

theorem spent_of_run (run : (deadLetterService source).system.Run history world)
    (stalls : TransitionSystem.Guarded StallsSpent history) :
    ∀ job ∈ world.shared.jobs, job.state = .failed → job.maxAttempts ≤ job.attemptsMade := by
  induction run with
  | @start world initial =>
    intro job member
    simp [initial.1.1] at member
  | @step history before after event run taken ih =>
    have earlier := ih fun entry member => stalls entry (List.mem_cons_of_mem _ member)
    cases SharedService.step_cases taken with
    | spawn => exact earlier
    | crash => exact earlier
    | advance running requested performed =>
      rw [(jobs_perform performed).1]
      exact earlier
    | external changed =>
      intro job member failed
      cases jobStep_cases changed with
      | added absent number state =>
        rcases Queues.mem_put.mp member with rfl | ⟨own, -⟩
        · simp [state] at failed
        · exact earlier job own failed
      | changed own becomes state =>
        rcases Queues.mem_put.mp member with rfl | ⟨own, -⟩
        · exact absurd failed state
        · exact earlier job own failed
      | failed own becomes spent =>
        rcases Queues.mem_put.mp member with rfl | ⟨own, -⟩
        · rcases spent with spent | ⟨rfl, rfl⟩
          · exact spent
          · have before := stalls _ List.mem_cons_self _ rfl _ own rfl
            exact before
        · exact earlier job own failed
      | removed => exact earlier job (List.mem_filter.mp member).1 failed

theorem deadLetterCompleteness_of_run (source : SourceQueue) (history : QueueHistory)
    (world : QueueWorld) (run : (deadLetterService source).system.Run history world)
    (stalls : TransitionSystem.Guarded StallsSpent history) :
    DeadLetterCompleteness source history world where
  complete := by
    rintro process finished free job scanned ⟨still, member, same, -⟩
    refine countP_of_pass run finished free scanned ?_ member same
    -- the job had failed when the pass scanned it
    obtain ⟨queues, failed, ⟨moment, oracle, phase, after, own, rfl, -, -, performed⟩, listed⟩ :=
      scanned
    obtain ⟨later, earlier, split⟩ := List.append_of_mem own
    have guarded : TransitionSystem.Guarded StallsSpent earlier := fun entry member =>
      stalls entry (split ▸ List.mem_append_right _ (List.mem_cons_of_mem _ member))
    rcases (performQueue_cases performed).2 with impossible | ⟨_, _, -, -, answered⟩
    · cases impossible
    · obtain rfl := QueueResponse.jobs.inj answered
      obtain ⟨there, state⟩ :=
        List.mem_filter.mp (List.mem_of_mem_drop (List.mem_of_mem_take listed))
      exact spent_of_run (run.before split) guarded job there (of_decide_eq_true state)
  unique := (passesTraced_of_run run).wellKept.entries
  terminal := (terminalTraced_of_run run).entries

def exampleSource : SourceQueue := ⟨"email-notification", fun text => text⟩

def isNoStall : QueueEvent → Bool
  | .external (.stalled _) => false
  | _ => true

theorem isNoStall_sound (world : QueueWorld) (event : QueueEvent)
    (passes : isNoStall event = true) : StallsSpent world event := by
  rintro id rfl
  cases passes

/-- A job that has failed is found and copied by a pass. -/
theorem deadLetterCompleteness_example : ∃ (history : QueueHistory) (world : QueueWorld),
    DeadLetterCompleteness exampleSource history world ∧
      world.shared.entries.map DeadLetter.id = ["dlq__1"] := by
  obtain ⟨history, world, run, stalls, -, copied⟩ := @TransitionSystem.run_of_execute _ _
    (deadLetterService exampleSource).system (fun _ => isNoStall) StallsSpent isNoStall_sound
    (SharedService.start {})
    [.external (.added "1" "auth-email" .null none), .external (.attemptFailed "1" "SMTP"),
      .spawn 0 .scanning, .advance 0 (.done 0 0), .advance 0 (.done 0 0), .advance 0 (.done 0 0),
      .advance 0 (.done 0 0)]
    (fun world => world.shared.entries.map DeadLetter.id = ["dlq__1"])
    ⟨⟨rfl, rfl, rfl⟩, fun _ => rfl⟩ (by decide)
  exact ⟨history, world, deadLetterCompleteness_of_run _ _ _ run stalls, of_decide_eq_true copied⟩

def stalledJob : Job :=
  { id := "1", number := 0, name := "auth-email", data := .null, attempts := some 3,
    failedReason := some stalledReason, state := .failed }

/-- A job stalls too often at its first attempt of three.  The pass finds it among the failed jobs,
and takes it for one that will be tried again. -/
theorem stalled_job_undelivered : ¬ ∀ (source : SourceQueue) (history : QueueHistory) world,
    (deadLetterService source).system.Run history world →
      DeadLetterCompleteness source history world := by
  intro complete
  have start : (deadLetterService exampleSource).system.Run [] (SharedService.start {}) :=
    .start ⟨⟨rfl, rfl, rfl⟩, fun _ => rfl⟩
  have added : (deadLetterService exampleSource).system.Run _ _ :=
    @TransitionSystem.Run.step _ _ _ _ _ _
      (.external (.added "1" "auth-email" .null (some 3))) start rfl
  have stalled : (deadLetterService exampleSource).system.Run _ _ :=
    @TransitionSystem.Run.step _ _ _ _ _ _ (.external (.stalled "1")) added rfl
  have spawned : (deadLetterService exampleSource).system.Run _ _ :=
    @TransitionSystem.Run.step _ _ _ _ _ _ (.spawn 0 .scanning) stalled rfl
  have scanned : (deadLetterService exampleSource).system.Run _ _ :=
    @TransitionSystem.Run.step _ _ _ _ _ _ (.advance 0 (.done 0 0)) spawned rfl
  have checked : (deadLetterService exampleSource).system.Run _ _ :=
    @TransitionSystem.Run.step _ _ _ _ _ _ (.advance 0 (.done 0 0)) scanned rfl
  have skipped : (deadLetterService exampleSource).system.Run _ _ :=
    @TransitionSystem.Run.step _ _ _ _ _ _ (.advance 0 (.done 0 0)) checked rfl
  have one := (complete _ _ _ skipped).complete 0 rfl ?free stalledJob ?scanned ?still
  case free =>
    intro entry member outcome same
    simp only [List.mem_cons, List.not_mem_nil, or_false] at member
    rcases member with rfl | rfl | rfl | rfl | rfl | rfl <;> cases same <;> exact ⟨0, 0, rfl⟩
  case scanned =>
    exact ⟨_, _, ⟨_, _, _, _, List.mem_cons_of_mem _ (List.mem_cons_of_mem _ List.mem_cons_self),
      rfl, rfl, rfl, rfl⟩, List.mem_cons_self⟩
  case still => exact ⟨_, List.mem_cons_self, rfl, rfl⟩
  exact absurd one (by decide)

end NestjsFastify.DeadLetters
