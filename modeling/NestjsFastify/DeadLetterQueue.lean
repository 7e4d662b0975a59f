import NestjsFastify.Json
import NestjsFastify.SharedService

/-! # Dead letters

Jobs that have failed for good are copied into a second queue: by routers that listen to the events
of the queue, and by a task that goes through its failed jobs every few minutes.  Both are processes
over the two queues, whose jobs meanwhile run, fail and are retried.
-/
namespace NestjsFastify.DeadLetters

/-! ### The queues -/

inductive JobState where
  /-- Waiting, delayed or active. -/
  | pending
  | completed
  | failed
  deriving DecidableEq, Repr

/-- A job; the number tells apart jobs that have had the same id one after the other. -/
structure Job where
  id : String
  number : Nat
  name : String
  data : Json
  attempts : Option Nat
  attemptsMade : Nat := 0
  failedReason : Option String := none
  state : JobState := .pending

/-- `job.opts?.attempts ?? 1` -/
def Job.maxAttempts (job : Job) : Nat := job.attempts.getD 1

structure FailedEvent where
  jobId : String
  failedReason : String
  deriving DecidableEq, Repr

structure DeadLetterEnvelope where
  originalQueue : String
  originalJobId : String
  originalJobName : String
  payload : Json
  failedReason : String
  attemptsMade : Nat
  failedAt : Nat

/-- A job of the dead-letter queue. -/
structure DeadLetter where
  id : String
  name : String
  envelope : DeadLetterEnvelope

/-- The jobs of the source queue, the one that changed last first, the events that it has emitted,
and the jobs of the dead-letter queue, which nothing removes. -/
structure Queues where
  jobs : List Job := []
  nextNumber : Nat := 0
  events : List FailedEvent := []
  entries : List DeadLetter := []

namespace Queues

def getJob (queues : Queues) (id : String) : Option Job := queues.jobs.find? fun job => job.id = id

/-- A job takes the place of the one with its id. -/
def put (queues : Queues) (job : Job) : Queues :=
  { queues with jobs := job :: queues.jobs.filter fun other => other.id ≠ job.id }

/-- A job enters the failed set, and the queue emits an event. -/
def fail (queues : Queues) (job : Job) (failedReason : String) : Queues :=
  { queues.put { job with state := .failed, failedReason := some failedReason } with
    events := ⟨job.id, failedReason⟩ :: queues.events }

def getFailed (queues : Queues) (first last : Nat) : List Job :=
  ((queues.jobs.filter fun job => job.state = .failed).drop first).take (last + 1 - first)

end Queues

/-- What happens to the jobs of the source queue by themselves. -/
inductive JobEvent where
  | added (id name : String) (data : Json) (attempts : Option Nat)
  | attemptFailed (id failedReason : String)
  /-- The job has stalled more often than allowed, which counts as no attempt. -/
  | stalled (id : String)
  | completed (id : String)
  | retried (id : String)
  | removed (id : String)

def stalledReason : String := "job stalled more than allowable limit"

/-- The job of this id, if it is pending. -/
def Queues.pending (queues : Queues) (id : String) : Option Job :=
  (queues.getJob id).filter fun job => job.state = .pending

/-- The job of this id, if it is finished. -/
def Queues.finished (queues : Queues) (id : String) : Option Job :=
  (queues.getJob id).filter fun job => job.state ≠ .pending

def jobStep (queues : Queues) : JobEvent → Option Queues
  | .added id name data attempts =>
      if (queues.getJob id).isNone then
        some { queues.put { id, number := queues.nextNumber, name, data, attempts } with
          nextNumber := queues.nextNumber + 1 }
      else none
  | .attemptFailed id failedReason =>
      (queues.pending id).map fun job =>
        if job.attemptsMade + 1 < job.maxAttempts then
          queues.put { job with attemptsMade := job.attemptsMade + 1 }
        else queues.fail { job with attemptsMade := job.attemptsMade + 1 } failedReason
  | .stalled id => (queues.pending id).map fun job => queues.fail job stalledReason
  | .completed id =>
      (queues.pending id).map fun job =>
        queues.put { job with state := .completed, attemptsMade := job.attemptsMade + 1 }
  | .retried id => (queues.finished id).map fun job => queues.put { job with state := .pending }
  | .removed id =>
      (queues.finished id).map fun _ =>
        { queues with jobs := queues.jobs.filter fun other => other.id ≠ id }

/-! ### Statements -/

/-- `dlqJobIdFor` -/
def dlqJobIdFor (originalJobId : String) : String := "dlq__" ++ originalJobId

inductive QueueRequest where
  | getFailed (first last : Nat)
  | getJob (id : String)
  /-- Some entries, asked for at once; the answers come in any order. -/
  | getEntries (jobIds : List String)
  | add (entry : DeadLetter)

inductive QueueResponse where
  | jobs (failed : List Job)
  | job (found : Option Job) (clock : Nat)
  | entry (jobId : String) (present : Bool)
  | added
  | failed

/-- A statement is carried out, of several the one that is picked, or it fails without or with its
effect. -/
inductive QueueOutcome where
  | done (pick clock : Nat)
  | refused
  | lost
  deriving DecidableEq, Repr

/-- An id that is there already makes the addition do nothing. -/
def Queues.addEntry (queues : Queues) (entry : DeadLetter) : Queues :=
  if queues.entries.any fun other => other.id = entry.id then queues
  else { queues with entries := queues.entries ++ [entry] }

def Queues.respond (queues : Queues) (pick clock : Nat) : QueueRequest → QueueResponse
  | .getFailed first last => .jobs (queues.getFailed first last)
  | .getJob id => .job (queues.getJob id) clock
  | .getEntries jobIds =>
      match jobIds[pick]? with
      | some jobId =>
          .entry jobId (queues.entries.any fun entry => entry.id = dlqJobIdFor jobId)
      | none => .failed
  | .add _ => .added

def Queues.effect (queues : Queues) : QueueRequest → Queues
  | .add entry => queues.addEntry entry
  | _ => queues

def performQueue (queues : Queues) (request : QueueRequest) :
    QueueOutcome → Option (Queues × QueueResponse)
  | .done pick clock => some (queues.effect request, queues.respond pick clock request)
  | .refused => some (queues, .failed)
  | .lost => some (queues.effect request, .failed)

/-! ### The routers -/

/-- The source queue; `sanitizeSensitiveText` takes what looks like a secret out of a text. -/
structure SourceQueue where
  name : String
  sanitizeSensitiveText : String → String

structure Candidate where
  jobId : String
  failedReason : Option String
  deriving DecidableEq, Repr

/-- A router that serves an event has no candidates left. -/
inductive RouterPhase where
  | scanning
  | checking (candidates pending : List Candidate) (alreadyRouted : List String)
  | gettingJob (args : FailedEvent) (rest : List Candidate)
  | adding (entry : DeadLetter) (rest : List Candidate)
  | finished

def reconcileScanLimit : Nat := 1000

def missedFailedEvent : String := "reconciled: missed failed event"

/-- The next candidate of the loop. -/
def routeNext : List Candidate → RouterPhase
  | [] => .finished
  | candidate :: rest =>
      .gettingJob ⟨candidate.jobId, candidate.failedReason.getD missedFailedEvent⟩ rest

/-- The loop over the candidates that have no entry yet. -/
def routeCandidates (candidates : List Candidate) (alreadyRouted : List String) : RouterPhase :=
  routeNext (candidates.filter fun candidate => candidate.jobId ∉ alreadyRouted)

/-- `Promise.all` of the checks that are left. -/
def checkNext (candidates pending : List Candidate) (alreadyRouted : List String) : RouterPhase :=
  if pending = [] then routeCandidates candidates alreadyRouted
  else .checking candidates pending alreadyRouted

namespace RouterPhase

def request : RouterPhase → Option QueueRequest
  | scanning => some (.getFailed 0 (reconcileScanLimit - 1))
  | checking _ pending _ => some (.getEntries (pending.map Candidate.jobId))
  | gettingJob args _ => some (.getJob args.jobId)
  | adding entry _ => some (.add entry)
  | finished => none

/-- `routeFailedJobToDlq` once the job has been looked up. -/
def resumeJob (source : SourceQueue) (args : FailedEvent) (rest : List Candidate) (clock : Nat) :
    Option Job → RouterPhase
  | none => routeNext rest
  | some job =>
      if job.attemptsMade < job.maxAttempts then routeNext rest
      else .adding {
        id := dlqJobIdFor job.id
        name := job.name
        envelope := {
          originalQueue := source.name
          originalJobId := job.id
          originalJobName := job.name
          payload := job.data
          failedReason := source.sanitizeSensitiveText args.failedReason
          attemptsMade := job.attemptsMade
          failedAt := clock } } rest

/-- `reconcilePair` and `routeFailedJobToDlq`; errors are logged, and the pass goes on. -/
def resume (source : SourceQueue) : RouterPhase → QueueResponse → RouterPhase
  | scanning, .jobs failed =>
      let candidates := failed.map fun job => ⟨job.id, job.failedReason⟩
      checkNext candidates candidates []
  | scanning, _ => .finished
  | checking candidates pending alreadyRouted, .entry jobId present =>
      checkNext candidates (pending.filter fun candidate => candidate.jobId ≠ jobId)
        (if present then jobId :: alreadyRouted else alreadyRouted)
  | checking candidates _ _, _ => routeCandidates candidates []
  | gettingJob args rest, .job found clock => resumeJob source args rest clock found
  | gettingJob _ rest, _ => routeNext rest
  | adding _ rest, _ => routeNext rest
  | finished, _ => .finished

end RouterPhase

/-- A router serves an event of the stream, and a pass of the task scans; either may start at any
time and any number of times. -/
def admitsRouter (queues : Queues) : RouterPhase → Bool
  | .scanning => true
  | .gettingJob args [] => args ∈ queues.events
  | _ => false

def deadLetterService (source : SourceQueue) :
    SharedService Queues RouterPhase QueueRequest QueueResponse QueueOutcome JobEvent where
  initial queues := queues.jobs = [] ∧ queues.events = [] ∧ queues.entries = []
  admits := admitsRouter
  request := RouterPhase.request
  resume := RouterPhase.resume source
  perform := performQueue
  external := jobStep

end NestjsFastify.DeadLetters
