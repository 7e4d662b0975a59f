import NestjsFastify.StoredFileStore

/-! # Lifecycle cleanup of stored files

The scans of `StoredFileCleanupTask` pick candidates; each candidate is then reclaimed, or purged if
its owner deleted it, by requests of its own.
-/
namespace NestjsFastify.Upload

/-- The retention periods, in milliseconds. -/
structure Retention where
  finalizingStale : Nat := 60 * 60000
  verifyingStale : Nat := 24 * 3600000
  rejectedRetain : Nat := 72 * 3600000
  orphanGrace : Nat := 60 * 60000
  purgeAfter : Nat := 30 * 86400000
  deriving DecidableEq, Repr

structure CleanupCandidate where
  id : Uuid
  key : String
  bucket : String
  status : StoredFileStatus
  updatedAt : Nat
  deriving DecidableEq, Repr

def CleanupCandidate.location (candidate : CleanupCandidate) : Location :=
  ⟨candidate.bucket, candidate.key⟩

def StoredFileRow.cleanupCandidate (row : StoredFileRow) : CleanupCandidate :=
  { id := row.id, key := row.key, bucket := row.bucket, status := row.status
    updatedAt := row.updatedAt }

/-- The scans for candidates: by status, and for rows whose owner or organization is gone. -/
inductive CleanupScan where
  | rejected
  | finalizing
  | verifying
  | orphaned
  deriving DecidableEq, Repr

/-- The `WHERE` of a scan.  Which owners are gone is left open. -/
def CleanupScan.selects (retention : Retention) (now : Nat) (row : StoredFileRow) :
    CleanupScan → Bool
  | rejected => row.status = .rejected && row.updatedAt + retention.rejectedRetain < now
  | finalizing => row.status = .finalizing && row.updatedAt + retention.finalizingStale < now
  | verifying => row.status = .verifying && row.updatedAt + retention.verifyingStale < now
  | orphaned => row.updatedAt + retention.orphanGrace < now

/-- The `WHERE` of the retention purge. -/
def purgeSelects (retention : Retention) (now : Nat) (row : StoredFileRow) : Bool :=
  row.deletedAt.any (· + retention.purgeAfter < now)

/-! ## Reclaiming a candidate -/

def isUnverified (status : StoredFileStatus) : Bool :=
  status = .finalizing || status = .verifying

inductive ReclaimPhase where
  | headingObject
  | claiming
  | deletingObject
  | deletingRow
  | returned (reclaimed : Bool)
  | threw (failure : Failure)
  deriving DecidableEq, Repr

structure Reclaim where
  candidate : CleanupCandidate
  phase : ReclaimPhase
  deriving DecidableEq, Repr

def Reclaim.start (candidate : CleanupCandidate) : Reclaim where
  candidate
  phase := if isUnverified candidate.status then .headingObject else .claiming

namespace Reclaim

def request (handler : Reclaim) : Option Request :=
  let candidate := handler.candidate
  match handler.phase with
  | .headingObject => some (.head candidate.location)
  | .claiming =>
      some (.updateMany
        { id := some candidate.id, status := some candidate.status
          updatedAt := some candidate.updatedAt }
        { status := some .rejected
          failureReason :=
            if candidate.status = .rejected then none else some (some "Lifecycle cleanup") })
  | .deletingObject => some (.deleteObject candidate.location)
  | .deletingRow => some (.delete candidate.id)
  | .returned _ => none
  | .threw _ => none

/-- A failed HEAD skips the candidate: deleting a possibly live object would be destructive. -/
def next : ReclaimPhase → Response → ReclaimPhase
  | .headingObject, .metadata _ => .claiming
  | .headingObject, .failed _ => .returned false
  | .claiming, .count count => if count = 0 then .returned false else .deletingObject
  | .deletingObject, .done => .deletingRow
  | .deletingRow, .count _ => .returned true
  | _, .failed failure => .threw failure
  | phase, _ => phase

def resume (handler : Reclaim) (response : Response) : Reclaim :=
  { handler with phase := next handler.phase response }

/-- The candidate is deleted once its row is claimed. -/
theorem deleting_of_next {phase : ReclaimPhase} {response : Response}
    (deletes : next phase response = .deletingObject ∨ next phase response = .deletingRow) :
    (phase = .deletingObject ∨ phase = .deletingRow) ∨
      phase = .claiming ∧ ∃ count, 0 < count ∧ response = .count count := by
  revert deletes
  fun_cases next phase response <;> intro deletes <;> grind

theorem deletingRow_of_next {phase : ReclaimPhase} {response : Response}
    (deletes : next phase response = .deletingRow) :
    phase = .deletingObject ∧ response = .done ∨
      phase = .deletingRow ∧ (∀ count, response ≠ .count count) ∧
        ∀ failure, response ≠ .failed failure := by
  revert deletes
  fun_cases next phase response <;> intro deletes <;> grind

end Reclaim

/-! ## Purging a soft-deleted file -/

structure RetentionCandidate where
  id : Uuid
  key : String
  bucket : String
  deriving DecidableEq, Repr

def RetentionCandidate.location (candidate : RetentionCandidate) : Location :=
  ⟨candidate.bucket, candidate.key⟩

def StoredFileRow.retentionCandidate (row : StoredFileRow) : RetentionCandidate :=
  { id := row.id, key := row.key, bucket := row.bucket }

inductive PurgePhase where
  | deletingObject
  | deletingRow
  | purged
  | threw (failure : Failure)
  deriving DecidableEq, Repr

structure Purge where
  candidate : RetentionCandidate
  phase : PurgePhase
  deriving DecidableEq, Repr

def Purge.start (candidate : RetentionCandidate) : Purge := ⟨candidate, .deletingObject⟩

namespace Purge

/-- Storage first, row second: the reverse order would drop the only pointer to the object. -/
def request (handler : Purge) : Option Request :=
  match handler.phase with
  | .deletingObject => some (.deleteObject handler.candidate.location)
  | .deletingRow => some (.deleteMany { id := some handler.candidate.id })
  | .purged => none
  | .threw _ => none

def next : PurgePhase → Response → PurgePhase
  | .deletingObject, .done => .deletingRow
  | .deletingRow, .count _ => .purged
  | _, .failed failure => .threw failure
  | phase, _ => phase

def resume (handler : Purge) (response : Response) : Purge :=
  { handler with phase := next handler.phase response }

theorem deletingRow_of_next {phase : PurgePhase} {response : Response}
    (deletes : next phase response = .deletingRow) :
    phase = .deletingObject ∧ response = .done ∨
      phase = .deletingRow ∧ (∀ count, response ≠ .count count) ∧
        ∀ failure, response ≠ .failed failure := by
  revert deletes
  fun_cases next phase response <;> intro deletes <;> grind

end Purge

end NestjsFastify.Upload
