import NestjsFastify.MultipartUpload
import NestjsFastify.SharedService
import NestjsFastify.StoredFileCleanup
import NestjsFastify.VerifyUpload

/-! # The upload subsystem

All upload handlers and the lifecycle tasks, any number of each, over one table, one object storage
and one verification queue.
-/
namespace NestjsFastify.Upload
open LengthPrefixedFraming (Bytes)

/-- What is fixed for a run: the limits, the retention periods, and the entity tag that the storage
gives to an object it receives. -/
structure Deployment where
  limits : UploadLimits
  retention : Retention := {}
  etagOf : Bytes → String

/-- A handler in flight, or one that has ended. -/
inductive Handler where
  | confirm (handler : ConfirmUpload)
  | uploadFiles (handler : UploadFiles)
  | verify (handler : VerifyUpload)
  | reclaim (handler : Reclaim)
  | purge (handler : Purge)
  deriving DecidableEq

/-- What happens beside the handlers: clients upload to staging keys and staged objects expire,
owners soft-delete files, the recovery sweep redrives a verification, and time passes. -/
inductive UploadEvent where
  | clientUpload (location : Location) (object : StoredObject)
  | stagingExpiry (location : Location)
  | softDelete (id : Uuid)
  | recoverVerification (id : Uuid)
  | elapse (milliseconds : Nat)

def Handler.request (deployment : Deployment) : Handler → Option Request
  | confirm handler => handler.request deployment.limits
  | uploadFiles handler => handler.request deployment.limits deployment.etagOf
  | verify handler => handler.request deployment.limits
  | reclaim handler => handler.request
  | purge handler => handler.request

def Handler.resume (deployment : Deployment) : Handler → Response → Handler
  | confirm handler, response => .confirm (handler.resume deployment.limits response)
  | uploadFiles handler, response => .uploadFiles (handler.resume deployment.limits response)
  | verify handler, response => .verify (handler.resume response)
  | reclaim handler, response => .reclaim (handler.resume response)
  | purge handler, response => .purge (handler.resume response)

/-- Commands may come at any time, verification jobs once they are enqueued and as often as the
queue delivers them, and lifecycle tasks for the rows that their scans select. -/
def admits (deployment : Deployment) (store : Store) : Handler → Bool
  | .confirm handler => handler = ConfirmUpload.start handler.command
  | .uploadFiles handler => handler = UploadFiles.start handler.options
  | .verify handler =>
      handler = VerifyUpload.start handler.command && store.jobs.contains handler.command
  | .reclaim handler =>
      handler = Reclaim.start handler.candidate && store.rows.any fun row =>
        row.cleanupCandidate = handler.candidate &&
          [CleanupScan.rejected, .finalizing, .verifying, .orphaned].any fun scan =>
            scan.selects deployment.retention store.now row
  | .purge handler =>
      handler = Purge.start handler.candidate && store.rows.any fun row =>
        row.retentionCandidate = handler.candidate &&
          purgeSelects deployment.retention store.now row

def external (store : Store) : UploadEvent → Option Store
  | .clientUpload location object =>
      if startsWith location.key stagingRoot then
        some (store.setObject location (some object))
      else none
  | .stagingExpiry location =>
      if startsWith location.key stagingRoot then some (store.setObject location none)
      else none
  | .softDelete id =>
      let condition : Where := { id := some id, live := true }
      some (store.commit (RecordTable.updateMany condition.selects
        (({ deletedAt := true } : Data).apply store.now) store.rows))
  | .recoverVerification id =>
      let condition : Where := { id := some id, status := some .verifying, live := true }
      (store.rows.find? condition.selects).map fun row =>
        { store with jobs := row.verification :: store.jobs }
  | .elapse milliseconds => some { store with now := store.now + milliseconds }

/-- Before the first handler runs the table and the queue are empty, and no object is published. -/
def Initial (store : Store) : Prop :=
  store.rows = [] ∧ store.versions = [] ∧ store.jobs = [] ∧ store.issued = [] ∧
    ∀ location, isPublishedKey location.key = true → store.objects location = none

def uploadService (deployment : Deployment) :
    SharedService Store Handler Request Response Oracle UploadEvent where
  initial := Initial
  admits := admits deployment
  request := Handler.request deployment
  resume := Handler.resume deployment
  perform
  external

abbrev UploadWorld := SharedService.World Store Handler

abbrev UploadStep := SharedService.Event Handler Oracle UploadEvent

end NestjsFastify.Upload
