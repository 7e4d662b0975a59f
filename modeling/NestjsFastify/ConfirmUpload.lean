import NestjsFastify.StoredFileStore

/-! # Confirming a presigned upload

`ConfirmUploadHandler.execute` as a program of requests: one phase for each `await`, holding what
the handler still needs.  `UploadPublicationService.result` is the part that all handlers which
publish a file end with.
-/
namespace NestjsFastify.Upload

structure UploadLimits where
  maxFileBytes : Nat := 10 * 1024 * 1024
  magicByteCount : Nat := 16
  malwareScanEnabled : Bool
  bucket : String := "uploads"
  deriving DecidableEq, Repr

/-! ## Publication -/

structure StoredFileResult where
  id : Uuid
  key : String
  bucket : String
  size : Nat
  status : StoredFileStatus
  url : Option Location
  deriving DecidableEq, Repr

def StoredFile.result (file : StoredFile) (url : Option Location) : StoredFileResult :=
  { id := file.id, key := file.key, bucket := file.bucket, size := file.size
    status := file.status, url }

def StoredFile.verification (file : StoredFile) : UploadVerificationRequest :=
  { key := file.key, bucket := file.bucket, declaredContentType := file.contentType }

inductive Publication where
  | dispatching (file : StoredFile)
  | signing (file : StoredFile)
  | returned (file : StoredFile) (result : StoredFileResult)
  | threw (failure : Failure)
  deriving DecidableEq, Repr

/-- `UploadPublicationService.result` up to its first `await`. -/
def publicationResult (file : StoredFile) : Publication :=
  match file.status with
  | .verifying => .dispatching file
  | .ready => .signing file
  | _ => .returned file (file.result none)

def Publication.request : Publication → Option Request
  | dispatching file => some (.dispatch file.verification)
  | signing file => some (.getSignedUrl file.location)
  | _ => none

/-- A job that could not be enqueued is logged and left to the recovery sweep. -/
def Publication.resume : Publication → Response → Publication
  | dispatching file, _ => .returned file (file.result none)
  | signing file, .url url => .returned file (file.result (some url))
  | signing _, .failed failure => .threw failure
  | publication, _ => publication

/-! ## The handler -/

structure ConfirmUploadCommand where
  userId : Uuid
  organizationId : String
  sourceKey : String
  deriving DecidableEq, Repr

inductive ConfirmPhase where
  | findingExisting
  | headingSource
  | discardingSource (failure : Failure)
  | generatingId (metadata : ObjectMetadata)
  | creating (file : StoredFile)
  | findingConcurrent
  | copying (file : StoredFile)
  | removingSource (file : StoredFile)
  | compensating (file : StoredFile)
  | headingFinal (record : StoredFile)
  | readingHead (record : StoredFile)
  | rejecting (record : StoredFile) (failure : Failure)
  | discardingFinal (record : StoredFile) (failure : Failure)
  | flipping (record : StoredFile)
  | reloading (record : StoredFile)
  | publishing (publication : Publication)
  | threw (failure : Failure)
  deriving DecidableEq, Repr

structure ConfirmUpload where
  command : ConfirmUploadCommand
  phase : ConfirmPhase
  deriving DecidableEq, Repr

def commitFailed : Failure := .error "Failed to finalize upload"

def uploadInProgress : Failure :=
  .domain <| .new {
    kind := some .conflict
    permanent := some false
    code := some "upload_in_progress"
    title := some "common.conflict"
    violations := [{
      path := "key"
      code := "upload_in_progress"
      message := "Upload confirmation is still in progress; retry shortly" }] }

/-- `execute` up to its first `await`: ownership is checked before any storage call. -/
def ConfirmUpload.start (command : ConfirmUploadCommand) : ConfirmUpload where
  command
  phase := match assertOwnsSourceKey command.sourceKey command.userId with
    | .ok _ => .findingExisting
    | .error exception => .threw (.domain exception)

/-- `validateStagedObject` up to its `await`: an object that breaks policy is deleted. -/
def validateStagedObject (limits : UploadLimits) (metadata : ObjectMetadata) : ConfirmPhase :=
  let validated : Except DomainException Unit := do
    assertMimeAllowed metadata.contentType
    assertSizeWithinLimit metadata.size limits.maxFileBytes
  match validated with
  | .ok _ => .generatingId metadata
  | .error exception =>
      if isPolicyViolation (.domain exception) then .discardingSource (.domain exception)
      else .threw (.domain exception)

/-- The row that `publish` creates. -/
def confirmedFile (command : ConfirmUploadCommand) (metadata : ObjectMetadata) (fileId : Uuid) :
    StoredFile where
  id := fileId
  organizationId := command.organizationId
  userId := command.userId
  sourceKey := command.sourceKey
  key := publishedKey command.userId fileId (extensionOf command.sourceKey)
  bucket := metadata.bucket
  contentType := metadata.contentType
  size := metadata.size
  etag := metadata.etag
  status := .finalizing

/-- `completeFinalizing` up to its first `await`. -/
def completeFinalizing (limits : UploadLimits) (record : StoredFile) : ConfirmPhase :=
  if limits.malwareScanEnabled then .flipping record else .readingHead record

/-- The status a finalised file is published with. -/
def UploadLimits.publishedStatus (limits : UploadLimits) : StoredFileStatus :=
  if limits.malwareScanEnabled then .verifying else .ready

/-- `recoverExisting` up to its first `await`. -/
def recoverExisting (record : StoredFile) : ConfirmPhase :=
  match record.status with
  | .rejected => .threw (.domain (objectNotFound record.sourceKey))
  | .finalizing => .headingFinal record
  | _ => .publishing (publicationResult record)

namespace ConfirmUpload

def request (limits : UploadLimits) (handler : ConfirmUpload) : Option Request :=
  let source : Location := ⟨limits.bucket, handler.command.sourceKey⟩
  match handler.phase with
  | .findingExisting =>
      some (.findFirst { sourceKey := some handler.command.sourceKey, live := true })
  | .headingSource => some (.head source)
  | .discardingSource _ => some (.deleteObject source)
  | .generatingId _ => some (.generateIds 1)
  | .creating file => some (.createMany [file])
  | .findingConcurrent =>
      some (.findFirst { sourceKey := some handler.command.sourceKey, live := true })
  | .copying file =>
      some (.copyObject ⟨file.bucket, handler.command.sourceKey⟩ file.location file.etag)
  | .removingSource file => some (.deleteObject ⟨file.bucket, handler.command.sourceKey⟩)
  | .compensating file =>
      some (.deleteMany { id := some file.id, status := some .finalizing })
  | .headingFinal record => some (.head record.location)
  | .readingHead record => some (.readRange record.location limits.magicByteCount)
  | .rejecting record _ =>
      some (.updateMany { id := some record.id, status := some .finalizing }
        { status := some .rejected })
  | .discardingFinal record _ => some (.deleteObject record.location)
  | .flipping record =>
      some (.updateMany { id := some record.id, status := some .finalizing, live := true }
        { status := some limits.publishedStatus })
  | .reloading record => some (.findFirst { id := some record.id, live := true })
  | .publishing publication => publication.request
  | .threw _ => none

/-- The phase after a response.  A failure that the source does not catch leaves the handler. -/
def next (limits : UploadLimits) (command : ConfirmUploadCommand) :
    ConfirmPhase → Response → ConfirmPhase
  | .findingExisting, .record none => .headingSource
  | .findingExisting, .record (some existing) =>
      if existing.organizationId ≠ command.organizationId ∨ existing.userId ≠ command.userId then
        .threw (.domain (objectNotFound command.sourceKey))
      else recoverExisting existing
  | .headingSource, .metadata none => .threw (.domain (objectNotFound command.sourceKey))
  | .headingSource, .metadata (some metadata) => validateStagedObject limits metadata
  | .discardingSource failure, _ => .threw failure
  | .generatingId metadata, .ids [fileId] => .creating (confirmedFile command metadata fileId)
  | .creating file, .done => .copying file
  | .creating _, .duplicate => .findingConcurrent
  | .findingConcurrent, .record (some concurrent) => recoverExisting concurrent
  | .findingConcurrent, .record none => .threw commitFailed
  | .copying file, .done => .removingSource file
  | .copying file, .failed _ => .compensating file
  | .removingSource file, _ => completeFinalizing limits file
  | .compensating _, _ => .threw commitFailed
  | .headingFinal _, .metadata none => .threw uploadInProgress
  | .headingFinal record, .metadata (some _) => completeFinalizing limits record
  | .readingHead record, .bytes head =>
      match assertMagicBytesMatch head record.contentType record.key with
      | .ok _ => .flipping record
      | .error exception =>
          if isPolicyViolation (.domain exception) then .rejecting record (.domain exception)
          else .threw (.domain exception)
  | .readingHead record, .failed failure =>
      if isPolicyViolation failure then .rejecting record failure else .threw failure
  | .rejecting record failure, .count count =>
      if 0 < count then .discardingFinal record failure else .threw failure
  | .discardingFinal _ failure, .done => .threw failure
  | .flipping record, .count count =>
      if 0 < count then .publishing (publicationResult (record.withStatus limits.publishedStatus))
      else .reloading record
  | .reloading _, .record (some current) =>
      if current.status = .finalizing ∨ current.status = .rejected then .threw commitFailed
      else .publishing (publicationResult current)
  | .reloading _, .record none => .threw commitFailed
  | .publishing publication, response => .publishing (publication.resume response)
  | _, .failed failure => .threw failure
  | phase, _ => phase

def resume (limits : UploadLimits) (handler : ConfirmUpload) (response : Response) :
    ConfirmUpload :=
  { handler with phase := next limits handler.command handler.phase response }

end ConfirmUpload

end NestjsFastify.Upload
