import NestjsFastify.ConfirmUpload

/-! # Multipart uploads

`UploadFilesHandler.execute`: the rows of a batch are created together, their objects streamed one
after another, and the batch is published together.  A failure before publication removes each
object and then its row.
-/
namespace NestjsFastify.Upload
open LengthPrefixedFraming (Bytes)

/-- A file staged on disk, with its content. -/
structure MultipartUploadFile where
  content : Bytes
  contentType : String
  size : Nat
  digest : String
  deriving DecidableEq, Repr

structure UploadFilesOptions where
  organizationId : String
  userId : Uuid
  files : List MultipartUploadFile
  deriving DecidableEq, Repr

/-- A file with the row prepared for it. -/
structure PreparedFile where
  file : MultipartUploadFile
  props : StoredFile
  deriving DecidableEq, Repr

/-- `prepare` for one file and its generated id. -/
def prepareFile (limits : UploadLimits) (options : UploadFilesOptions)
    (file : MultipartUploadFile) (id : Uuid) : Except DomainException PreparedFile :=
  (extensionForMimeType file.contentType).map fun extension =>
    let key := publishedKey options.userId id ("." ++ extension)
    { file
      props := {
        id
        organizationId := options.organizationId
        userId := options.userId
        sourceKey := key
        key
        bucket := limits.bucket
        contentType := file.contentType
        size := file.size
        etag := file.digest
        status := .finalizing } }

/-- `options.files.map(prepare)`: the first file that cannot be prepared fails the command. -/
def prepareFiles (limits : UploadLimits) (options : UploadFilesOptions) :
    List MultipartUploadFile → List Uuid → Except DomainException (List PreparedFile)
  | file :: files, id :: ids => do
      let prepared ← prepareFile limits options file id
      let rest ← prepareFiles limits options files ids
      return prepared :: rest
  | _, _ => .ok []

inductive UploadFilesPhase where
  | generatingIds
  | creatingBatch (prepared : List PreparedFile)
  | streaming (prepared todo : List PreparedFile)
  | checkingSignal (prepared : List PreparedFile)
  | deletingObject (todo : List StoredFile) (failure : Failure)
  | deletingRow (file : StoredFile) (todo : List StoredFile) (failure : Failure)
  | publishingBatch (prepared : List PreparedFile)
  | answering (publications : List Publication) (results : List StoredFileResult)
  | returned (results : List StoredFileResult)
  | threw (failure : Failure)
  deriving DecidableEq, Repr

structure UploadFiles where
  options : UploadFilesOptions
  phase : UploadFilesPhase
  deriving DecidableEq, Repr

/-- `execute` up to the ids that `prepare` generates. -/
def UploadFiles.start (options : UploadFilesOptions) : UploadFiles :=
  ⟨options, .generatingIds⟩

/-- The next object to stream, or the check of the abort signal that follows the last one.  The
signal is also checked before each object; a signal that fires there fails the request without
any effect. -/
def streamNext (prepared : List PreparedFile) : List PreparedFile → UploadFilesPhase
  | [] => .checkingSignal prepared
  | todo => .streaming prepared todo

/-- The loop of `cleanup`. -/
def cleanupFiles (failure : Failure) : List StoredFile → UploadFilesPhase
  | [] => .threw failure
  | todo => .deletingObject todo failure

/-- The publications that still wait for a response; their requests do not depend on one
another. -/
def answerNext (results : List StoredFileResult) : List Publication → UploadFilesPhase
  | [] => .returned results
  | .returned _ result :: publications => answerNext (results ++ [result]) publications
  | .threw failure :: _ => .threw failure
  | publications => .answering publications results

/-- The object that `uploadStream` stores: the bytes of the file under the declared type, with the
entity tag that the storage computes from the bytes. -/
def PreparedFile.object (etagOf : Bytes → String) (prepared : PreparedFile) : StoredObject where
  bytes := prepared.file.content
  contentType := prepared.props.contentType
  etag := etagOf prepared.file.content

namespace UploadFiles

def request (limits : UploadLimits) (etagOf : Bytes → String) (handler : UploadFiles) : Option Request :=
  match handler.phase with
  | .generatingIds => some (.generateIds handler.options.files.length)
  | .creatingBatch prepared => some (.createMany (prepared.map (·.props)))
  | .streaming _ (file :: _) =>
      some (.uploadStream file.props.location (file.object etagOf))
  | .checkingSignal _ => some .checkSignal
  | .deletingObject (file :: _) _ => some (.deleteObject file.location)
  | .deletingRow file _ _ =>
      some (.deleteMany { id := some file.id, status := some .finalizing })
  | .publishingBatch prepared => some (.publishBatch (prepared.map (·.props.id)) limits.publishedStatus)
  | .answering (publication :: _) _ => publication.request
  | _ => none

/-- The phase after a response.  Only failures up to the publication lead to `cleanup`. -/
def next (limits : UploadLimits) (options : UploadFilesOptions) :
    UploadFilesPhase → Response → UploadFilesPhase
  | .generatingIds, .ids ids =>
      match prepareFiles limits options options.files ids with
      | .ok prepared => .creatingBatch prepared
      | .error exception => .threw (.domain exception)
  | .creatingBatch prepared, .done => streamNext prepared prepared
  | .creatingBatch _, .duplicate => .threw .infrastructure
  | .streaming prepared (_ :: todo), .done => streamNext prepared todo
  | .streaming prepared _, .failed failure => cleanupFiles failure (prepared.map (·.props))
  | .checkingSignal prepared, .done => .publishingBatch prepared
  | .checkingSignal prepared, .failed failure => cleanupFiles failure (prepared.map (·.props))
  | .deletingObject (file :: todo) failure, .done => .deletingRow file todo failure
  | .deletingObject (_ :: todo) failure, .failed _ => cleanupFiles failure todo
  | .deletingRow _ todo failure, _ => cleanupFiles failure todo
  | .publishingBatch prepared, .done =>
      answerNext [] (prepared.map fun file =>
        publicationResult (file.props.withStatus limits.publishedStatus))
  | .answering (publication :: publications) results, response =>
      answerNext results (publication.resume response :: publications)
  | _, .failed failure => .threw failure
  | phase, _ => phase

def resume (limits : UploadLimits) (handler : UploadFiles) (response : Response) : UploadFiles :=
  { handler with phase := next limits handler.options handler.phase response }

end UploadFiles

end NestjsFastify.Upload
