import NestjsFastify.MalwareScannerStream
import NestjsFastify.RecordTable
import NestjsFastify.StoredFileEntity

/-! # The stored-file table, the object storage and the verification queue

Handlers change these only through the requests below.  A request that reports an error may or may
not have taken effect, and a read that goes to a replica may see an older version of a row.
-/
namespace NestjsFastify.Upload
open LengthPrefixedFraming (Bytes)
open MalwareScanner (MalwareScanResult)

inductive StoredFileStatus where
  | finalizing
  | verifying
  | ready
  | rejected
  deriving DecidableEq, Repr

inductive MalwareScanOutcome where
  | clean
  | skippedTooLarge
  deriving DecidableEq, Repr

/-- `StoredFileProps`, what the domain entity `StoredFile` holds. -/
structure StoredFile where
  id : Uuid
  organizationId : String
  userId : Uuid
  sourceKey : String
  key : String
  bucket : String
  contentType : String
  size : Nat
  etag : String
  status : StoredFileStatus
  deriving DecidableEq, Repr

def StoredFile.withStatus (file : StoredFile) (status : StoredFileStatus) : StoredFile :=
  { file with status }

/-- Everything of a file but its status. -/
def StoredFile.identity (file : StoredFile) : StoredFile := file.withStatus .finalizing

@[simp] theorem StoredFile.identity_withStatus (file : StoredFile) (status : StoredFileStatus) :
    (file.withStatus status).identity = file.identity := rfl

/-- Two versions of one file agree on every field that is not the status. -/
theorem StoredFile.congr_identity {Value : Type*} {first second : StoredFile}
    (field : StoredFile → Value) (independent : ∀ file : StoredFile, field file.identity = field file)
    (same : first.identity = second.identity) :
    field first = field second := by
  rw [← independent first, same, independent]

/-- A row of `stored_files`. -/
structure StoredFileRow extends StoredFile where
  failureReason : Option String := none
  scanOutcome : Option MalwareScanOutcome := none
  verifiedAt : Option Nat := none
  deletedAt : Option Nat := none
  updatedAt : Nat
  deriving DecidableEq, Repr

structure Location where
  bucket : String
  key : String
  deriving DecidableEq, Repr

def StoredFile.location (file : StoredFile) : Location := ⟨file.bucket, file.key⟩

structure StoredObject where
  bytes : Bytes
  contentType : String
  etag : String
  deriving DecidableEq, Repr

structure ObjectMetadata where
  contentType : String
  size : Nat
  bucket : String
  etag : String
  deriving DecidableEq, Repr

/-- `UploadVerificationRequest`, the data of a verification job. -/
structure UploadVerificationRequest where
  key : String
  bucket : String
  declaredContentType : String
  deriving DecidableEq, Repr

def UploadVerificationRequest.location (request : UploadVerificationRequest) : Location :=
  ⟨request.bucket, request.key⟩

/-- The state that all handlers share.  `versions` are the row versions that a lagging replica may
still show, `issued` the ids that `generateId` has returned. -/
structure Store where
  rows : List StoredFileRow
  versions : List StoredFileRow
  objects : Location → Option StoredObject
  jobs : List UploadVerificationRequest
  issued : List Uuid
  now : Nat

/-! ## Statements on the table -/

/-- The `where` of a statement; `live` stands for `deletedAt: null`. -/
structure Where where
  id : Option Uuid := none
  ids : Option (List Uuid) := none
  key : Option String := none
  sourceKey : Option String := none
  status : Option StoredFileStatus := none
  updatedAt : Option Nat := none
  live : Bool := false
  deriving DecidableEq, Repr

def Where.selects (condition : Where) (row : StoredFileRow) : Bool :=
  condition.id.all (· == row.id) && condition.ids.all (·.contains row.id) &&
    condition.key.all (· == row.key) && condition.sourceKey.all (· == row.sourceKey) &&
    condition.status.all (· == row.status) && condition.updatedAt.all (· == row.updatedAt) &&
    (!condition.live || row.deletedAt.isNone)

/-- The `data` of an update; a flag stands for a column that is set to the present time. -/
structure Data where
  status : Option StoredFileStatus := none
  failureReason : Option (Option String) := none
  scanOutcome : Option MalwareScanOutcome := none
  verifiedAt : Bool := false
  deletedAt : Bool := false
  deriving DecidableEq, Repr

/-- An update also stamps `updatedAt`. -/
def Data.apply (data : Data) (now : Nat) (row : StoredFileRow) : StoredFileRow :=
  { row with
    status := data.status.getD row.status
    failureReason := data.failureReason.getD row.failureReason
    scanOutcome := data.scanOutcome.or row.scanOutcome
    verifiedAt := if data.verifiedAt then some now else row.verifiedAt
    deletedAt := if data.deletedAt then some now else row.deletedAt
    updatedAt := now }

/-- The unique constraints of the table: its primary key, `sourceKey` and `key`. -/
def conflicts (first second : StoredFileRow) : Bool :=
  first.id == second.id || first.sourceKey == second.sourceKey || first.key == second.key

def newRow (now : Nat) (file : StoredFile) : StoredFileRow :=
  { toStoredFile := file, updatedAt := now }

/-- Commit new table contents. -/
def Store.commit (store : Store) (rows : List StoredFileRow) : Store :=
  { store with rows, versions := rows ++ store.versions }

/-- Put an object at a location, or remove the one that is there. -/
def Store.setObject (store : Store) (location : Location) (object : Option StoredObject) : Store :=
  { store with objects := fun other => if other = location then object else store.objects other }

/-! ## Requests -/

inductive Request where
  | generateIds (count : Nat)
  | findFirst (condition : Where)
  | createMany (files : List StoredFile)
  | updateMany (condition : Where) (data : Data)
  | publishBatch (ids : List Uuid) (status : StoredFileStatus)
  | deleteMany (condition : Where)
  | delete (id : Uuid)
  | head (location : Location)
  | readRange (location : Location) (byteCount : Nat)
  | readStream (location : Location)
  | scan (content : StoredObject) (sizeBytes : Option Nat)
  | uploadStream (location : Location) (object : StoredObject)
  | copyObject (source target : Location) (expectedEtag : String)
  | deleteObject (location : Location)
  | checkSignal
  | dispatch (request : UploadVerificationRequest)
  | getSignedUrl (location : Location)

inductive Response where
  | ids (ids : List Uuid)
  | record (record : Option StoredFile)
  | duplicate
  | count (count : Nat)
  | metadata (metadata : Option ObjectMetadata)
  | bytes (bytes : Bytes)
  | content (content : StoredObject)
  | verdict (verdict : MalwareScanResult)
  | url (location : Location)
  | done
  | failed (failure : Failure)

/-- What a request leaves open: how it ends, which ids are generated, what a replica shows, what
the scanner finds, and whether a batch is published outside a tenant's transaction. -/
inductive Oracle where
  | ok
  | failed (applied : Bool)
  | generated (ids : List Uuid)
  | replica (record : Option StoredFileRow)
  | scanned (verdict : MalwareScanResult)
  | withoutTransaction

def storageFailure (code messageKey message : String) : Failure :=
  .domain <| .new {
    kind := some .unavailable
    code := some code
    messageKey := some messageKey
    violations := [{ path := "storage", code, message, messageKey := some messageKey }] }

/-- How a request fails: storage faults are domain exceptions, all others are passed on. -/
def Request.failure : Request → Failure
  | .head _ =>
      storageFailure "storage_head_failed" "errors.storage.head_failed" "Storage head failed"
  | .readRange _ _ =>
      storageFailure "storage_read_failed" "errors.storage.read_range_failed"
        "Storage readRange failed"
  | .readStream _ =>
      storageFailure "storage_read_failed" "errors.storage.read_range_failed"
        "Storage readStream failed"
  | .uploadStream _ _ =>
      storageFailure "storage_upload_failed" "errors.storage.upload_failed" "Storage upload failed"
  | .copyObject _ _ _ =>
      storageFailure "storage_finalize_failed" "errors.storage.commit_failed"
        "Storage finalize failed; retry confirmation"
  | .deleteObject _ =>
      storageFailure "storage_delete_failed" "errors.storage.delete_failed" "Storage delete failed"
  | .getSignedUrl _ =>
      storageFailure "storage_signed_url_failed" "errors.storage.signed_url_failed"
        "Storage signed URL generation failed"
  | _ => .infrastructure

def StoredObject.metadata (object : StoredObject) (bucket : String) : ObjectMetadata :=
  { contentType := object.contentType, size := object.bytes.length, bucket, etag := object.etag }

/-- A request that goes through, on the primary. -/
def respond (store : Store) (request : Request) : Option (Store × Response) :=
  match request with
  | .generateIds _ => none
  | .findFirst condition =>
      some (store, .record ((store.rows.find? condition.selects).map (·.toStoredFile)))
  | .createMany [] => some (store, .failed (.error "Cannot create an empty upload batch"))
  | .createMany files =>
      match RecordTable.insertMany conflicts (files.map (newRow store.now)) store.rows with
      | some rows => some (store.commit rows, .done)
      | none => some (store, .duplicate)
  | .updateMany condition data =>
      some (store.commit (RecordTable.updateMany condition.selects (data.apply store.now) store.rows),
        .count (RecordTable.updatedCount condition.selects store.rows))
  | .publishBatch ids status =>
      let condition : Where := { ids := some ids, status := some .finalizing, live := true }
      if ids = [] ∨ ¬ids.Nodup then
        some (store, .failed
          (.error "Upload publication requires a nonempty set of distinct IDs"))
      else if RecordTable.updatedCount condition.selects store.rows = ids.length then
        some (store.commit (RecordTable.updateMany condition.selects
          (({ status := some status } : Data).apply store.now) store.rows), .done)
      else some (store, .failed (.error "Upload batch changed before publication"))
  | .deleteMany condition =>
      some (store.commit (RecordTable.deleteMany condition.selects store.rows),
        .count (RecordTable.updatedCount condition.selects store.rows))
  | .delete id =>
      let condition : Where := { id := some id }
      if store.rows.any condition.selects then
        some (store.commit (RecordTable.deleteMany condition.selects store.rows), .count 1)
      else some (store, .failed request.failure)
  | .head location =>
      some (store, .metadata ((store.objects location).map (·.metadata location.bucket)))
  | .readRange location byteCount =>
      some (store, match store.objects location with
        | some object => .bytes (object.bytes.take byteCount)
        | none => .failed request.failure)
  | .readStream location =>
      some (store, match store.objects location with
        | some object => .content object
        | none => .failed request.failure)
  | .scan _ _ => none
  | .uploadStream location object => some (store.setObject location (some object), .done)
  | .copyObject source target expectedEtag =>
      match store.objects source with
      | some object =>
          if object.etag = expectedEtag then
            some (store.setObject target (some object), .done)
          else some (store, .failed request.failure)
      | none => some (store, .failed request.failure)
  | .deleteObject location => some (store.setObject location none, .done)
  | .checkSignal => some (store, .done)
  | .dispatch job => some ({ store with jobs := job :: store.jobs }, .done)
  | .getSignedUrl location => some (store, .url location)

/-- A request with what the oracle leaves open. -/
def perform (store : Store) (request : Request) : Oracle → Option (Store × Response)
  | .ok => respond store request
  | .failed applied =>
      match request with
      | .generateIds _ => none
      | _ => some (if applied then ((respond store request).map (·.1)).getD store else store,
          .failed request.failure)
  | .generated ids =>
      match request with
      | .generateIds count =>
          if ids.length = count ∧ ids.Nodup ∧ ∀ id ∈ ids, id ∉ store.issued then
            some ({ store with issued := ids ++ store.issued }, .ids ids)
          else none
      | _ => none
  | .replica record =>
      match request with
      | .findFirst condition =>
          if record.all fun row => store.versions.contains row && condition.selects row then
            some (store, .record (record.map (·.toStoredFile)))
          else none
      | _ => none
  | .scanned verdict =>
      match request with
      | .scan _ _ => some (store, .verdict verdict)
      | _ => none
  | .withoutTransaction =>
      match request with
      | .publishBatch ids status =>
          let condition : Where := { ids := some ids, status := some .finalizing, live := true }
          if ids = [] ∨ ¬ids.Nodup ∨
              RecordTable.updatedCount condition.selects store.rows = ids.length then none
          else some (store.commit (RecordTable.updateMany condition.selects
              (({ status := some status } : Data).apply store.now) store.rows),
            .failed (.error "Upload batch changed before publication"))
      | _ => none

/-- What a request can do, once and for all. -/
inductive Performed (store : Store) : Request → Oracle → Store → Response → Prop
  | responded {request : Request} {after : Store} {response : Response}
      (responded : respond store request = some (after, response)) :
      Performed store request .ok after response
  | failed {request : Request} {applied : Bool} :
      Performed store request (.failed applied) store (.failed request.failure)
  | failedApplied {request : Request} {after : Store} {response : Response}
      (responded : respond store request = some (after, response)) :
      Performed store request (.failed true) after (.failed request.failure)
  | generated {ids : List Uuid} (distinct : ids.Nodup) (new : ∀ id ∈ ids, id ∉ store.issued) :
      Performed store (.generateIds ids.length) (.generated ids)
        { store with issued := ids ++ store.issued } (.ids ids)
  | replica {condition : Where} {record : Option StoredFileRow}
      (shown : ∀ row ∈ record, row ∈ store.versions ∧ condition.selects row = true) :
      Performed store (.findFirst condition) (.replica record) store
        (.record (record.map (·.toStoredFile)))
  | scanned {content : StoredObject} {sizeBytes : Option Nat} {verdict : MalwareScanResult} :
      Performed store (.scan content sizeBytes) (.scanned verdict) store (.verdict verdict)
  | publishedPart {ids : List Uuid} {status : StoredFileStatus} :
      Performed store (.publishBatch ids status) .withoutTransaction
        (store.commit (RecordTable.updateMany
          ({ ids := some ids, status := some .finalizing, live := true } : Where).selects
          (({ status := some status } : Data).apply store.now) store.rows))
        (.failed (.error "Upload batch changed before publication"))

theorem perform_cases {store : Store} {request : Request} {oracle : Oracle} {after : Store}
    {response : Response} (performed : perform store request oracle = some (after, response)) :
    Performed store request oracle after response := by
  cases oracle with
  | ok => exact .responded performed
  | failed applied =>
    have outcome : after = (if applied then ((respond store request).map (·.1)).getD store
        else store) ∧ response = .failed request.failure := by
      cases request <;> simp_all [perform]
    obtain ⟨rfl, rfl⟩ := outcome
    cases applied with
    | false => exact .failed
    | true =>
      cases responded : respond store request with
      | none => exact .failed
      | some outcome => exact .failedApplied responded
  | generated ids =>
    cases request with
    | generateIds count =>
      simp only [perform] at performed
      split at performed
      · rename_i fresh
        obtain ⟨rfl, distinct, new⟩ := fresh
        obtain ⟨rfl, rfl⟩ := Prod.mk.inj (Option.some.inj performed)
        exact .generated distinct new
      · simp at performed
    | _ => simp [perform] at performed
  | replica record =>
    cases request with
    | findFirst condition =>
      simp only [perform] at performed
      split at performed
      · rename_i shown
        obtain ⟨rfl, rfl⟩ := Prod.mk.inj (Option.some.inj performed)
        exact .replica fun row member => by simpa [Option.mem_def.mp member] using shown
      · simp at performed
    | _ => simp [perform] at performed
  | scanned verdict =>
    cases request with
    | scan content sizeBytes =>
      obtain ⟨rfl, rfl⟩ := Prod.mk.inj (Option.some.inj performed)
      exact .scanned
    | _ => simp [perform] at performed
  | withoutTransaction =>
    cases request with
    | publishBatch ids status =>
      simp only [perform] at performed
      split at performed
      · simp at performed
      · obtain ⟨rfl, rfl⟩ := Prod.mk.inj (Option.some.inj performed)
        exact .publishedPart
    | _ => simp [perform] at performed

end NestjsFastify.Upload
