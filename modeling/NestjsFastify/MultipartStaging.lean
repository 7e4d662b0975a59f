import Mathlib.Data.List.Forall2
import NestjsFastify.StoredFileEntity

/-! # Staging of multipart uploads

The files of a multipart request are streamed to temporary files.  While a file passes, its first
bytes are copied for the signature check, it is hashed and counted, and it counts against the budget
that all files of the request share.
-/
namespace NestjsFastify.MultipartStaging
open LengthPrefixedFraming (Bytes)
open Upload (allowedMimeTypes assertMagicBytesMatch assertMimeAllowed assertSizeWithinLimit
  assertMagicBytesMatch_ok_iff detectFileType)

def UPLOAD_MAGIC_BYTE_COUNT : Nat := 16

/-! ## Requests -/

/-- An error of the multipart plugin, of a stream or of the file system. -/
structure Fault where
  code : Option String
  statusCode : Option Nat
  deriving DecidableEq, Repr

inductive UploadError where
  | badRequest (message : String)
  | payloadTooLarge (message : String)
  | http (message : String) (status : Nat)
  | domain (exception : DomainException)
  | fault (fault : Fault)
  deriving DecidableEq, Repr

inductive PartType where
  | file
  | field
  deriving DecidableEq, Repr

/-- A part as it arrives: whether the signal is aborted by then, the chunks of its stream, and what
breaks the pipeline, if anything does. -/
structure Part where
  type : PartType
  fieldname : String
  mimetype : String
  aborted : Option Fault := none
  chunks : List Bytes
  broken : Option Fault := none
  truncated : Bool := false
  deriving DecidableEq, Repr

/-- The bytes of the part. -/
def Part.content (part : Part) : Bytes := part.chunks.flatten

/-- `if (condition) throw error` -/
def refuseIf (condition : Prop) [Decidable condition] (error : UploadError) :
    Except UploadError Unit :=
  if condition then .error error else .ok ()

/-- What fails fails here, if anything does. -/
def raise : Option Fault → Except UploadError Unit
  | none => .ok ()
  | some fault => .error (.fault fault)

/-- A check of the domain throws its exception. -/
def throwing {Value : Type} : Except DomainException Value → Except UploadError Value :=
  Except.mapError .domain

/-- The parts of a request, and what the plugin fails with after them, if it fails. -/
structure Request where
  isMultipart : Bool
  parts : List Part
  invalid : Option Fault := none
  deriving DecidableEq, Repr

structure Limits where
  maxFileBytes : Nat
  maxFiles : Nat
  maxTotalBytes : Nat

structure PreparedMultipartUpload where
  filepath : String
  contentType : String
  size : Nat
  digest : String
  deriving DecidableEq, Repr

/-- The temporary files. -/
abbrev Staging := String → Option Bytes

/-! ## `saveFile` -/

/-- `source.copy(target, targetStart, 0, sourceEnd)` -/
def copyInto (source target : Bytes) (targetStart sourceEnd : Nat) : Bytes :=
  let copied := (source.take sourceEnd).take (target.length - targetStart)
  target.take targetStart ++ copied ++ target.drop (targetStart + copied.length)

/-- What is known of the part of a file that has passed: its bytes went into the hash and on to the
temporary file. -/
structure Inspection where
  signature : Bytes := List.replicate UPLOAD_MAGIC_BYTE_COUNT 0
  size : Nat := 0
  remaining : Int
  hashed : Bytes := []
  passed : Bytes := []
  deriving DecidableEq, Repr

/-- `transform` -/
def Inspection.transform (maximum : Nat) (inspection : Inspection) (chunk : Bytes) :
    Except UploadError Inspection :=
  let signature :=
    if inspection.size < UPLOAD_MAGIC_BYTE_COUNT then
      copyInto chunk inspection.signature inspection.size
        (UPLOAD_MAGIC_BYTE_COUNT - inspection.size)
    else inspection.signature
  let size := inspection.size + chunk.length
  let remaining := inspection.remaining - chunk.length
  if remaining < 0 ∨ maximum < size then
    .error (.payloadTooLarge "Upload exceeds the byte limit.")
  else .ok {
    signature
    size
    remaining
    hashed := inspection.hashed ++ chunk
    passed := inspection.passed ++ chunk }

/-- The bytes whose signature is checked. -/
def Inspection.head (inspection : Inspection) : Bytes :=
  inspection.signature.take (min inspection.size UPLOAD_MAGIC_BYTE_COUNT)

/-- `EEXIST`, which the flag `wx` asks for. -/
def fileExists : Fault := { code := some "EEXIST", statusCode := none }

/-- `saveFile`, with the budget that is left of before and after. -/
def saveFile (sha256 : Bytes → String) (part : Part) (filepath : String) (maximum : Nat)
    (remaining : Int) (staging : Staging) :
    Except UploadError (PreparedMultipartUpload × Int × Staging) := do
  refuseIf (staging filepath ≠ none) (.fault fileExists)
  let inspection ← part.chunks.foldlM (Inspection.transform maximum) { remaining }
  raise part.broken
  refuseIf part.truncated (.payloadTooLarge "File exceeds the byte limit.")
  throwing (assertSizeWithinLimit inspection.size maximum)
  throwing (assertMagicBytesMatch inspection.head part.mimetype "file")
  return ({ filepath
            contentType := part.mimetype
            size := inspection.size
            digest := sha256 inspection.hashed },
          inspection.remaining, Function.update staging filepath (some inspection.passed))

/-! ## `prepare` -/

/-- The `catch` of `prepare`: an error of the plugin keeps its status. -/
def caught : UploadError → UploadError
  | .fault { code := some code, statusCode := some status } =>
      if "FST_".toList.isPrefixOf code.toList then .http "Invalid multipart upload." status
      else .fault { code := some code, statusCode := some status }
  | error => error

/-- The path of a new temporary file. -/
def temporaryPath (tmpdir uuid : String) : String := tmpdir ++ "/upload-" ++ uuid

/-- One round of the loop: a part, with the files before it. -/
def preparePart (sha256 : Bytes → String) (limits : Limits) (filepath : Nat → String)
    (state : List PreparedMultipartUpload × Int × Staging) (part : Part) :
    Except UploadError (List PreparedMultipartUpload × Int × Staging) := do
  let (files, remaining, staging) := state
  raise part.aborted
  refuseIf (part.type ≠ .file ∨ part.fieldname ≠ "file")
    (.badRequest "Only file fields named file are accepted.")
  refuseIf (limits.maxFiles ≤ files.length)
    (.payloadTooLarge "Upload exceeds the file count limit.")
  throwing (assertMimeAllowed part.mimetype)
  let (file, remaining, staging) ←
    saveFile sha256 part (filepath files.length) limits.maxFileBytes remaining staging
  return (files ++ [file], remaining, staging)

/-- `prepare`, after `acquireRequest` has given its answer, with the random names of the temporary
files. -/
def prepare (sha256 : Bytes → String) (limits : Limits) (acquired : Except UploadError Unit)
    (tmpdir : String) (uuids : Nat → String) (request : Request) (staging : Staging) :
    Except UploadError (List PreparedMultipartUpload × Staging) := do
  refuseIf (request.isMultipart = false) (.badRequest "Expected multipart/form-data.")
  acquired
  Except.mapError caught do
    let (files, _, staging) ← request.parts.foldlM
      (preparePart sha256 limits fun count => temporaryPath tmpdir (uuids count))
      ([], limits.maxTotalBytes, staging)
    raise request.invalid
    refuseIf (files = []) (.badRequest "At least one file is required.")
    return (files, staging)

/-! ## What has passed -/

/-- What is known after the bytes `content`, when `remaining` bytes were left of the budget. -/
def Inspection.after (remaining : Int) (content : Bytes) : Inspection where
  signature := content.take UPLOAD_MAGIC_BYTE_COUNT ++
    List.replicate (UPLOAD_MAGIC_BYTE_COUNT - content.length) 0
  size := content.length
  remaining := remaining - content.length
  hashed := content
  passed := content

/-- The bytes are within the limits. -/
def Fits (maximum : Nat) (remaining : Int) (content : Bytes) : Prop :=
  content.length ≤ remaining ∧ content.length ≤ maximum

instance (maximum : Nat) (remaining : Int) (content : Bytes) :
    Decidable (Fits maximum remaining content) :=
  inferInstanceAs (Decidable (_ ∧ _))

section
variable {maximum : Nat} {remaining : Int} {content : Bytes}

theorem Inspection.after_nil : Inspection.after remaining [] = { remaining } := by
  simp [Inspection.after]

/-- The bytes whose signature is checked are the first ones of the file. -/
theorem Inspection.head_after :
    (Inspection.after remaining content).head =
      content.take (min UPLOAD_MAGIC_BYTE_COUNT content.length) := by
  simp only [Inspection.head, Inspection.after]
  rw [List.take_append_of_le_length (by simp [min_comm]), List.take_take]
  congr 1
  omega

/-- A chunk is copied behind the bytes that are already there. -/
theorem copyInto_after (chunk : Bytes) (short : content.length < UPLOAD_MAGIC_BYTE_COUNT) :
    copyInto chunk (Inspection.after remaining content).signature content.length
      (UPLOAD_MAGIC_BYTE_COUNT - content.length) =
        (Inspection.after remaining (content ++ chunk)).signature := by
  have whole : content.take UPLOAD_MAGIC_BYTE_COUNT = content :=
    List.take_of_length_le (by omega)
  have target : (content ++ List.replicate (UPLOAD_MAGIC_BYTE_COUNT - content.length) 0).length -
      content.length = UPLOAD_MAGIC_BYTE_COUNT - content.length := by
    simp
  have padding : (content ++ List.replicate (UPLOAD_MAGIC_BYTE_COUNT - content.length)
      (0 : UInt8)).drop (content.length + (chunk.take (UPLOAD_MAGIC_BYTE_COUNT -
        content.length)).length) =
      List.replicate (UPLOAD_MAGIC_BYTE_COUNT - (content ++ chunk).length) 0 := by
    rw [List.drop_append, List.drop_eq_nil_of_le (by omega), List.nil_append, List.drop_replicate]
    simp only [List.length_take, List.length_append]
    congr 1
    omega
  simp only [copyInto, Inspection.after, whole, target, List.take_take, min_self, List.take_left',
    padding, List.take_append]

/-- A chunk passes if the bytes with it are within the limits. -/
theorem Inspection.transform_after (chunk : Bytes) :
    (Inspection.after remaining content).transform maximum chunk =
      if Fits maximum remaining (content ++ chunk) then
        .ok (Inspection.after remaining (content ++ chunk))
      else .error (.payloadTooLarge "Upload exceeds the byte limit.") := by
  have signature : (if content.length < UPLOAD_MAGIC_BYTE_COUNT then
      copyInto chunk (Inspection.after remaining content).signature content.length
        (UPLOAD_MAGIC_BYTE_COUNT - content.length)
      else (Inspection.after remaining content).signature) =
        (Inspection.after remaining (content ++ chunk)).signature := by
    split_ifs with short
    · exact copyInto_after chunk short
    · simp only [Inspection.after, List.length_append]
      rw [List.take_append_of_le_length (by omega)]
      congr 2
      omega
  have outside : remaining - content.length - chunk.length < 0 ∨
      maximum < content.length + chunk.length ↔ ¬Fits maximum remaining (content ++ chunk) := by
    simp only [Fits, List.length_append]
    omega
  unfold Inspection.transform
  simp only [show (Inspection.after remaining content).size = content.length from rfl, signature]
  simp only [Inspection.after, outside, List.length_append]
  split_ifs
  · congr 2
    push_cast
    ring
  · rfl

/-- A file passes if all of it is within the limits, however it is cut into chunks. -/
theorem Inspection.foldlM_after (chunks : List Bytes) (fits : Fits maximum remaining content) :
    chunks.foldlM (Inspection.transform maximum) (Inspection.after remaining content) =
      if Fits maximum remaining (content ++ chunks.flatten) then
        .ok (Inspection.after remaining (content ++ chunks.flatten))
      else .error (.payloadTooLarge "Upload exceeds the byte limit.") := by
  induction chunks generalizing content with
  | nil => simp [fits]; rfl
  | cons chunk chunks ih =>
    rw [List.foldlM_cons, Inspection.transform_after, List.flatten_cons, ← List.append_assoc]
    split_ifs with within whole whole
    · exact (ih within).trans (if_pos whole)
    · exact (ih within).trans (if_neg whole)
    · refine absurd ?_ within
      simp only [Fits, List.length_append] at whole ⊢
      omega
    · rfl

end

/-! ## What `prepare` returns -/

/-- What a part must be for its file to be staged. -/
structure Part.Acceptable (part : Part) (limits : Limits) : Prop where
  file : part.type = .file ∧ part.fieldname = "file"
  allowed : part.mimetype ∈ allowedMimeTypes
  signature : detectFileType (part.content.take (min UPLOAD_MAGIC_BYTE_COUNT
    part.content.length)) = some part.mimetype
  size : 1 ≤ part.content.length ∧ part.content.length ≤ limits.maxFileBytes

/-- What is returned for a part. -/
structure Part.StagedAs (part : Part) (sha256 : Bytes → String) (staging : Staging)
    (upload : PreparedMultipartUpload) : Prop where
  contentType : upload.contentType = part.mimetype
  size : upload.size = part.content.length
  digest : upload.digest = sha256 part.content
  staged : staging upload.filepath = some part.content

/-- The two parts differ in their chunks alone, and not in their contents. -/
def Part.Rechunks (part other : Part) : Prop :=
  part.content = other.content ∧ part = { other with chunks := part.chunks }

/-- The two requests differ in how the streams of their files are cut into chunks. -/
def Request.Rechunks (request other : Request) : Prop :=
  List.Forall₂ Part.Rechunks request.parts other.parts ∧
    request = { other with parts := request.parts }

/-- What a request must be for its files to be staged, and what is returned for it then. -/
structure Request.StagedAs (request : Request) (sha256 : Bytes → String) (limits : Limits)
    (uploads : List PreparedMultipartUpload) (staging : Staging) : Prop where
  multipart : request.isMultipart = true
  acceptable : ∀ part ∈ request.parts, part.Acceptable limits
  total : (request.parts.map (·.content.length)).sum ≤ limits.maxTotalBytes
  count : 1 ≤ request.parts.length ∧ request.parts.length ≤ limits.maxFiles
  returned : List.Forall₂ (fun part upload => part.StagedAs sha256 staging upload) request.parts
    uploads
  apart : (uploads.map (·.filepath)).Nodup

variable {sha256 : Bytes → String} {limits : Limits} {part : Part}

theorem throwing_eq_ok {Value : Type} {checked : Except DomainException Value} {value : Value} :
    throwing checked = .ok value ↔ checked = .ok value := by
  cases checked <;> simp [throwing, Except.mapError]

theorem refuseIf_eq_ok {condition : Prop} [Decidable condition] {error : UploadError}
    {passed : Unit} : refuseIf condition error = .ok passed ↔ ¬condition := by
  simp [refuseIf]

theorem raise_eq_ok {fault : Option Fault} {passed : Unit} :
    raise fault = .ok passed ↔ fault = none := by
  cases fault <;> simp [raise]

theorem assertSizeWithinLimit_ok_iff {size maximum : Nat} {passed : Unit} :
    assertSizeWithinLimit size maximum = .ok passed ↔ 1 ≤ size ∧ size ≤ maximum := by
  rw [assertSizeWithinLimit]
  split_ifs with within
  · exact iff_of_true rfl within
  · exact iff_of_false (by simp) within

theorem assertMimeAllowed_ok_iff {contentType : String} {passed : Unit} :
    assertMimeAllowed contentType = .ok passed ↔ contentType ∈ allowedMimeTypes := by
  simp [assertMimeAllowed]

/-- What `saveFile` asks for, and what it returns. -/
theorem saveFile_eq_ok {filepath : String} {maximum : Nat} {remaining : Int} {staging : Staging}
    (within : 0 ≤ remaining)
    (result : PreparedMultipartUpload × Int × Staging) :
    saveFile sha256 part filepath maximum remaining staging = .ok result ↔
      staging filepath = none ∧ Fits maximum remaining part.content ∧ part.broken = none ∧
        part.truncated = false ∧ 1 ≤ part.content.length ∧
          detectFileType (part.content.take (min UPLOAD_MAGIC_BYTE_COUNT part.content.length)) =
            some part.mimetype ∧
          ({ filepath, contentType := part.mimetype, size := part.content.length,
             digest := sha256 part.content }, remaining - part.content.length,
            Function.update staging filepath (some part.content)) = result := by
  have passes := @Inspection.foldlM_after maximum remaining [] part.chunks
    ⟨by simpa using within, by simp⟩
  rw [Inspection.after_nil, List.nil_append, show part.chunks.flatten = part.content from rfl]
    at passes
  unfold saveFile
  rw [passes]
  simp only [bind_eq_ok, refuseIf_eq_ok, raise_eq_ok, throwing_eq_ok, assertSizeWithinLimit_ok_iff,
    Unique.exists_iff, PUnit.default_eq_unit, assertMagicBytesMatch_ok_iff, not_not,
    Bool.not_eq_true]
  by_cases fits : Fits maximum remaining part.content
  · have size : part.content.length ≤ maximum := fits.2
    simp only [if_pos fits, Except.ok.injEq, exists_eq_left', Inspection.head_after]
    simp only [Inspection.after, size, fits, and_true, true_and, pure, Except.pure,
      Except.ok.injEq]
  · simp [fits]

/-- What a round of the loop asks for. -/
theorem preparePart_eq_ok {filepath : Nat → String} {files : List PreparedMultipartUpload}
    {remaining : Int} {staging : Staging}
    (result : List PreparedMultipartUpload × Int × Staging) :
    preparePart sha256 limits filepath (files, remaining, staging) part = .ok result ↔
      part.aborted = none ∧ (part.type = .file ∧ part.fieldname = "file") ∧
        files.length < limits.maxFiles ∧ part.mimetype ∈ allowedMimeTypes ∧
          ∃ saved, saveFile sha256 part (filepath files.length) limits.maxFileBytes remaining
            staging = .ok saved ∧ (files ++ [saved.1], saved.2) = result := by
  unfold preparePart
  simp only [bind_eq_ok, refuseIf_eq_ok, raise_eq_ok, throwing_eq_ok, assertMimeAllowed_ok_iff,
    exists_const, not_or, not_not, not_le, pure, Except.pure, Except.ok.injEq]

/-- The parts `done` are staged. -/
structure StagedSoFar (sha256 : Bytes → String) (limits : Limits) (done : List Part)
    (state : List PreparedMultipartUpload × Int × Staging) : Prop where
  acceptable : ∀ part ∈ done, part.Acceptable limits
  staged : List.Forall₂ (fun part upload => part.StagedAs sha256 state.2.2 upload) done state.1
  remaining : state.2.1 = limits.maxTotalBytes - ((done.map (·.content.length)).sum : Nat)
  within : 0 ≤ state.2.1
  count : done.length ≤ limits.maxFiles
  apart : (state.1.map (·.filepath)).Nodup

variable {filepath : Nat → String} {done : List Part} {staging : Staging}
  {state after : List PreparedMultipartUpload × Int × Staging}

/-- A file that is staged has its place in the staging area. -/
theorem occupied_of_staged {uploads : List PreparedMultipartUpload}
    (staged : List.Forall₂ (fun part upload => part.StagedAs sha256 staging upload) done uploads) :
    ∀ upload ∈ uploads, staging upload.filepath ≠ none := by
  induction staged with
  | nil => simp
  | cons first rest ih => exact List.forall_mem_cons.mpr ⟨by simp [first.staged], ih⟩

/-- A file that is staged stays as it is when one is staged in a free place. -/
theorem Part.StagedAs.update {upload : PreparedMultipartUpload} {path : String}
    (staged : part.StagedAs sha256 staging upload) (content : Option Bytes)
    (fresh : staging path = none) :
    part.StagedAs sha256 (Function.update staging path content) upload := by
  have apart : upload.filepath ≠ path := by
    rintro rfl
    simp [staged.staged] at fresh
  exact { staged with staged := by rw [Function.update_of_ne apart, staged.staged] }

/-- A round of the loop stages its part, and the files before it stay as they are. -/
theorem StagedSoFar.round (sound : StagedSoFar sha256 limits done state)
    (taken : preparePart sha256 limits filepath state part = .ok after) :
    StagedSoFar sha256 limits (done ++ [part]) after := by
  obtain ⟨files, remaining, staging⟩ := state
  obtain ⟨-, file, few, allowed, saved, saving, rfl⟩ := (preparePart_eq_ok after).mp taken
  obtain ⟨fresh, fits, -, -, nonempty, signature, rfl⟩ :=
    (saveFile_eq_ok sound.within saved).mp saving
  have same := sound.staged.length_eq
  have earlier := sound.staged.imp fun _ _ staged => staged.update (some part.content) fresh
  exact {
    acceptable := List.forall_mem_append.mpr ⟨sound.acceptable, List.forall_mem_singleton.mpr
      ⟨file, allowed, signature, nonempty, fits.2⟩⟩
    staged := List.rel_append earlier (.cons ⟨rfl, rfl, rfl, by simp⟩ .nil)
    remaining := by
      have left := sound.remaining
      simp only [List.map_append, List.sum_append, List.map_singleton, List.sum_singleton] at left ⊢
      omega
    within := by
      have bound := fits.1
      simp only at bound ⊢
      omega
    count := by
      simp only [List.length_append, List.length_singleton] at same ⊢
      omega
    apart := by
      rw [List.map_append, List.nodup_append]
      refine ⟨sound.apart, by simp, ?_⟩
      simp only [List.map_singleton, List.mem_singleton]
      rintro _ member _ rfl rfl
      obtain ⟨upload, present, path⟩ := List.mem_map.mp member
      exact occupied_of_staged sound.staged upload present (path ▸ fresh) }

theorem StagedSoFar.rounds {parts : List Part} (sound : StagedSoFar sha256 limits done state)
    (taken : parts.foldlM (preparePart sha256 limits filepath) state = .ok after) :
    StagedSoFar sha256 limits (done ++ parts) after := by
  induction parts generalizing done state with
  | nil =>
    obtain rfl := Except.ok.inj taken
    rwa [List.append_nil]
  | cons part parts ih =>
    rw [List.foldlM_cons] at taken
    obtain ⟨between, first, rest⟩ := bind_eq_ok.mp taken
    rw [List.append_cons]
    exact ih (sound.round first) rest

/-! ## Chunks -/

/-- How a part is cut into chunks does not matter. -/
theorem preparePart_rechunks {other : Part} (same : part.Rechunks other) (within : 0 ≤ state.2.1) :
    preparePart sha256 limits filepath state part = .ok after ↔
      preparePart sha256 limits filepath state other = .ok after := by
  obtain ⟨files, remaining, staging⟩ := state
  obtain ⟨content, fields⟩ := same
  have type : part.type = other.type := by rw [fields]
  have fieldname : part.fieldname = other.fieldname := by rw [fields]
  have mimetype : part.mimetype = other.mimetype := by rw [fields]
  have aborted : part.aborted = other.aborted := by rw [fields]
  have broken : part.broken = other.broken := by rw [fields]
  have truncated : part.truncated = other.truncated := by rw [fields]
  simp only [preparePart_eq_ok, saveFile_eq_ok within, type, fieldname, mimetype, aborted, broken,
    truncated, content]

theorem foldlM_rechunks {parts others : List Part} (same : List.Forall₂ Part.Rechunks parts others)
    (sound : StagedSoFar sha256 limits done state) :
    parts.foldlM (preparePart sha256 limits filepath) state = .ok after ↔
      others.foldlM (preparePart sha256 limits filepath) state = .ok after := by
  induction same generalizing done state with
  | nil => rfl
  | @cons part other parts others first rest ih =>
    simp only [List.foldlM_cons, bind_eq_ok]
    constructor
    · rintro ⟨between, taken, later⟩
      exact ⟨between, (preparePart_rechunks first sound.within).mp taken,
        (ih (sound.round taken)).mp later⟩
    · rintro ⟨between, taken, later⟩
      have taken := (preparePart_rechunks first sound.within).mpr taken
      exact ⟨between, taken, (ih (sound.round taken)).mpr later⟩

/-! ## The requests that are staged -/

variable {acquired : Except UploadError Unit} {tmpdir : String} {uuids : Nat → String}
  {request : Request} {uploads : List PreparedMultipartUpload} {final : Staging}

theorem mapError_eq_ok {Failure Other Value : Type} {change : Failure → Other}
    {action : Except Failure Value} {value : Value} :
    Except.mapError change action = .ok value ↔ action = .ok value := by
  cases action <;> simp [Except.mapError]

/-- What `prepare` asks for. -/
theorem prepare_eq_ok :
    prepare sha256 limits acquired tmpdir uuids request staging = .ok (uploads, final) ↔
      request.isMultipart = true ∧ acquired = .ok () ∧
        (∃ remaining, request.parts.foldlM
          (preparePart sha256 limits fun count => temporaryPath tmpdir (uuids count))
          ([], (limits.maxTotalBytes : Int), staging) = .ok (uploads, remaining, final)) ∧
        request.invalid = none ∧ uploads ≠ [] := by
  unfold prepare
  simp only [bind_eq_ok, refuseIf_eq_ok, raise_eq_ok, mapError_eq_ok, Unique.exists_iff,
    PUnit.default_eq_unit, Bool.not_eq_false, pure, Except.pure, Except.ok.injEq, Prod.mk.injEq]
  constructor
  · rintro ⟨multipart, slot, ⟨files, remaining, staged⟩, rounds, valid, some, rfl, rfl⟩
    exact ⟨multipart, slot, ⟨remaining, rounds⟩, valid, some⟩
  · rintro ⟨multipart, slot, ⟨remaining, rounds⟩, valid, some⟩
    exact ⟨multipart, slot, (uploads, remaining, final), rounds, valid, some, rfl, rfl⟩

/-- Files are returned only if the request is within all limits, and then they are what the client
has sent, however the streams are cut into chunks. -/
theorem stagedAs_of_prepare
    (returned : prepare sha256 limits acquired tmpdir uuids request staging =
      .ok (uploads, final)) :
    request.StagedAs sha256 limits uploads final ∧
      (∀ part ∈ request.parts, ∀ remaining inspection, 0 ≤ remaining →
        part.chunks.foldlM (Inspection.transform limits.maxFileBytes) { remaining } =
            .ok inspection →
          inspection.head = part.content.take (min UPLOAD_MAGIC_BYTE_COUNT part.content.length)) ∧
      ∀ other, request.Rechunks other →
        prepare sha256 limits acquired tmpdir uuids other staging = .ok (uploads, final) := by
  obtain ⟨multipart, slot, ⟨remaining, rounds⟩, valid, some⟩ := prepare_eq_ok.mp returned
  have start : StagedSoFar sha256 limits [] ([], (limits.maxTotalBytes : Int), staging) :=
    ⟨by simp, .nil, by simp, Int.natCast_nonneg _, Nat.zero_le _, List.nodup_nil⟩
  have sound := start.rounds rounds
  rw [List.nil_append] at sound
  refine ⟨?_, ?_, ?_⟩
  · exact {
      multipart
      acceptable := sound.acceptable
      total := by
        have left := sound.remaining
        have within := sound.within
        omega
      count := by
        refine ⟨?_, sound.count⟩
        rw [sound.staged.length_eq]
        exact List.length_pos_iff.mpr some
      returned := sound.staged
      apart := sound.apart }
  · intro part member remaining inspection within passed
    have passes := @Inspection.foldlM_after limits.maxFileBytes remaining [] part.chunks
      ⟨by simpa using within, by simp⟩
    rw [Inspection.after_nil, List.nil_append, passed] at passes
    split_ifs at passes with fits
    obtain rfl := Except.ok.inj passes
    exact Inspection.head_after
  · rintro other ⟨parts, fields⟩
    have isMultipart : request.isMultipart = other.isMultipart := by rw [fields]
    have invalid : request.invalid = other.invalid := by rw [fields]
    exact prepare_eq_ok.mpr ⟨isMultipart ▸ multipart, slot,
      ⟨remaining, (foldlM_rechunks parts start).mp rounds⟩, invalid ▸ valid, some⟩

/-- A file in three chunks, the first of which ends within the signature, and another one for which
the first has left just enough. -/
def sample : Request where
  isMultipart := true
  parts := [{
    type := .file
    fieldname := "file"
    mimetype := "image/png"
    chunks := [[0x89, 0x50, 0x4e], [0x47, 0x0d, 0x0a, 0x1a, 0x0a, 1, 2, 3, 4, 5, 6, 7], [8, 9, 10]]
  }, {
    type := .file
    fieldname := "file"
    mimetype := "image/jpeg"
    chunks := [[0xff, 0xd8], [0xff, 1, 2, 3, 4, 5, 6, 7, 8, 9, 10, 11]]
  }]

theorem sample_staged :
    ∃ uploads final, uploads.map PreparedMultipartUpload.size = [18, 14] ∧
      sample.StagedAs (fun bytes => toString bytes.length) ⟨18, 2, 32⟩ uploads final := by
  obtain ⟨⟨uploads, final⟩, returned, sizes⟩ : ∃ result, prepare
      (fun bytes => toString bytes.length) ⟨18, 2, 32⟩ (.ok ()) "/tmp" (fun count => toString count)
      sample (fun _ => none) = .ok result ∧ result.1.map PreparedMultipartUpload.size = [18, 14] :=
    ⟨_, rfl, rfl⟩
  exact ⟨uploads, final, sizes, (stagedAs_of_prepare returned).1⟩

end NestjsFastify.MultipartStaging
