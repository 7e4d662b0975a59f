import Mathlib.Data.List.Basic
import NestjsFastify.DomainException
import NestjsFastify.LengthPrefixedFraming

/-! # Stored files: signatures, policy checks and storage keys

The declared content type of an upload is the client's word; only the leading bytes prove what the
object is.  Staged objects live under `uploads/`, published ones under `files/`.
-/
namespace NestjsFastify.Upload
open LengthPrefixedFraming (Bytes)

/-! ## File signatures -/

structure Signature where
  mimeType : String
  extensions : List String
  bytes : List (Option UInt8)

def signatures : List Signature :=
  [{ mimeType := "image/jpeg", extensions := ["jpg", "jpeg"]
     bytes := [some 0xff, some 0xd8, some 0xff] },
   { mimeType := "image/png", extensions := ["png"]
     bytes := [some 0x89, some 0x50, some 0x4e, some 0x47, some 0x0d, some 0x0a, some 0x1a,
      some 0x0a] },
   { mimeType := "image/gif", extensions := ["gif"]
     bytes := [some 0x47, some 0x49, some 0x46, some 0x38] },
   { mimeType := "image/webp", extensions := ["webp"]
     bytes := [some 0x52, some 0x49, some 0x46, some 0x46, none, none, none, none, some 0x57,
      some 0x45, some 0x42, some 0x50] },
   { mimeType := "application/pdf", extensions := ["pdf"]
     bytes := [some 0x25, some 0x50, some 0x44, some 0x46] }]

def allowedMimeTypes : List String := signatures.map (·.mimeType)

/-- The bytes begin with the signature, a wildcard matching any byte. -/
def Signature.matches (signature : Signature) (buffer : Bytes) : Bool :=
  signature.bytes.length ≤ buffer.length &&
    (signature.bytes.zip buffer).all fun (expected, byte) => expected.all (· == byte)

def detectFileType (buffer : Bytes) : Option String :=
  (signatures.find? (·.matches buffer)).map (·.mimeType)

/-- A detected type is one an upload may declare. -/
theorem detectFileType_allowed {buffer : Bytes} {mimeType : String}
    (detected : detectFileType buffer = some mimeType) : mimeType ∈ allowedMimeTypes := by
  obtain ⟨signature, found, rfl⟩ := Option.map_eq_some_iff.mp detected
  exact List.mem_map_of_mem (List.mem_of_find?_eq_some found)

/-! ## Policy checks -/

def mimeNotAllowed (contentType path : String) : DomainException :=
  fieldProblem {
    kind := .validation
    code := "upload_mime_not_allowed"
    violationCode := some "mime_not_allowed"
    messageKey := "errors.upload.mime_not_allowed"
    path
    message := "Mime type \"" ++ contentType ++ "\" is not allowed" }

def mimeExtensions (contentType : String) : Option String :=
  (signatures.find? (·.mimeType == contentType)).bind (·.extensions.head?)

/-- The extension the storage key must carry for a mime type the allow-list accepts. -/
def extensionForMimeType (contentType : String) : Except DomainException String :=
  match mimeExtensions contentType with
  | some extension => .ok extension
  | none => .error (mimeNotAllowed contentType "contentType")

def assertMimeAllowed (contentType : String) : Except DomainException Unit :=
  if contentType ∈ allowedMimeTypes then .ok () else .error (mimeNotAllowed contentType "key")

def assertSizeWithinLimit (size maxBytes : Nat) : Except DomainException Unit :=
  if 0 < size ∧ size ≤ maxBytes then .ok ()
  else .error <| fieldProblem {
    kind := .validation
    code := "upload_size_out_of_range"
    violationCode := some "size_out_of_range"
    messageKey := "errors.upload.size_out_of_range"
    path := "key"
    message := "Object size " ++ toString size ++ " bytes is outside the allowed range (1.." ++
      toString maxBytes ++ ")" }

def assertMagicBytesMatch (head : Bytes) (declaredContentType key : String) :
    Except DomainException Unit :=
  match detectFileType head with
  | none => .error <| fieldProblem {
      kind := .validation
      code := "upload_magic_bytes_unknown"
      violationCode := some "magic_bytes_unknown"
      messageKey := "errors.upload.magic_bytes_unknown"
      path := "key"
      message := "Object at \"" ++ key ++ "\" has no recognized binary signature" }
  | some detected =>
      if detected = declaredContentType then .ok ()
      else .error <| fieldProblem {
        kind := .validation
        code := "upload_magic_bytes_mismatch"
        violationCode := some "magic_bytes_mismatch"
        messageKey := "errors.upload.magic_bytes_mismatch"
        path := "key"
        message := "Magic bytes indicate \"" ++ detected ++ "\" but Content-Type is \"" ++
          declaredContentType ++ "\"" }

def objectNotFound (key : String) : DomainException :=
  fieldProblem {
    kind := .notFound
    code := "not_found"
    violationCode := some "object_not_found"
    messageKey := "errors.upload.object_not_found"
    path := "key"
    message := "No object stored at \"" ++ key ++ "\"" }

theorem assertMagicBytesMatch_ok_iff {head : Bytes} {declaredContentType key : String} :
    assertMagicBytesMatch head declaredContentType key = .ok () ↔
      detectFileType head = some declaredContentType := by
  rw [assertMagicBytesMatch]
  cases detectFileType head with
  | none => simp
  | some detected => by_cases same : detected = declaredContentType <;> simp [same]

/-! ## Keys -/

/-- A UUID in its textual form. -/
structure Uuid where
  text : String
  length : text.length = 36
  deriving DecidableEq, Repr

/-- Where staged objects live. -/
def stagingRoot : String := "uploads/"

/-- ``uploads/${userId}/``, where the staged objects of a user live. -/
def stagingPrefix (userId : Uuid) : String := stagingRoot ++ userId.text ++ "/"

def startsWith (text start : String) : Bool := start.toList.isPrefixOf text.toList

def assertOwnsSourceKey (sourceKey : String) (userId : Uuid) : Except DomainException Unit :=
  if startsWith sourceKey (stagingPrefix userId) then .ok () else .error (objectNotFound sourceKey)

/-- `sourceKey.slice(sourceKey.lastIndexOf('.'))`, empty without a dot. -/
def extensionOf (sourceKey : String) : String :=
  if '.' ∈ sourceKey.toList then
    String.ofList ('.' :: (sourceKey.toList.reverse.takeWhile (· ≠ '.')).reverse)
  else ""

/-- ``files/${userId}/${fileId}${extension}`` -/
def publishedKey (userId fileId : Uuid) (extension : String) : String :=
  "files/" ++ userId.text ++ "/" ++ fileId.text ++ extension

def isPublishedKey (key : String) : Bool := startsWith key "files/"

@[simp] theorem isPublishedKey_publishedKey (userId fileId : Uuid) (extension : String) :
    isPublishedKey (publishedKey userId fileId extension) = true := by
  simp [isPublishedKey, startsWith, publishedKey, String.toList_append, List.append_assoc]

/-- A published key says which file it belongs to. -/
theorem publishedKey_fileId {userId userId' fileId fileId' : Uuid} {extension extension' : String}
    (same : publishedKey userId fileId extension = publishedKey userId' fileId' extension') :
    fileId = fileId' := by
  have chars := congrArg String.toList same
  simp only [publishedKey, String.toList_append, List.append_assoc] at chars
  have afterPrefix := List.append_cancel_left chars
  have users : userId.text.toList.length = userId'.text.toList.length := by
    rw [String.length_toList, String.length_toList, userId.length, userId'.length]
  have afterUser := List.append_cancel_left (List.append_inj afterPrefix users).2
  have ids : fileId.text.toList.length = fileId'.text.toList.length := by
    rw [String.length_toList, String.length_toList, fileId.length, fileId'.length]
  have text := String.toList_inj.mp (List.append_inj afterUser ids).1
  cases fileId
  cases fileId'
  simpa using text

/-- No staged key is a published one. -/
theorem isPublishedKey_of_staged {key : String} (staged : startsWith key stagingRoot = true) :
    isPublishedKey key = false := by
  obtain ⟨rest, chars⟩ := List.isPrefixOf_iff_prefix.mp staged
  rw [isPublishedKey, startsWith, ← chars]
  rfl

theorem not_staged_and_published {key : String} (staged : startsWith key stagingRoot = true)
    (published : isPublishedKey key = true) : False :=
  Bool.noConfusion ((isPublishedKey_of_staged staged).symm.trans published)

/-- A key that its caller owns is a staged key. -/
theorem staged_of_owns {sourceKey : String} {userId : Uuid}
    (owns : assertOwnsSourceKey sourceKey userId = .ok ()) :
    startsWith sourceKey stagingRoot = true := by
  have staged : startsWith sourceKey (stagingPrefix userId) = true := by
    by_contra missing
    simp [assertOwnsSourceKey, missing] at owns
  refine List.isPrefixOf_iff_prefix.mpr (List.IsPrefix.trans ?_ (List.isPrefixOf_iff_prefix.mp staged))
  simp [stagingPrefix, String.toList_append, List.append_assoc]

/-- A staged key belongs to one user. -/
theorem user_of_staged {key : String} {first second : Uuid}
    (firstOwns : startsWith key (stagingPrefix first) = true)
    (secondOwns : startsWith key (stagingPrefix second) = true) : first = second := by
  have lengths : (stagingPrefix first).toList.length = (stagingPrefix second).toList.length := by
    simp only [stagingPrefix, String.toList_append, List.length_append, String.length_toList,
      first.length, second.length]
  have same : (stagingPrefix first).toList = (stagingPrefix second).toList :=
    (List.prefix_of_prefix_length_le (List.isPrefixOf_iff_prefix.mp firstOwns)
      (List.isPrefixOf_iff_prefix.mp secondOwns) lengths.le).eq_of_length lengths
  simp only [stagingPrefix, String.toList_append, List.append_assoc] at same
  have text := String.toList_inj.mp (List.append_cancel_right (List.append_cancel_left same))
  cases first
  cases second
  simpa using text

theorem startsWith_of_owns {sourceKey : String} {userId : Uuid}
    (owns : assertOwnsSourceKey sourceKey userId = .ok ()) :
    startsWith sourceKey (stagingPrefix userId) = true := by
  by_contra missing
  simp [assertOwnsSourceKey, missing] at owns

end NestjsFastify.Upload
