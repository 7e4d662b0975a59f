import NestjsFastify.DomainException
import NestjsFastify.NumberReading
import NestjsFastify.ScriptText

/-! # Presigned URLs of the local storage

The adapter signs the fields of an upload or a download, joined by line breaks.  A request is
accepted when the signature matches the fields that it brings and the expiry has not passed.
-/
namespace NestjsFastify.PresignedUrls
open NumberText (Decimal isNumberChar text_injective)
open NumberReading (number isSafeInteger maxSafeInteger number_padded)
open ScriptText (join join_inj)

/-! ## The adapter -/

structure LocalStorage where
  bucket : List Char
  downloadUrlExpiresSeconds : Nat
  signingSetting : Option (List Char)
  publicEndpoint : Option (List Char)
  production : Bool

/-- HMAC-SHA-256 of a secret and a payload, as `base64url`. -/
structure Hmac where
  digest : List Char → List Char → List Char
  injective : ∀ secret, Function.Injective (digest secret)
  nonempty : ∀ secret payload, digest secret payload ≠ []

instance : Inhabited Hmac where
  default :=
    { digest := fun secret payload => 'x' :: (secret ++ payload)
      injective := fun secret => by
        intro payload other same
        exact List.append_cancel_left (List.cons.inj same).2
      nonempty := by simp }

def defaultPresignExpirySeconds : Nat := 300

def minSigningSecretLength : Nat := 32

def devSigningSecret : List Char := "local-storage-development-signing-secret".toList

def devPublicEndpoint : List Char := "http://localhost:3000".toList

/-- The latest time of a date, in milliseconds. -/
def maxTime : Nat := 8640000000000000

def isSegmentStart (character : Char) : Bool :=
  'a' ≤ character && character ≤ 'z' || 'A' ≤ character && character ≤ 'Z' || character.isDigit

/-- `SEGMENT_PATTERN` -/
def isSegment : List Char → Bool
  | [] => false
  | first :: rest => isSegmentStart first &&
      rest.all fun character =>
        isSegmentStart character || character = '.' || character = '_' || character = '-'

/-- `if (condition) throw error` -/
def refuse (condition : Prop) [Decidable condition] (refusal : Failure) : Except Failure Unit :=
  if condition then .error refusal else .ok ()

def segments (bucket key : List Char) : Except Failure (List (List Char)) :=
  let parts := key.splitOn '/'
  if !isSegment bucket || !parts.all isSegment then
    .error (.error ("Invalid local storage location \"" ++ String.ofList bucket ++ "/" ++
      String.ofList key ++ "\""))
  else .ok parts

/-- The paths of an object below the root of the storage. -/
structure ObjectLocation where
  objectPath : List (List Char)
  metaPath : List (List Char)

def locate (bucket key : List Char) : Except Failure ObjectLocation :=
  (segments bucket key).map fun parts =>
    { objectPath := "objects".toList :: bucket :: parts
      metaPath := "meta".toList :: bucket :: parts.dropLast ++
        [(parts.getLast?.getD []) ++ ".json".toList] }

/-- An empty setting counts as missing. -/
def requireSetting (storage : LocalStorage) (key : String) (value : Option (List Char))
    (devDefault : List Char) : Except Failure (List Char) :=
  match value.filter (· ≠ []) with
  | some value => .ok value
  | none =>
      if storage.production then
        .error (.error ("StorageModule: required env var \"" ++ key ++ "\" is not set"))
      else .ok devDefault

def signingSecret (storage : LocalStorage) : Except Failure (List Char) := do
  let secret ← requireSetting storage "STORAGE_LOCAL_SIGNING_SECRET" storage.signingSetting
    devSigningSecret
  refuse (ScriptText.codeUnits secret < minSigningSecretLength)
    (.error "STORAGE_LOCAL_SIGNING_SECRET must be at least 32 characters")
  pure secret

def publicUrl (storage : LocalStorage) (route : String) : Except Failure (List Char) :=
  (requireSetting storage "STORAGE_PUBLIC_ENDPOINT" storage.publicEndpoint devPublicEndpoint).map
    fun endpoint => endpoint.rdropWhile (· = '/') ++ "/api/v1/storage/local/".toList ++ route.toList

/-! ## Signatures -/

/-- What an upload form stands for. -/
structure UploadGrant where
  bucket : List Char
  key : List Char
  contentType : List Char
  maxBytes : Decimal
  expires : Decimal
  deriving DecidableEq

/-- What a download URL stands for. -/
structure DownloadGrant where
  bucket : List Char
  key : List Char
  expires : Decimal
  deriving DecidableEq

def uploadPayload (grant : UploadGrant) : List Char :=
  join '\n' ["upload".toList, grant.bucket, grant.key, grant.contentType, grant.maxBytes.text,
    grant.expires.text]

def downloadPayload (grant : DownloadGrant) : List Char :=
  join '\n' ["download".toList, grant.bucket, grant.key, grant.expires.text]

def sign (hmac : Hmac) (storage : LocalStorage) (payload : List Char) :
    Except Failure (List Char) :=
  (signingSecret storage).map fun secret => hmac.digest secret payload

def signingDenied (message : String) : Failure :=
  .domain (DomainException.new
    { kind := some .forbidden
      code := some "forbidden"
      title := some "common.forbidden"
      violations := [{ path := "signature", code := "signature_invalid", message := message }] })

def verify (hmac : Hmac) (storage : LocalStorage) (payload signature : List Char) :
    Except Failure Unit := do
  let expected ← sign hmac storage payload
  refuse (expected ≠ signature) (signingDenied "Signature does not match the requested object")

def assertNotExpired (now : Nat) (expires : Decimal) : Except Failure Unit :=
  refuse (expires.value < now) (signingDenied "Signed URL has expired")

/-! ## Issuing -/

/-- A content type of the allow-list. -/
structure ContentType where
  text : List Char
  nonempty : text ≠ []
  oneLine : '\n' ∉ text

structure PresignUploadOptions where
  bucket : Option (List Char)
  contentType : ContentType
  maxBytes : Decimal
  expiresInSeconds : Option Nat

structure PresignedUpload where
  url : List Char
  fields : List (String × List Char)
  key : List Char
  bucket : List Char
  expiresAt : Nat
  maxBytes : Decimal

/-- What a call of `presignUpload` asks for. -/
def PresignUploadOptions.grant (options : PresignUploadOptions) (storage : LocalStorage)
    (now : Nat) (key : List Char) : UploadGrant where
  bucket := options.bucket.getD storage.bucket
  key := key
  contentType := options.contentType.text
  maxBytes := options.maxBytes
  expires := Decimal.ofNat (now + options.expiresInSeconds.getD defaultPresignExpirySeconds)

def presignUpload (hmac : Hmac) (storage : LocalStorage) (now : Nat) (key : List Char)
    (options : PresignUploadOptions) : Except Failure PresignedUpload := do
  let grant := options.grant storage now key
  let expiresAt := (now + options.expiresInSeconds.getD defaultPresignExpirySeconds) * 1000
  let _ ← locate grant.bucket key
  let signature ← sign hmac storage (uploadPayload grant)
  let url ← publicUrl storage "uploads"
  refuse (maxTime < expiresAt) (.error "Invalid time value")
  pure
    { url
      fields := [("key", key), ("bucket", grant.bucket), ("Content-Type", grant.contentType),
        ("max-bytes", grant.maxBytes.text), ("expires", grant.expires.text),
        ("signature", signature)]
      key
      bucket := grant.bucket
      expiresAt
      maxBytes := grant.maxBytes }

/-- A download URL with its query parameters. -/
structure SignedUrl where
  url : List Char
  query : List (String × List Char)

def downloadGrant (storage : LocalStorage) (now : Nat) (key : List Char) (expiresIn : Option Nat)
    (bucket : Option (List Char)) : DownloadGrant where
  bucket := bucket.getD storage.bucket
  key := key
  expires := Decimal.ofNat (now + expiresIn.getD storage.downloadUrlExpiresSeconds)

def getSignedUrl (hmac : Hmac) (storage : LocalStorage) (now : Nat) (key : List Char)
    (expiresIn : Option Nat) (bucket : Option (List Char)) : Except Failure SignedUrl := do
  let grant := downloadGrant storage now key expiresIn bucket
  let _ ← locate grant.bucket key
  let signature ← sign hmac storage (downloadPayload grant)
  let url ← publicUrl storage "objects"
  pure
    { url
      query := [("bucket", grant.bucket), ("key", key), ("expires", grant.expires.text),
        ("signature", signature)] }

/-! ## Accepting -/

def malformedUpload (path message : String) : Failure :=
  .domain (DomainException.new
    { kind := some .malformed
      code := some "bad_request"
      title := some "common.bad_request"
      violations := [{ path := path, code := "field_invalid", message := message }] })

/-- An empty field counts as missing. -/
def requireField (fields : String → Option (List Char)) (name : String) :
    Except Failure (List Char) :=
  match (fields name).filter (· ≠ []) with
  | some value => .ok value
  | none => .error (malformedUpload name ("Form field \"" ++ name ++ "\" is required"))

/-- A safe integer above zero. -/
def requireInteger (fields : String → Option (List Char)) (name : String) :
    Except Failure Nat := do
  let text ← requireField fields name
  match number text with
  | some value =>
      if !isSafeInteger value || value ≤ 0 then
        .error (malformedUpload name ("Form field \"" ++ name ++ "\" must be a positive integer"))
      else .ok value.num.toNat
  | none =>
      .error (malformedUpload name ("Form field \"" ++ name ++ "\" must be a positive integer"))

/-- The fields of a form, as they are parsed. -/
def readForm (fields : String → Option (List Char)) : Except Failure (UploadGrant × List Char) := do
  let key ← requireField fields "key"
  let bucket ← requireField fields "bucket"
  let contentType ← requireField fields "Content-Type"
  let maxBytes ← requireInteger fields "max-bytes"
  let expires ← requireInteger fields "expires"
  let signature ← requireField fields "signature"
  pure (⟨bucket, key, contentType, .ofNat maxBytes, .ofNat expires⟩, signature)

/-- `acceptPresignedUpload`, up to the writing of the object. -/
def acceptPresignedUpload (hmac : Hmac) (storage : LocalStorage) (now : Nat)
    (fields : String → Option (List Char)) : Except Failure UploadGrant := do
  let form ← readForm fields
  verify hmac storage (uploadPayload form.1) form.2
  assertNotExpired now form.1.expires
  pure form.1

/-- `openSignedDownload`, up to the reading of the object. -/
def openSignedDownload (hmac : Hmac) (storage : LocalStorage) (now : Nat)
    (request : DownloadGrant) (signature : List Char) : Except Failure Unit := do
  verify hmac storage (downloadPayload request) signature
  assertNotExpired now request.expires

/-! ## Checks that pass -/

section
variable {hmac : Hmac} {storage : LocalStorage}

theorem refuse_eq_ok {condition : Prop} [Decidable condition] {refusal : Failure} {passed : Unit} :
    refuse condition refusal = .ok passed ↔ ¬ condition := by
  unfold refuse
  split_ifs with holds <;> simp [holds]

theorem verify_eq_ok {payload signature : List Char} {passed : Unit} :
    verify hmac storage payload signature = .ok passed ↔
      sign hmac storage payload = .ok signature := by
  simp only [verify, bind_eq_ok, refuse_eq_ok, not_not]
  exact ⟨fun ⟨_, signed, same⟩ => same ▸ signed, fun signed => ⟨signature, signed, rfl⟩⟩

theorem assertNotExpired_eq_ok {now : Nat} {expires : Decimal} {passed : Unit} :
    assertNotExpired now expires = .ok passed ↔ (now : ℚ) ≤ expires.value :=
  refuse_eq_ok.trans not_lt

theorem acceptPresignedUpload_eq_ok {now : Nat} {fields : String → Option (List Char)}
    {grant : UploadGrant} :
    acceptPresignedUpload hmac storage now fields = .ok grant ↔
      ∃ signature, readForm fields = .ok (grant, signature) ∧
        sign hmac storage (uploadPayload grant) = .ok signature ∧
          (now : ℚ) ≤ grant.expires.value := by
  simp only [acceptPresignedUpload, bind_eq_ok, verify_eq_ok, assertNotExpired_eq_ok, exists_const,
    pure, Except.pure, Except.ok.injEq, Prod.exists]
  constructor
  · rintro ⟨read, signature, form, signed, alive, rfl⟩
    exact ⟨signature, form, signed, alive⟩
  · rintro ⟨signature, form, signed, alive⟩
    exact ⟨grant, signature, form, signed, alive, rfl⟩

theorem openSignedDownload_eq_ok {now : Nat} {request : DownloadGrant} {signature : List Char}
    {passed : Unit} :
    openSignedDownload hmac storage now request signature = .ok passed ↔
      sign hmac storage (downloadPayload request) = .ok signature ∧
        (now : ℚ) ≤ request.expires.value := by
  simp only [openSignedDownload, bind_eq_ok, verify_eq_ok, assertNotExpired_eq_ok, exists_const]

/-- Different payloads have different signatures. -/
theorem sign_inj {payload other signature : List Char}
    (first : sign hmac storage payload = .ok signature)
    (second : sign hmac storage other = .ok signature) : payload = other := by
  unfold sign at first second
  cases configured : signingSecret storage with
  | error refusal =>
    rw [configured] at first
    cases first
  | ok secret =>
    simp only [configured, Except.map, Except.ok.injEq] at first second
    exact hmac.injective secret (first.trans second.symm)

/-! ## Payloads -/

inductive Grant where
  | upload (grant : UploadGrant)
  | download (grant : DownloadGrant)
  deriving DecidableEq

def Grant.payload : Grant → List Char
  | .upload grant => uploadPayload grant
  | .download grant => downloadPayload grant

/-- None of the fields has a line break. -/
def Grant.OneLine : Grant → Prop
  | .upload grant => '\n' ∉ grant.bucket ∧ '\n' ∉ grant.key ∧ '\n' ∉ grant.contentType
  | .download grant => '\n' ∉ grant.bucket ∧ '\n' ∉ grant.key

theorem text_oneLine (number : Decimal) : '\n' ∉ number.text :=
  fun member => absurd (number.text_chars.2 '\n' member) (by decide)

/-- A payload of fields without line breaks is that of no other fields, whatever these contain. -/
theorem payload_inj {grant other : Grant} (plain : grant.OneLine)
    (same : grant.payload = other.payload) : grant = other := by
  have kinds (upload : UploadGrant) (download : DownloadGrant) :
      uploadPayload upload ≠ downloadPayload download := by
    intro same
    have first : (uploadPayload upload).head? = (downloadPayload download).head? := by rw [same]
    simp [uploadPayload, downloadPayload, join, List.intercalate] at first
  cases grant with
  | upload grant =>
    cases other with
    | download other => exact absurd same (kinds grant other)
    | upload other =>
      have parts := join_inj (by simp) (by
        simpa [text_oneLine, Grant.OneLine] using plain) (by simp) same
      simp only [List.cons.injEq, true_and, and_true, text_injective.eq_iff] at parts
      cases grant
      cases other
      simp_all
  | download grant =>
    cases other with
    | upload other => exact absurd same.symm (kinds other grant)
    | download other =>
      have parts := join_inj (by simp) (by
        simpa [text_oneLine, Grant.OneLine] using plain) (by simp) same
      simp only [List.cons.injEq, true_and, and_true, text_injective.eq_iff] at parts
      cases grant
      cases other
      simp_all

theorem segment_oneLine {part : List Char} (valid : isSegment part = true) : '\n' ∉ part := by
  intro member
  cases part with
  | nil => cases member
  | cons first rest =>
    rw [isSegment, Bool.and_eq_true, List.all_eq_true] at valid
    rcases List.mem_cons.mp member with rfl | own
    · exact absurd valid.1 (by decide)
    · exact absurd (valid.2 '\n' own) (by decide)

/-- What names an object: neither empty nor with a line break. -/
structure Locatable (bucket key : List Char) : Prop where
  bucketLine : '\n' ∉ bucket
  keyLine : '\n' ∉ key
  bucketNonempty : bucket ≠ []
  keyNonempty : key ≠ []

theorem locatable_of_locate {bucket key : List Char} {location : ObjectLocation}
    (located : locate bucket key = .ok location) : Locatable bucket key := by
  simp only [locate, segments] at located
  split_ifs at located with invalid
  · cases located
  simp only [Bool.or_eq_true, Bool.not_eq_true', not_or, Bool.not_eq_false, List.all_eq_true]
    at invalid
  refine ⟨segment_oneLine invalid.1, fun member => ?_, ?_, ?_⟩
  · have whole : ['/'].intercalate (key.splitOn '/') = key := List.intercalate_splitOn '/'
    rw [← whole] at member
    obtain mark | ⟨part, listed, own⟩ := ScriptText.mem_join member
    · exact absurd mark (by decide)
    · exact segment_oneLine (invalid.2 part listed) own
  · rintro rfl
    cases invalid.1
  · rintro rfl
    cases invalid.2 [] (by simp)

end

/-! ## Histories -/

/-- A call that asks for a URL at some time. -/
inductive Call where
  | presignUpload (now : Nat) (key : List Char) (options : PresignUploadOptions)
  | getSignedUrl (now : Nat) (key : List Char) (expiresIn : Option Nat)
      (bucket : Option (List Char))

def Call.grant (storage : LocalStorage) : Call → Grant
  | .presignUpload now key options => .upload (options.grant storage now key)
  | .getSignedUrl now key expiresIn bucket =>
      .download (downloadGrant storage now key expiresIn bucket)

/-- The names and texts that the caller hands to a client, unless the call fails. -/
def Call.parameters (hmac : Hmac) (storage : LocalStorage) :
    Call → Except Failure (List (String × List Char))
  | .presignUpload now key options =>
      (PresignedUrls.presignUpload hmac storage now key options).map (·.fields)
  | .getSignedUrl now key expiresIn bucket =>
      (PresignedUrls.getSignedUrl hmac storage now key expiresIn bucket).map (·.query)

/-- The URL that a call issues, with its signature. -/
def Call.issued (hmac : Hmac) (storage : LocalStorage) (call : Call) :
    Option (Grant × List Char) :=
  match call.parameters hmac storage with
  | .ok parameters => (parameters.lookup "signature").map fun signature =>
      (call.grant storage, signature)
  | .error _ => none

/-- The URLs that were issued. -/
def issued (hmac : Hmac) (storage : LocalStorage) (history : List Call) :
    List (Grant × List Char) :=
  history.filterMap (Call.issued hmac storage)

/-- A signature that fits a payload was handed out with a URL. -/
def Known (hmac : Hmac) (storage : LocalStorage) (history : List Call) (signature : List Char) :
    Prop :=
  ∀ payload, sign hmac storage payload = .ok signature →
    ∃ grant, (grant, signature) ∈ issued hmac storage history

section
variable {hmac : Hmac} {storage : LocalStorage} {history : List Call}

/-- A form carries the parsed fields and the signature of what it was signed for. -/
theorem presignUpload_eq_ok {now : Nat} {key : List Char} {options : PresignUploadOptions}
    {form : PresignedUpload} (passed : presignUpload hmac storage now key options = .ok form) :
    Locatable (options.bucket.getD storage.bucket) key ∧
      ∃ signature, sign hmac storage (uploadPayload (options.grant storage now key)) =
          .ok signature ∧
        (now + options.expiresInSeconds.getD defaultPresignExpirySeconds) * 1000 ≤ maxTime ∧
          form.fields =
            [("key", key), ("bucket", options.bucket.getD storage.bucket),
              ("Content-Type", options.contentType.text), ("max-bytes", options.maxBytes.text),
              ("expires", (Decimal.ofNat
                (now + options.expiresInSeconds.getD defaultPresignExpirySeconds)).text),
              ("signature", signature)] := by
  simp only [presignUpload, bind_eq_ok, refuse_eq_ok, not_lt] at passed
  obtain ⟨location, located, signature, signed, url, _, _, fits, same⟩ := passed
  cases same
  exact ⟨locatable_of_locate located, signature, signed, fits, rfl⟩

theorem getSignedUrl_eq_ok {now : Nat} {key : List Char} {expiresIn : Option Nat}
    {bucket : Option (List Char)} {url : SignedUrl}
    (passed : getSignedUrl hmac storage now key expiresIn bucket = .ok url) :
    Locatable (bucket.getD storage.bucket) key ∧
      ∃ signature, sign hmac storage
          (downloadPayload (downloadGrant storage now key expiresIn bucket)) = .ok signature ∧
        url.query.lookup "signature" = some signature := by
  simp only [getSignedUrl, bind_eq_ok] at passed
  obtain ⟨location, located, signature, signed, address, _, same⟩ := passed
  cases same
  exact ⟨locatable_of_locate located, signature, signed, rfl⟩

/-- What is issued is signed, and has no line breaks. -/
theorem signed_of_issued {grant : Grant} {signature : List Char}
    (member : (grant, signature) ∈ issued hmac storage history) :
    sign hmac storage grant.payload = .ok signature ∧ grant.OneLine := by
  obtain ⟨call, -, out⟩ := List.mem_filterMap.mp member
  cases call with
  | presignUpload now key options =>
    cases result : presignUpload hmac storage now key options with
    | error failure => simp [Call.issued, Call.parameters, result, Except.map] at out
    | ok form =>
      obtain ⟨locatable, own, signed, -, fields⟩ := presignUpload_eq_ok result
      simp only [Call.issued, Call.parameters, result, Except.map, fields] at out
      cases out
      exact ⟨signed, locatable.bucketLine, locatable.keyLine, options.contentType.oneLine⟩
  | getSignedUrl now key expiresIn bucket =>
    cases result : getSignedUrl hmac storage now key expiresIn bucket with
    | error failure => simp [Call.issued, Call.parameters, result, Except.map] at out
    | ok url =>
      obtain ⟨locatable, own, signed, carried⟩ := getSignedUrl_eq_ok result
      simp only [Call.issued, Call.parameters, result, Except.map, carried] at out
      cases out
      exact ⟨signed, locatable.bucketLine, locatable.keyLine⟩

/-- The signature of an issued URL fits nothing else. -/
theorem eq_of_issued {grant other : Grant} {signature : List Char}
    (member : (grant, signature) ∈ issued hmac storage history)
    (signed : sign hmac storage other.payload = .ok signature) : grant = other :=
  payload_inj (signed_of_issued member).2 (sign_inj (signed_of_issued member).1 signed)

/-- A known signature fits exactly what it was issued for. -/
theorem sign_eq_ok_iff {grant : Grant} {signature : List Char}
    (known : Known hmac storage history signature) :
    sign hmac storage grant.payload = .ok signature ↔
      (grant, signature) ∈ issued hmac storage history := by
  constructor
  · intro signed
    obtain ⟨other, member⟩ := known _ signed
    exact eq_of_issued member signed ▸ member
  · exact fun member => (signed_of_issued member).1

end

/-! ## Forms -/

section
variable {fields : String → Option (List Char)}

theorem requireField_eq_ok {name : String} {value : List Char} :
    requireField fields name = .ok value ↔ fields name = some value ∧ value ≠ [] := by
  unfold requireField
  cases found : (fields name).filter (· ≠ []) with
  | none =>
    simp only [reduceCtorEq, false_iff, not_and, not_not]
    intro field
    simpa [field] using found
  | some other =>
    obtain ⟨field, nonempty⟩ := Option.filter_eq_some_iff.mp found
    simp only [Except.ok.injEq, field, Option.some.injEq]
    constructor
    · rintro rfl
      exact ⟨rfl, by simpa using nonempty⟩
    · exact fun ⟨same, _⟩ => same

theorem requireInteger_text {name : String} {value : Nat} (positive : 0 < value)
    (safe : value ≤ maxSafeInteger) (field : fields name = some (Decimal.ofNat value).text) :
    requireInteger fields name = .ok value := by
  have digits : (Decimal.ofNat value).text = DecimalText.padded 1 value :=
    NumberText.text_ofNat (safe.trans_lt (by decide))
  have read : requireField fields name = .ok (DecimalText.padded 1 value) :=
    requireField_eq_ok.mpr ⟨digits ▸ field, NumberText.padded_ne_nil value⟩
  have whole : isSafeInteger (value : ℚ) = true := by
    simp [isSafeInteger, safe]
  have above : decide ((value : ℚ) ≤ 0) = false := by simp [positive.ne']
  simp only [requireInteger, read, bind, Except.bind, number_padded safe, whole, above,
    Rat.num_natCast, Int.toNat_natCast]
  rfl

/-- A form with all fields is parsed. -/
theorem readForm_of_fields {key bucket contentType signature : List Char} {maxBytes expires : Nat}
    (keyField : requireField fields "key" = .ok key)
    (bucketField : requireField fields "bucket" = .ok bucket)
    (typeField : requireField fields "Content-Type" = .ok contentType)
    (sizeField : requireInteger fields "max-bytes" = .ok maxBytes)
    (expiryField : requireInteger fields "expires" = .ok expires)
    (signatureField : requireField fields "signature" = .ok signature) :
    readForm fields =
      .ok (⟨bucket, key, contentType, .ofNat maxBytes, .ofNat expires⟩, signature) := by
  simp only [readForm, keyField, bucketField, typeField, sizeField, expiryField, signatureField]
  rfl

theorem signature_of_readForm {grant : UploadGrant} {signature : List Char}
    (read : readForm fields = .ok (grant, signature)) : fields "signature" = some signature := by
  simp only [readForm, bind_eq_ok, requireField_eq_ok] at read
  obtain ⟨_, _, _, _, _, _, _, _, _, _, own, ⟨field, _⟩, same⟩ := read
  cases same
  exact field

end

/-! ## What is accepted -/

structure PresignedLaws (hmac : Hmac) (storage : LocalStorage) : Prop where
  uploads : ∀ (history : List Call) (now : Nat) (fields : String → Option (List Char))
    (grant : UploadGrant),
    (∀ signature, fields "signature" = some signature → Known hmac storage history signature) →
      (acceptPresignedUpload hmac storage now fields = .ok grant ↔
        ∃ signature, readForm fields = .ok (grant, signature) ∧
          (.upload grant, signature) ∈ issued hmac storage history ∧
            (now : ℚ) ≤ grant.expires.value)
  downloads : ∀ (history : List Call) (now : Nat) (request : DownloadGrant)
    (signature : List Char), Known hmac storage history signature →
      (openSignedDownload hmac storage now request signature = .ok () ↔
        (.download request, signature) ∈ issued hmac storage history ∧
          (now : ℚ) ≤ request.expires.value)
  bound : ∀ (history : List Call) (grant : Grant) (signature : List Char),
    (grant, signature) ∈ issued hmac storage history → ∀ now,
      (∀ fields accepted, fields "signature" = some signature →
        acceptPresignedUpload hmac storage now fields = .ok accepted →
          grant = .upload accepted) ∧
      ∀ request, openSignedDownload hmac storage now request signature = .ok () →
        grant = .download request
  issuedUpload : ∀ (now later limit : Nat) (key : List Char) (options : PresignUploadOptions)
    (form : PresignedUpload), presignUpload hmac storage now key options = .ok form →
      options.maxBytes = .ofNat limit → 0 < limit → limit ≤ maxSafeInteger → 0 < now →
        later ≤ now + options.expiresInSeconds.getD defaultPresignExpirySeconds →
          acceptPresignedUpload hmac storage later (fun name => form.fields.lookup name) =
            .ok (options.grant storage now key)
  issuedDownload : ∀ (now later : Nat) (key : List Char) (expiresIn : Option Nat)
    (bucket : Option (List Char)) (url : SignedUrl),
    getSignedUrl hmac storage now key expiresIn bucket = .ok url →
      later ≤ now + expiresIn.getD storage.downloadUrlExpiresSeconds →
        ∃ signature, url.query.lookup "signature" = some signature ∧
          openSignedDownload hmac storage later
            (downloadGrant storage now key expiresIn bucket) signature = .ok ()

section
variable {hmac : Hmac} {storage : LocalStorage}

theorem sign_ne_nil {payload signature : List Char}
    (signed : sign hmac storage payload = .ok signature) : signature ≠ [] := by
  unfold sign at signed
  cases configured : signingSecret storage with
  | error refusal =>
    rw [configured] at signed
    cases signed
  | ok secret =>
    rw [configured] at signed
    cases signed
    exact hmac.nonempty secret payload

/-- An issued form is accepted with its own grant. -/
theorem accept_issued_form {now later limit : Nat} {key : List Char}
    {options : PresignUploadOptions} {form : PresignedUpload}
    (passed : presignUpload hmac storage now key options = .ok form)
    (sized : options.maxBytes = .ofNat limit) (positive : 0 < limit)
    (safe : limit ≤ maxSafeInteger) (clock : 0 < now)
    (alive : later ≤ now + options.expiresInSeconds.getD defaultPresignExpirySeconds) :
    acceptPresignedUpload hmac storage later (fun name => form.fields.lookup name) =
      .ok (options.grant storage now key) := by
  obtain ⟨locatable, signature, signed, fits, fields⟩ := presignUpload_eq_ok passed
  refine acceptPresignedUpload_eq_ok.mpr ⟨signature, ?_, signed, ?_⟩
  · have expiry : 0 < now + options.expiresInSeconds.getD defaultPresignExpirySeconds := by omega
    have early : now + options.expiresInSeconds.getD defaultPresignExpirySeconds ≤
        maxSafeInteger := by
      unfold maxTime at fits
      unfold maxSafeInteger
      omega
    have grantEq : options.grant storage now key =
        ⟨options.bucket.getD storage.bucket, key, options.contentType.text, .ofNat limit,
          .ofNat (now + options.expiresInSeconds.getD defaultPresignExpirySeconds)⟩ := by
      rw [PresignUploadOptions.grant, sized]
    rw [grantEq]
    exact readForm_of_fields
      (requireField_eq_ok.mpr ⟨by rw [fields]; rfl, locatable.keyNonempty⟩)
      (requireField_eq_ok.mpr ⟨by rw [fields]; rfl, locatable.bucketNonempty⟩)
      (requireField_eq_ok.mpr ⟨by rw [fields]; rfl, options.contentType.nonempty⟩)
      (requireInteger_text positive safe (by rw [fields, sized]; rfl))
      (requireInteger_text expiry early (by rw [fields]; rfl))
      (requireField_eq_ok.mpr ⟨by rw [fields]; rfl, sign_ne_nil signed⟩)
  · rw [PresignUploadOptions.grant, Decimal.value_ofNat]
    exact_mod_cast alive

end

theorem presignedLaws (hmac : Hmac) (storage : LocalStorage) : PresignedLaws hmac storage where
  uploads history now fields grant known := by
    rw [acceptPresignedUpload_eq_ok]
    refine exists_congr fun signature => and_congr_right fun read => and_congr_left fun _ => ?_
    exact @sign_eq_ok_iff hmac storage history (.upload grant) signature
      (known signature (signature_of_readForm read))
  downloads history now request signature known := by
    rw [openSignedDownload_eq_ok]
    exact and_congr_left fun _ =>
      @sign_eq_ok_iff hmac storage history (.download request) signature known
  bound history grant signature member now := by
    constructor
    · intro fields accepted field passed
      obtain ⟨own, read, signed, -⟩ := acceptPresignedUpload_eq_ok.mp passed
      obtain rfl := Option.some.inj (field.symm.trans (signature_of_readForm read))
      exact eq_of_issued member signed
    · intro request passed
      exact eq_of_issued member (openSignedDownload_eq_ok.mp passed).1
  issuedUpload _ _ _ _ _ _ passed sized positive safe clock alive :=
    accept_issued_form passed sized positive safe clock alive
  issuedDownload now later key expiresIn bucket url passed alive := by
    obtain ⟨-, signature, signed, carried⟩ := getSignedUrl_eq_ok passed
    refine ⟨signature, carried, openSignedDownload_eq_ok.mpr ⟨signed, ?_⟩⟩
    rw [downloadGrant, Decimal.value_ofNat]
    exact_mod_cast alive

/-- A storage under development, with the settings' defaults. -/
def exampleStorage : LocalStorage where
  bucket := "files".toList
  downloadUrlExpiresSeconds := 300
  signingSetting := none
  publicEndpoint := none
  production := false

def exampleOptions : PresignUploadOptions where
  bucket := none
  contentType := ⟨"image/png".toList, by decide, by decide⟩
  maxBytes := .ofNat 1024
  expiresInSeconds := none

theorem presignedLaws_example : ∃ form url signature,
    presignUpload default exampleStorage 1000 ['a'] exampleOptions = .ok form ∧
      acceptPresignedUpload default exampleStorage 1300 (fun name => form.fields.lookup name) =
        .ok (exampleOptions.grant exampleStorage 1000 ['a']) ∧
      getSignedUrl default exampleStorage 1000 ['a'] none none = .ok url ∧
      url.query.lookup "signature" = some signature ∧
      openSignedDownload default exampleStorage 1300
        (downloadGrant exampleStorage 1000 ['a'] none none) signature = .ok () ∧
      Known default exampleStorage [.getSignedUrl 1000 ['a'] none none] signature ∧
      openSignedDownload default exampleStorage 1300
        (downloadGrant exampleStorage 1000 ['b'] none none) signature ≠ .ok () := by
  have laws := presignedLaws default exampleStorage
  have passes : (presignUpload default exampleStorage 1000 ['a'] exampleOptions).isOk = true := by
    decide +kernel
  obtain ⟨form, formed⟩ : ∃ form,
      presignUpload default exampleStorage 1000 ['a'] exampleOptions = .ok form := by
    cases result : presignUpload default exampleStorage 1000 ['a'] exampleOptions with
    | error failure => simp [result, Except.isOk, Except.toBool] at passes
    | ok form => exact ⟨form, rfl⟩
  obtain ⟨url, signed⟩ : ∃ url,
      getSignedUrl default exampleStorage 1000 ['a'] none none = .ok url := ⟨_, rfl⟩
  obtain ⟨signature, carried, opened⟩ := laws.issuedDownload 1000 1300 _ none none url signed
    (Nat.le_refl _)
  have issuedOnce : (.download (downloadGrant exampleStorage 1000 ['a'] none none), signature) ∈
      issued default exampleStorage [.getSignedUrl 1000 ['a'] none none] := by
    simp [issued, Call.issued, Call.parameters, Call.grant, signed, Except.map, carried]
  have known : Known default exampleStorage [.getSignedUrl 1000 ['a'] none none] signature :=
    fun _ _ => ⟨_, issuedOnce⟩
  refine ⟨form, url, signature, formed, ?_, signed, carried, opened, known, ?_⟩
  · exact laws.issuedUpload 1000 1300 1024 _ exampleOptions form formed rfl (by decide) (by decide)
      (by decide) (Nat.le_refl _)
  · intro other
    have same := ((laws.downloads _ 1300 _ signature known).mp other).1
    simp [issued, Call.issued, Call.parameters, Call.grant, signed, Except.map, carried,
      downloadGrant] at same

end NestjsFastify.PresignedUrls
