import NestjsFastify.ConfirmUpload

/-! # Verifying an upload

`VerifyUploadHandler.execute`: the signature check, the malware scan and the flip to READY, or the
rejection that deletes the object.
-/
namespace NestjsFastify.Upload
open LengthPrefixedFraming (Bytes)
open MalwareScanner (MalwareScanResult)

inductive VerifyUploadOutcome where
  | verified
  | rejected
  | skipped
  deriving DecidableEq, Repr

inductive VerifyPhase where
  | readingHead
  | headingObject
  | openingStream (sizeBytes : Option Nat)
  | scanning (content : StoredObject) (sizeBytes : Option Nat)
  | flipping (verdict : MalwareScanResult)
  | rejecting (failureReason : String)
  | reloading
  | deleting
  | returned (outcome : VerifyUploadOutcome)
  | threw (failure : Failure)
  deriving DecidableEq, Repr

structure VerifyUpload where
  command : UploadVerificationRequest
  phase : VerifyPhase
  deriving DecidableEq, Repr

def VerifyUpload.start (command : UploadVerificationRequest) : VerifyUpload :=
  ⟨command, .readingHead⟩

/-- The outcome that the flip to READY records for a verdict. -/
def scanOutcomeOf : MalwareScanResult → MalwareScanOutcome
  | .unscannable => .skippedTooLarge
  | _ => .clean

namespace VerifyUpload

def request (limits : UploadLimits) (handler : VerifyUpload) : Option Request :=
  let location := handler.command.location
  match handler.phase with
  | .readingHead => some (.readRange location limits.magicByteCount)
  | .headingObject => some (.head location)
  | .openingStream _ => some (.readStream location)
  | .scanning content sizeBytes => some (.scan content sizeBytes)
  | .flipping verdict =>
      some (.updateMany
        { key := some handler.command.key, status := some .verifying, live := true }
        { status := some .ready
          verifiedAt := true
          failureReason := some none
          scanOutcome := some (scanOutcomeOf verdict) })
  | .rejecting failureReason =>
      some (.updateMany { key := some handler.command.key, status := some .verifying }
        { status := some .rejected, failureReason := some (some failureReason) })
  | .reloading => some (.findFirst { key := some handler.command.key, live := true })
  | .deleting => some (.deleteObject location)
  | .returned _ => none
  | .threw _ => none

/-- The phase after a response.  Only a broken signature rule rejects the object at the first
check; every other failure leaves the job to be retried. -/
def next (command : UploadVerificationRequest) : VerifyPhase → Response → VerifyPhase
  | .readingHead, .bytes head =>
      match assertMagicBytesMatch head command.declaredContentType command.key with
      | .ok _ => .headingObject
      | .error exception =>
          if exception.kind ≠ .validation then .threw (.domain exception)
          else .rejecting exception.code
  | .readingHead, .failed (.domain exception) =>
      if exception.kind ≠ .validation then .threw (.domain exception)
      else .rejecting exception.code
  | .headingObject, .metadata metadata => .openingStream (metadata.map (·.size))
  | .openingStream sizeBytes, .content content => .scanning content sizeBytes
  | .scanning _ _, .verdict .infected => .rejecting "Malware scan rejected the object"
  | .scanning _ _, .verdict verdict => .flipping verdict
  | .flipping _, .count count => .returned (if 0 < count then .verified else .skipped)
  | .rejecting _, .count count => if 0 < count then .deleting else .reloading
  | .reloading, .record record =>
      if record.any (·.status = .rejected) then .deleting else .returned .skipped
  | .deleting, .done => .returned .rejected
  | _, .failed failure => .threw failure
  | phase, _ => phase

def resume (handler : VerifyUpload) (response : Response) : VerifyUpload :=
  { handler with phase := next handler.command handler.phase response }

/-- What precedes a phase.  The object is deleted once its row is rejected, by this handler or by an
earlier one; the flip to READY follows a verdict that is not `infected`; the row is looked up when
there was none to be rejected. -/
def Origin (command : UploadVerificationRequest) (phase : VerifyPhase) (response : Response) :
    VerifyPhase → Prop
  | .headingObject =>
      phase = .headingObject ∨ phase = .readingHead ∧ ∃ head, response = .bytes head ∧
        assertMagicBytesMatch head command.declaredContentType command.key = .ok ()
  | .openingStream sizeBytes => phase = .openingStream sizeBytes ∨ phase = .headingObject
  | .scanning content sizeBytes =>
      phase = .scanning content sizeBytes ∨
        phase = .openingStream sizeBytes ∧ response = .content content
  | .flipping verdict =>
      phase = .flipping verdict ∨ ∃ content sizeBytes, phase = .scanning content sizeBytes ∧
        response = .verdict verdict ∧ verdict ≠ .infected
  | .reloading =>
      (∃ reason, phase = .rejecting reason ∧ response = .count 0) ∨
        phase = .reloading ∧ (∀ record, response ≠ .record record) ∧
          ∀ failure, response ≠ .failed failure
  | .deleting =>
      phase = .deleting ∨
        (∃ reason count, phase = .rejecting reason ∧ 0 < count ∧ response = .count count) ∨
          phase = .reloading ∧ ∃ record, response = .record (some record) ∧
            record.status = .rejected
  | .returned outcome =>
      phase = .returned outcome ∨ (∃ verdict, phase = .flipping verdict) ∨
        (phase = .deleting ∧ response = .done) ∨
          phase = .reloading ∧ ∃ record, response = .record record ∧
            record.any (·.status = .rejected) = false
  | _ => True

theorem origin_of_next {command : UploadVerificationRequest} {phase : VerifyPhase}
    {response : Response} {reached : VerifyPhase}
    (reaches : next command phase response = reached) : Origin command phase response reached := by
  subst reaches
  fun_cases next command phase response
  case case17 => cases phase <;> grind [Origin]
  all_goals grind [Origin, Option.any_eq_true]

end VerifyUpload

end NestjsFastify.Upload
