import Mathlib.Data.List.Forall2
import NestjsFastify.ErrorShaping

/-! # What a server error shows

Two payloads may differ in what a failure says about itself: title, error, detail, message, errors,
and the messages of health checks.  The bodies that are sent for them are to be the same.
-/
namespace NestjsFastify.ErrorShaping
open ProblemDetails

/-! ### Payloads that differ in private fields -/

/-- Health checks that are the same but for their messages. -/
def SameCheck (first second : String × Json) : Prop :=
  first.1 = second.1 ∧ (first.2 = second.2 ∨
    ∃ members others, first.2 = .object members ∧ second.2 = .object others ∧
      ∀ name, name ≠ "message" → members.lookup name = others.lookup name)

def SameChecks (first second : Option Json) : Prop :=
  first = second ∨ ∃ checks others, first = some (.object checks) ∧
    second = some (.object others) ∧ List.Forall₂ SameCheck checks others

def privateFields : List String := ["title", "error", "detail", "message", "errors"]

structure DifferInPrivate (first second : Option Json) : Prop where
  others : ∀ name, name ∉ privateFields → name ≠ "checks" → field first name = field second name
  checks : SameChecks (field first "checks") (field second "checks")

/-- The names and the statuses of the health checks. -/
def checkStatuses (source : Option Json) : Option (List (String × Option String)) :=
  (field source "checks" >>= Json.entries?).map (·.map checkStatus)

/-- What may be shown is the same: the address, the names and the statuses of health checks. -/
structure SamePublic (first second : Option Json) : Prop where
  instanceUrl : textField first "instance" = textField second "instance"
  checks : checkStatuses first = checkStatuses second

theorem SameCheck.checkStatus_eq {first second : String × Json} (same : SameCheck first second) :
    checkStatus first = checkStatus second := by
  obtain ⟨name, status⟩ := same
  have statuses : first.2.get? "status" = second.2.get? "status" := by
    rcases status with equal | ⟨members, others, firstEq, secondEq, agree⟩
    · rw [equal]
    · rw [firstEq, secondEq]
      exact agree "status" (by decide)
  rw [checkStatus, checkStatus, name, statuses]

/-- Payloads that differ in private fields only show the same public part. -/
theorem DifferInPrivate.samePublic {first second : Option Json}
    (differ : DifferInPrivate first second) : SamePublic first second where
  instanceUrl := by
    rw [textField, textField, differ.others "instance" (by decide) (by decide)]
  checks := by
    rcases differ.checks with equal | ⟨checks, others, firstEq, secondEq, same⟩
    · rw [checkStatuses, checkStatuses, equal]
    · have statuses : checks.map checkStatus = others.map checkStatus :=
        List.forall₂_eq_eq_eq ▸ List.forall₂_map_left_iff.mpr
          (List.forall₂_map_right_iff.mpr (same.imp fun _ _ => SameCheck.checkStatus_eq))
      rw [checkStatuses, checkStatuses, firstEq, secondEq]
      exact congrArg some statuses

/-! ### The bodies -/

section
variable {environment : HookEnvironment} {request : RequestContext} {status : Nat}
  {first second source : Option Json}

theorem shapeError_document (server : 500 ≤ status)
    (rest : isGraphqlResponse request source = false) (document : isDocumentOf status source = true) :
    shapeError environment request status source =
      .shaped (documentBody environment request status source) := by
  rw [shapeError, if_neg (by omega), rest, if_neg Bool.false_ne_true, if_pos document]

theorem shapeError_fallback (server : 500 ≤ status)
    (rest : isGraphqlResponse request source = false) (other : isDocumentOf status source = false) :
    shapeError environment request status source =
      (fallbackCode status source).elim .failed fun code =>
        .shaped (fallbackBody environment request status source code) := by
  rw [shapeError, if_neg (by omega), rest, if_neg Bool.false_ne_true, other,
    if_neg Bool.false_ne_true]
  cases fallbackCode status source <;> rfl

/-- All that the body for a document shows of a server error is public. -/
theorem documentBody_eq (server : 500 ≤ status) :
    documentBody environment request status source =
      { buildProblemDetails environment.toEnvironment {
          status
          title := statusTitle status
          detail := some (.string (statusTitle status))
          code := statusCode status
          instanceUrl := some (sanitizeUrlForLogging
            ((textField source "instance").getD request.url))
          requestId := some (requestIdOf environment request)
          checks := field source "checks" } with } := by
  have above : ¬ status < 500 := by omega
  simp only [documentBody, if_pos server, if_neg above]
  congr 1
  all_goals split <;> simp [buildProblemDetails]

/-- The same public part makes the same body for a document. -/
theorem documentBody_congr (server : 500 ≤ status) (same : SamePublic first second) :
    documentBody environment request status first =
      documentBody environment request status second := by
  rw [documentBody_eq server, documentBody_eq server, same.instanceUrl]
  have checks := buildProblemDetails_congr environment.toEnvironment {
      status
      title := statusTitle status
      detail := some (.string (statusTitle status))
      code := statusCode status
      instanceUrl := some (sanitizeUrlForLogging
        ((textField second "instance").getD request.url))
      requestId := some (requestIdOf environment request)
      checks := field second "checks" } same.checks
  rw [checks]

/-- Two payloads that are no documents have no text to show that differs. -/
def SameFallback (status : Nat) (first second : Option Json) : Prop :=
  fallbackCode status first = fallbackCode status second ∧
    (fallbackCode status first = none ∨ fallbackTitle status first = fallbackTitle status second)

/-- A document names no health check and the path of the request, and the other payload has no text
to show beyond the title of the status. -/
def PlainBeside (request : RequestContext) (status : Nat) (document other : Option Json) : Prop :=
  fallbackCode status other = some (statusCode status) ∧
    fallbackTitle status other = statusTitle status ∧
      sanitizeUrlForLogging ((textField document "instance").getD request.url) =
        sanitizeUrlForLogging request.url ∧
          (checkStatuses document).getD [] = []

/-- Two payloads that the hook treats alike. -/
def TreatedAlike (request : RequestContext) (status : Nat) (first second : Option Json) : Prop :=
  match isDocumentOf status first, isDocumentOf status second with
  | true, true => True
  | false, false => SameFallback status first second
  | true, false => PlainBeside request status first second
  | false, true => PlainBeside request status second first

theorem sameFallback_iff (server : 500 ≤ status) :
    ((fallbackCode status first).elim Outcome.failed fun code =>
        .shaped (fallbackBody environment request status first code)) =
      ((fallbackCode status second).elim .failed fun code =>
        .shaped (fallbackBody environment request status second code)) ↔
      SameFallback status first second := by
  rw [SameFallback]
  cases firstCode : fallbackCode status first with
  | none => cases fallbackCode status second <;> simp
  | some code =>
    cases secondCode : fallbackCode status second with
    | none => simp
    | some other =>
      simp only [Option.elim_some, Outcome.shaped.injEq, Option.some.injEq, reduceCtorEq, false_or]
      constructor
      · intro same
        exact ⟨congrArg (·.code) same, congrArg (·.title) same⟩
      · rintro ⟨rfl, titles⟩
        simp only [fallbackBody, if_pos server, titles]

theorem plainBeside_iff (server : 500 ≤ status) :
    Outcome.shaped (documentBody environment request status first) =
      ((fallbackCode status second).elim .failed fun code =>
        .shaped (fallbackBody environment request status second code)) ↔
      PlainBeside request status first second := by
  rw [PlainBeside, documentBody_eq server]
  cases secondCode : fallbackCode status second with
  | none => simp
  | some code =>
    simp only [Option.elim_some, Outcome.shaped.injEq, Option.some.injEq]
    have noChecks : ((field first "checks" >>= Json.entries?).filter (!·.isEmpty)).map
        (fun checks => publicChecks (checks.map checkStatus)) = none ↔
          (checkStatuses first).getD [] = [] := by
      rw [checkStatuses]
      cases field first "checks" >>= Json.entries? with
      | none => simp
      | some entries => cases entries <;> simp
    constructor
    · intro same
      exact ⟨(congrArg (·.code) same).symm, (congrArg (·.title) same).symm,
        Option.some.inj (congrArg (·.instanceUrl) same), noChecks.mp (congrArg (·.checks) same)⟩
    · rintro ⟨rfl, title, instanceUrl, checks⟩
      rw [fallbackBody, if_pos server, title, instanceUrl]
      congr 1
      exact congrArg (ProblemDetailsBody.mk _ _ _ _ _ _ _ _ _) (noChecks.mpr checks)

/-- Payloads of a server error that have the same public part are sent as the same body just if
the hook treats them alike. -/
theorem sameBody_iff (environment : HookEnvironment) (request : RequestContext) {status : Nat}
    (server : 500 ≤ status) {first second : Payload}
    (firstRest : isGraphqlResponse request (parseSerializedError environment first) = false)
    (secondRest : isGraphqlResponse request (parseSerializedError environment second) = false)
    (same : SamePublic (parseSerializedError environment first)
      (parseSerializedError environment second)) :
    (onSend environment request status first).outcome =
        (onSend environment request status second).outcome ↔
      TreatedAlike request status (parseSerializedError environment first)
        (parseSerializedError environment second) := by
  simp only [onSend, TreatedAlike]
  cases firstDocument : isDocumentOf status (parseSerializedError environment first) with
  | true =>
    cases secondDocument : isDocumentOf status (parseSerializedError environment second) with
    | true =>
      rw [shapeError_document server firstRest firstDocument,
        shapeError_document server secondRest secondDocument, documentBody_congr server same]
      exact iff_of_true rfl trivial
    | false =>
      rw [shapeError_document server firstRest firstDocument,
        shapeError_fallback server secondRest secondDocument]
      exact plainBeside_iff server
  | false =>
    cases secondDocument : isDocumentOf status (parseSerializedError environment second) with
    | true =>
      rw [shapeError_fallback server firstRest firstDocument,
        shapeError_document server secondRest secondDocument, eq_comm]
      exact plainBeside_iff server
    | false =>
      rw [shapeError_fallback server firstRest firstDocument,
        shapeError_fallback server secondRest secondDocument]
      exact sameFallback_iff server

end

/-! ### Two payloads -/

def errorRequest : RequestContext where
  url := "/api/v1/users?page=2"
  routeUrl := some "/api/v1/users"
  inboundRequestId := none
  inboundCorrelationId := none
  requestId := some "4bf92f3577b34da6a3ce929d0e0e4736"
  correlationId := none
  replyRequestId := none
  replyCorrelationId := none

/-- The hook where `JSON.parse` reads one text as an object with these members. -/
def hookReading (parsed : List (String × List (String × Json))) : HookEnvironment where
  errorDocsBaseUrl := none
  timestamp := "2026-05-18T09:54:28.000Z"
  parseJson := fun serialized => (parsed.lookup serialized).map .object
  trustInboundRequestId := false
  activeTraceId := none
  generatedId := "00000000000000000000000000000000"

def untypedText (host : String) : String := "\x7b\"title\":\"no answer from " ++ host ++ "\"\x7d"

/-- Errors that no filter has shaped, each with a title that names a host. -/
def untypedErrors : HookEnvironment :=
  hookReading [
    (untypedText "db-1", [("title", .string "no answer from db-1")]),
    (untypedText "db-2", [("title", .string "no answer from db-2")])]

/-- The title of an error that is no problem document reaches the client. -/
theorem untypedErrors_shown :
    isGraphqlResponse errorRequest
        (parseSerializedError untypedErrors (.text (untypedText "db-1"))) = false ∧
      isGraphqlResponse errorRequest
        (parseSerializedError untypedErrors (.text (untypedText "db-2"))) = false ∧
      DifferInPrivate (parseSerializedError untypedErrors (.text (untypedText "db-1")))
        (parseSerializedError untypedErrors (.text (untypedText "db-2"))) ∧
      (onSend untypedErrors errorRequest 500 (.text (untypedText "db-1"))).outcome ≠
        (onSend untypedErrors errorRequest 500 (.text (untypedText "db-2"))).outcome := by
  refine ⟨by decide, by decide, ⟨?_, .inl rfl⟩, ?_⟩
  · intro name shown _
    have notTitle : (name == "title") = false := by
      rw [beq_eq_false_iff_ne]
      rintro rfl
      exact shown (by decide)
    have absent : ∀ title, field (some (.object [("title", title)])) name = none := by
      intro title
      simp [field, Json.get?, List.lookup_cons, notTitle]
    exact (absent _).trans (absent _).symm
  · intro same
    injection same with bodies
    exact absurd (congrArg (·.title) bodies) (by decide)

def documentText (host : String) : String :=
  "\x7b\"type\":\"about:blank\",\"status\":503,\"title\":\"no answer from " ++ host ++ "\"\x7d"

/-- Problem documents with titles that name a host. -/
def documents : HookEnvironment :=
  hookReading (["db-1", "db-2"].map fun host =>
    (documentText host, [("type", .string "about:blank"), ("status", .number 503),
      ("title", .string ("no answer from " ++ host))]))

theorem documents_sameBody :
    (onSend documents errorRequest 503 (.text (documentText "db-1"))).outcome =
      (onSend documents errorRequest 503 (.text (documentText "db-2"))).outcome :=
  (sameBody_iff documents errorRequest (by decide) (by decide) (by decide) ⟨by decide, rfl⟩).mpr
    trivial

end NestjsFastify.ErrorShaping
