import NestjsFastify.ProblemDetails
import NestjsFastify.Utf8Decoding

/-! # Error bodies on their way out

A hook rewrites the body of every error response before it is sent.  Of a problem document it
copies fields that are safe for the status; any other body becomes a new document.  For a server
error neither should show what the failure said.
-/
namespace NestjsFastify.ErrorShaping
open ProblemDetails

/-! ### Request ids -/

/-- The request and the headers of its reply, as far as the hook reads them. -/
structure RequestContext where
  url : String
  routeUrl : Option String
  inboundRequestId : Option String
  inboundCorrelationId : Option String
  requestId : Option String
  correlationId : Option String
  replyRequestId : Option String
  replyCorrelationId : Option String

/-- The environment of the hook; `JSON.parse` gives nothing where it throws. -/
structure HookEnvironment extends Environment where
  parseJson : String → Option Json
  trustInboundRequestId : Bool
  activeTraceId : Option String
  generatedId : String

/-- `/^[A-Za-z0-9._~-]{1,128}$/` -/
def isSafeClientId (value : String) : Bool :=
  1 ≤ value.length && value.length ≤ 128 &&
    value.toList.all fun character => character.isAlphanum || character ∈ ['.', '_', '~', '-']

def sanitizeClientId (value : Option String) : Option String := value.filter isSafeClientId

def resolveRequestId (environment : HookEnvironment) (request : RequestContext) : String :=
  let inbound :=
    if environment.trustInboundRequestId then sanitizeClientId request.inboundRequestId else none
  (inbound.or environment.activeTraceId).getD environment.generatedId

/-- The ids on the request, those on the reply, or new ones. -/
def requestIdOf (environment : HookEnvironment) (request : RequestContext) : String :=
  (request.requestId.or (sanitizeClientId request.replyRequestId)).getD
    (resolveRequestId environment request)

def correlationIdOf (environment : HookEnvironment) (request : RequestContext) : String :=
  (request.correlationId.or (sanitizeClientId request.replyCorrelationId)).getD
    ((sanitizeClientId request.inboundCorrelationId).getD (requestIdOf environment request))

/-! ### The payload -/

inductive Payload where
  | text (serialized : String)
  | buffer (bytes : List UInt8)
  | other

/-- The object or the array that is serialized in the payload. -/
def parseSerializedError (environment : HookEnvironment) (payload : Payload) : Option Json :=
  let serialized := match payload with
    | .text serialized => serialized
    | .buffer bytes => String.ofList (Utf8Decoding.decode bytes)
    | .other => ""
  if serialized = "" then none
  else (environment.parseJson serialized).filter fun parsed => parsed.entries?.isSome

/-- `source?.[name]` -/
def field (source : Option Json) (name : String) : Option Json := source >>= (·.get? name)

def textField (source : Option Json) (name : String) : Option String :=
  field source name >>= Json.string?

def isGraphqlErrorEnvelope (source : Option Json) : Bool :=
  match field source "errors" with
  | some (.array _) => true
  | _ => false

/-- The errors of the GraphQL server, which the hook leaves alone. -/
def isGraphqlResponse (request : RequestContext) (source : Option Json) : Bool :=
  request.routeUrl = some "/graphql" && isGraphqlErrorEnvelope source

def isProblemDetailsShape (source : Option Json) : Bool :=
  (match field source "status" with
    | some (.number status) => 400 ≤ status && status < 600
    | _ => false) &&
  (textField source "title").isSome && (textField source "type").isSome

/-- A problem document with the status of the response. -/
def isDocumentOf (status : Nat) (source : Option Json) : Bool :=
  isProblemDetailsShape source &&
    match field source "status" with
    | some (.number number) => number = status
    | _ => false

/-! ### The hook -/

def fastifyCodeToErrorCode : List (String × String) :=
  [("FST_ERR_CTP_INVALID_JSON_BODY", "bad_request"),
   ("FST_ERR_CTP_EMPTY_JSON_BODY", "bad_request"),
   ("FST_ERR_CTP_INVALID_MEDIA_TYPE", "unsupported_media_type"),
   ("FST_ERR_CTP_INVALID_CONTENT_LENGTH", "bad_request"),
   ("FST_ERR_CTP_BODY_TOO_LARGE", "payload_too_large"),
   ("FST_ERR_VALIDATION", "validation_failed")]

/-- What every object inherits; none of it is a text. -/
def inheritedMembers : List String :=
  ["constructor", "hasOwnProperty", "isPrototypeOf", "propertyIsEnumerable", "toLocaleString",
   "toString", "valueOf", "__proto__", "__defineGetter__", "__defineSetter__",
   "__lookupGetter__", "__lookupSetter__"]

/-- The code for the client, or nothing if an inherited member is found instead of a code. -/
def resolveFastifyCode (code : Option String) (status : Nat) : Option String :=
  match code with
  | none => some (statusCode status)
  | some code =>
      match fastifyCodeToErrorCode.lookup code with
      | some mapped => some mapped
      | none => if code ∈ inheritedMembers then none else some (statusCode status)

structure ShapedBody extends ProblemDetailsBody where
  retryAfter : Option ℚ := none

/-- The payload stays, it is replaced, or the hook throws. -/
inductive Outcome where
  | untouched
  | shaped (body : ShapedBody)
  | failed

/-- The body for a problem document. -/
def documentBody (environment : HookEnvironment) (request : RequestContext) (status : Nat)
    (source : Option Json) : ShapedBody :=
  let sourceTitle := (textField source "title").getD ""
  let title := if 500 ≤ status then statusTitle status else sourceTitle
  { buildProblemDetails environment.toEnvironment {
      status, title
      detail := if 500 ≤ status then some (.string title) else field source "detail"
      code := if status < 500 then (textField source "code").getD (statusCode status)
        else statusCode status
      instanceUrl := some (sanitizeUrlForLogging ((textField source "instance").getD request.url))
      requestId := some (requestIdOf environment request)
      errors := match field source "errors" with
        | some (.array items) => if status < 500 then some items else none
        | _ => none
      checks := if 500 ≤ status then field source "checks" else none } with
    retryAfter := match field source "retryAfter" with
      | some (.number seconds) => if status < 500 then some seconds else none
      | _ => none }

/-- `typeof source?.[name] === 'string' && source[name]`, if that is not empty. -/
def nonemptyField (source : Option Json) (name : String) : Option String :=
  (textField source name).filter (· ≠ "")

def fallbackCode (status : Nat) (source : Option Json) : Option String :=
  let rawCode := nonemptyField source "code"
  match rawCode with
  | some code =>
      if status < 500 ∧ !"FST_".toList.isPrefixOf code.toList then some code
      else resolveFastifyCode rawCode status
  | none => resolveFastifyCode rawCode status

def fallbackTitle (status : Nat) (source : Option Json) : String :=
  ((nonemptyField source "title").or (nonemptyField source "error")).getD (statusTitle status)

/-- The body for anything else. -/
def fallbackBody (environment : HookEnvironment) (request : RequestContext) (status : Nat)
    (source : Option Json) (code : String) : ShapedBody :=
  let title := fallbackTitle status source
  let rawDetail :=
    ((nonemptyField source "detail").or (nonemptyField source "message")).getD title
  { buildProblemDetails environment.toEnvironment {
      status, title, code
      detail := some (.string (if 500 ≤ status then title
        else if (nonemptyField source "type").isSome then rawDetail else title))
      instanceUrl := some (sanitizeUrlForLogging request.url)
      requestId := some (requestIdOf environment request) } with }

/-- What becomes of the payload. -/
def shapeError (environment : HookEnvironment) (request : RequestContext) (status : Nat)
    (source : Option Json) : Outcome :=
  if status < 400 then .untouched
  else if isGraphqlResponse request source then .untouched
  else if isDocumentOf status source then .shaped (documentBody environment request status source)
  else
    match fallbackCode status source with
    | none => .failed
    | some code => .shaped (fallbackBody environment request status source code)

/-- What is sent: the ids in the headers, the content type if the hook sets it, and the payload. -/
structure Sent where
  requestIdHeader : String
  correlationIdHeader : String
  contentType : Option String
  outcome : Outcome

/-- The hook of `applyFastifyProblemDetailsHook`. -/
def onSend (environment : HookEnvironment) (request : RequestContext) (status : Nat)
    (payload : Payload) : Sent :=
  let source := parseSerializedError environment payload
  { requestIdHeader := (request.replyRequestId.filter (· ≠ "")).getD
      (requestIdOf environment request)
    correlationIdHeader := (request.replyCorrelationId.filter (· ≠ "")).getD
      (correlationIdOf environment request)
    contentType :=
      if status < 400 ∨ isGraphqlResponse request source then none
      else some "application/problem+json"
    outcome := shapeError environment request status source }

end NestjsFastify.ErrorShaping
