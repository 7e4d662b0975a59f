import NestjsFastify.Json
import NestjsFastify.ScriptText

/-! # Problem documents

The body of an error response: a type, a title and a code that follow from the status or the
failure, the path of the request and its id, and the fields that a failure may add.
-/
namespace NestjsFastify.ProblemDetails

/-! ### Titles and codes of a status -/

def httpStatusTitles : List (Nat × String) :=
  [(400, "Bad Request"), (401, "Unauthorized"), (403, "Forbidden"), (404, "Not Found"),
   (405, "Method Not Allowed"), (409, "Conflict"), (413, "Payload Too Large"),
   (415, "Unsupported Media Type"), (422, "Unprocessable Entity"), (429, "Too Many Requests"),
   (408, "Request Timeout"), (500, "Internal Server Error"), (501, "Not Implemented"),
   (502, "Bad Gateway"), (503, "Service Unavailable"), (504, "Gateway Timeout")]

def httpStatusCodes : List (Nat × String) :=
  [(400, "bad_request"), (401, "unauthorized"), (403, "forbidden"), (404, "not_found"),
   (405, "method_not_allowed"), (409, "conflict"), (413, "payload_too_large"),
   (415, "unsupported_media_type"), (422, "unprocessable_entity"), (429, "rate_limited"),
   (500, "internal_server_error"), (503, "service_unavailable"), (504, "request_timeout"),
   (408, "request_timeout"), (501, "not_implemented"), (502, "service_unavailable")]

/-- `STATUS_CODES` of Node, for the statuses of errors. -/
def nodeStatusCodes : List (Nat × String) :=
  [(400, "Bad Request"), (401, "Unauthorized"), (402, "Payment Required"), (403, "Forbidden"),
   (404, "Not Found"), (405, "Method Not Allowed"), (406, "Not Acceptable"),
   (407, "Proxy Authentication Required"), (408, "Request Timeout"), (409, "Conflict"),
   (410, "Gone"), (411, "Length Required"), (412, "Precondition Failed"),
   (413, "Payload Too Large"), (414, "URI Too Long"), (415, "Unsupported Media Type"),
   (416, "Range Not Satisfiable"), (417, "Expectation Failed"), (418, "I'm a Teapot"),
   (421, "Misdirected Request"), (422, "Unprocessable Entity"), (423, "Locked"),
   (424, "Failed Dependency"), (425, "Too Early"), (426, "Upgrade Required"),
   (428, "Precondition Required"), (429, "Too Many Requests"),
   (431, "Request Header Fields Too Large"), (451, "Unavailable For Legal Reasons"),
   (500, "Internal Server Error"), (501, "Not Implemented"), (502, "Bad Gateway"),
   (503, "Service Unavailable"), (504, "Gateway Timeout"), (505, "HTTP Version Not Supported"),
   (506, "Variant Also Negotiates"), (507, "Insufficient Storage"), (508, "Loop Detected"),
   (509, "Bandwidth Limit Exceeded"), (510, "Not Extended"),
   (511, "Network Authentication Required")]

def statusTitle (status : Nat) : String :=
  ((httpStatusTitles.lookup status).or (nodeStatusCodes.lookup status)).getD "Error"

def statusCode (status : Nat) : String :=
  (httpStatusCodes.lookup status).getD
    (if 500 ≤ status then "internal_server_error" else "bad_request")

/-! ### Addresses -/

/-- The text up to the first `?` or `#`. -/
def sanitizeUrlForLogging (value : String) : String :=
  String.ofList (value.toList.takeWhile fun character => character ≠ '?' ∧ character ≠ '#')

def errorTypeSlug (code : String) : String := code.map fun character =>
  if character = '_' then '-' else character

/-- The address of the documentation of a code, below `ERROR_DOCS_BASE_URL` or `/errors`. -/
def errorTypeUrl (errorDocsBaseUrl : Option String) (code : String) : String :=
  let base := match ScriptText.trim (errorDocsBaseUrl.getD "").toList with
    | [] => "/errors".toList
    | base => base
  String.ofList (base.rdropWhile (· = '/')) ++ "/" ++ errorTypeSlug code

/-! ### The body -/

structure ValidationErrorItem where
  path : String
  code : String
  message : String
  messageKey : Option String
  rule : Option String
  constraint : Option (List (String × Json))

structure ProblemDetailsArgs where
  status : Nat
  title : String
  detail : Option Json := none
  code : String
  instanceUrl : Option String := none
  requestId : Option String := none
  errors : Option (List Json) := none
  checks : Option Json := none

structure ProblemDetailsBody where
  type : String
  title : String
  status : Nat
  detail : Option Json
  instanceUrl : Option String
  code : String
  requestId : Option String
  timestamp : String
  errors : Option (List ValidationErrorItem)
  checks : Option (List (String × String))

/-- The fields of a violation that are passed on, if the three that it needs are texts. -/
def validationErrorItem (item : Json) : Option ValidationErrorItem := do
  let path ← item.get? "path" >>= Json.string?
  let code ← item.get? "code" >>= Json.string?
  let message ← item.get? "message" >>= Json.string?
  some { path, code, message
         messageKey := item.get? "messageKey" >>= Json.string?
         rule := item.get? "rule" >>= Json.string?
         constraint := item.get? "constraint" >>= Json.object? }

/-- The name and the status of a health check. -/
def checkStatus (check : String × Json) : String × Option String :=
  (check.1, check.2.get? "status" >>= Json.string?)

/-- The checks whose status is a text, without their messages. -/
def publicChecks (statuses : List (String × Option String)) : List (String × String) :=
  statuses.filterMap fun (name, status) => status.map fun status => (name, status)

/-- The environment of the process: its settings, and the present time. -/
structure Environment where
  errorDocsBaseUrl : Option String
  timestamp : String

def buildProblemDetails (environment : Environment) (args : ProblemDetailsArgs) :
    ProblemDetailsBody where
  type := errorTypeUrl environment.errorDocsBaseUrl args.code
  title := args.title
  status := args.status
  detail := args.detail
  instanceUrl := args.instanceUrl
  code := args.code
  requestId := args.requestId
  timestamp := environment.timestamp
  errors := (args.errors.map (·.filterMap validationErrorItem)).filter (· ≠ [])
  checks := ((args.checks >>= Json.entries?).filter (!·.isEmpty)).map fun checks =>
    publicChecks (checks.map checkStatus)

/-- Checks with the same names and statuses make the same body, whatever their messages are. -/
theorem buildProblemDetails_congr (environment : Environment) (args : ProblemDetailsArgs)
    {checks : Option Json} (same : (checks >>= Json.entries?).map (·.map checkStatus) =
      (args.checks >>= Json.entries?).map (·.map checkStatus)) :
    buildProblemDetails environment { args with checks } =
      buildProblemDetails environment args := by
  have filtered : ∀ entries : Option (List (String × Json)),
      ((entries.filter (!·.isEmpty)).map fun checks => publicChecks (checks.map checkStatus)) =
        ((entries.map (·.map checkStatus)).filter (!·.isEmpty)).map publicChecks := by
    intro entries
    cases entries with
    | none => rfl
    | some entries => cases entries <;> rfl
  simp only [buildProblemDetails, filtered, same]

end NestjsFastify.ProblemDetails
