import NestjsFastify.ScriptText
import NestjsFastify.TextReplacement

/-! # Redaction of rendered log texts

Six replacements one after another: passwords in URLs, bearer tokens, values of query parameters,
members of JSON objects, bare assignments, and e-mail addresses.
-/
namespace NestjsFastify.LoggerRedact
open BacktrackingRegex TextReplacement
open ScriptText (isBlank)

/-- `SENSITIVE_REDACT_CENSOR` -/
def censor : List Char := "[REDACTED]".toList

/-! ### Character classes -/

/-- `[^:/\s]` -/
def isUser (character : Char) : Bool :=
  character != ':' && character != '/' && !isBlank character

/-- `[^@\s]` -/
def isPassword (character : Char) : Bool := character != '@' && !isBlank character

/-- `[A-Za-z0-9._~+/=-]` -/
def isToken (character : Char) : Bool :=
  character.isAlphanum || character ∈ ['.', '_', '~', '+', '/', '=', '-']

/-- `[^&#\s]` -/
def isValue (character : Char) : Bool :=
  character != '&' && character != '#' && !isBlank character

/-- `[^\s,;]` -/
def isBare (character : Char) : Bool :=
  !isBlank character && character != ',' && character != ';'

/-- `[:=]` -/
def isSeparator (character : Char) : Bool := character = ':' || character = '='

/-- `.` -/
def isAny (character : Char) : Bool := !character.toNat ∈ [0x0A, 0x0D, 0x2028, 0x2029]

/-! ### Names of secrets -/

/-- `api[-_]?key` -/
def apiKey : Regex :=
  .sequence [.caseless "api".toList, .optional (.char (· ∈ ['-', '_'])), .caseless "key".toList]

/-- `SENSITIVE_TEXT_KEYS` -/
def sensitiveTextKeys : Regex :=
  .choice [.caseless "access_token".toList, .caseless "refresh_token".toList,
    .caseless "session_token".toList, .caseless "token".toList, .caseless "secret".toList,
    .caseless "password".toList, apiKey]

/-- The parameters whose values are redacted. -/
def sensitiveQueryKeys : Regex :=
  .choice [.caseless "access_token".toList, .caseless "refresh_token".toList,
    .caseless "session_token".toList, .caseless "token".toList, .caseless "code".toList,
    .caseless "secret".toList, .caseless "password".toList, apiKey, .caseless "email".toList]

/-! ### The replacements -/

/-- `$1` and so on; a group that captured nothing is empty. -/
def captured (groups : List (List Char)) (group : Nat) : List Char := groups.getD (group - 1) []

/-- `:\/\/([^:/\s]+):([^@\s]+)@` by `://$1:[REDACTED]@` -/
def urlPassword : Rule where
  regex := .sequence [.literal "://".toList, .group (.plus (.char isUser)), .literal [':'],
    .group (.plus (.char isPassword)), .literal ['@']]
  render _ groups := "://".toList ++ captured groups 1 ++ ':' :: censor ++ ['@']
  solid := rfl

/-- `\bBearer\s+[A-Za-z0-9._~+/=-]+` by `Bearer [REDACTED]` -/
def bearerToken : Rule where
  regex := .sequence [.boundary, .caseless "Bearer".toList, .plus (.char isBlank), .char isToken,
    .star (.char isToken)]
  render _ _ := "Bearer ".toList ++ censor
  solid := rfl

/-- `([?&](?:…)=)[^&#\s]*` by `$1[REDACTED]` -/
def queryValue : Rule where
  regex := .sequence [.group (.sequence [.char (· ∈ ['?', '&']), sensitiveQueryKeys,
    .literal ['=']]), .star (.char isValue)]
  render _ groups := captured groups 1 ++ censor
  solid := rfl

/-- `(?:[^"\\]|\\.)*` -/
def stringBody : Regex :=
  .star (.alt (.char fun character => character != '"' && character != '\\')
    (.seq (.char (· = '\\')) (.char isAny)))

/-- `JSON_SENSITIVE_MEMBER` by `$1"[REDACTED]"` -/
def jsonSensitiveMember : Rule where
  regex := .sequence [.group (.sequence [.literal ['"'], sensitiveTextKeys, .literal ['"'],
    .star (.char isBlank), .literal [':'], .star (.char isBlank)]), .literal ['"'], stringBody,
    .literal ['"']]
  render _ groups := captured groups 1 ++ '"' :: censor ++ ['"']
  solid := rfl

def redactAfterFirstSeparator (matched : List Char) : List Char :=
  (match matched.findIdx? isSeparator with
  | some separatorAt => matched.take (separatorAt + 1)
  | none => []) ++ censor

/-- `BARE_SENSITIVE_ASSIGNMENT` -/
def bareSensitiveAssignment : Rule where
  regex := .sequence [.boundary, sensitiveTextKeys, .star (.char isBlank), .char isSeparator,
    .star (.char isBlank), .char isBare, .star (.char isBare)]
  render matched _ := redactAfterFirstSeparator matched
  solid := rfl

/-- `\b[A-Za-z0-9._%+-]+@[A-Za-z0-9.-]+\.[A-Za-z]{2,}\b` by `[REDACTED_EMAIL]` -/
def emailAddress : Rule where
  regex := .sequence [.boundary,
    .plus (.char fun character => character.isAlphanum || character ∈ ['.', '_', '%', '+', '-']),
    .literal ['@'], .plus (.char fun character => character.isAlphanum || character ∈ ['.', '-']),
    .literal ['.'], .twice (.char Char.isAlpha), .boundary]
  render _ _ := "[REDACTED_EMAIL]".toList
  solid := rfl

def sanitizeSensitiveText (value : List Char) : List Char :=
  [urlPassword, bearerToken, queryValue, jsonSensitiveMember, bareSensitiveAssignment,
    emailAddress].foldl (fun text rule => rule.replaceAll text) value

end NestjsFastify.LoggerRedact
