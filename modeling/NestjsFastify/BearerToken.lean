import NestjsFastify.ScriptText

/-! # Keys and tokens of the `Authorization` header

A machine presents its API key as a bearer token.  The guard of the keys takes it out of the header
by itself, and everything else with `extractBearerToken`, which reads the scheme in any case.
-/
namespace NestjsFastify.Authorization
open ScriptText (trim codeUnits)

/-! ## Sources -/

def apiKeyPrefix : List Char := "sk_".toList

def apiKeyDisplayPrefixLength : Nat := codeUnits apiKeyPrefix + 8

def looksLikeApiKey (candidate : List Char) : Bool :=
  apiKeyPrefix.isPrefixOf candidate && decide (apiKeyDisplayPrefixLength < codeUnits candidate)

/-- `SCHEME`, which begins every header of the scheme in lower case. -/
def scheme : List Char := "bearer ".toList

def extractBearerToken (header : Option (List Char)) : Option (List Char) :=
  match header with
  | none => none
  | some value =>
      if (value.take scheme.length).map Char.toLower ≠ scheme then none
      else
        let token := trim (value.drop scheme.length)
        if token = [] then none else some token

def bearerPrefix : List Char := "Bearer ".toList

/-- `ApiKeyGuard.extractKey`, from the headers `x-api-key` and `authorization`. -/
def extractKey (fromHeader authorization : Option (List Char)) : Option (List Char) :=
  match fromHeader.filter looksLikeApiKey with
  | some key => some key
  | none =>
      match authorization with
      | none => none
      | some authorization =>
          if bearerPrefix.isPrefixOf authorization then
            let candidate := trim (authorization.drop bearerPrefix.length)
            if looksLikeApiKey candidate then some candidate else none
          else none

/-! ## Agreement -/

/-- The header has the scheme in some case. -/
def hasScheme (header : List Char) : Bool := (header.take scheme.length).map Char.toLower = scheme

/-- A header of the scheme with a key behind it spells the scheme `Bearer`. -/
def SpellsScheme (header : List Char) : Prop :=
  hasScheme header = true → looksLikeApiKey (trim (header.drop scheme.length)) = true →
    bearerPrefix <+: header

theorem length_bearerPrefix : bearerPrefix.length = scheme.length := by decide +kernel

/-- The spelling `Bearer` is one of the scheme. -/
theorem hasScheme_of_prefix {header : List Char} (starts : bearerPrefix <+: header) :
    hasScheme header = true := by
  obtain ⟨rest, rfl⟩ := starts
  have taken : (bearerPrefix ++ rest).take scheme.length = bearerPrefix :=
    List.take_left' length_bearerPrefix
  rw [hasScheme, taken]
  decide +kernel

/-- What is left of a bearer token when only keys are kept. -/
theorem filter_extractBearerToken (header : List Char) :
    (extractBearerToken (some header)).filter looksLikeApiKey =
      if hasScheme header then
        (some (trim (header.drop scheme.length))).filter looksLikeApiKey
      else none := by
  have found : extractBearerToken (some header) = if hasScheme header then
      (some (trim (header.drop scheme.length))).filter (· ≠ []) else none := by
    simp only [extractBearerToken, hasScheme, decide_eq_true_eq, Option.filter_some]
    by_cases lower : (header.take scheme.length).map Char.toLower = scheme
    · by_cases empty : trim (header.drop scheme.length) = [] <;> simp [lower, empty]
    · simp
  rw [found]
  split_ifs
  · by_cases empty : trim (header.drop scheme.length) = []
    · simp only [empty]
      decide +kernel
    · simp only [Option.filter_some, empty, ne_eq, not_false_eq_true, decide_true, if_true]
  · rfl

theorem extractKey_authorization (header : List Char) :
    extractKey none (some header) =
      if bearerPrefix <+: header then
        (some (trim (header.drop scheme.length))).filter looksLikeApiKey
      else none := by
  simp only [extractKey, Option.filter_none, List.isPrefixOf_iff_prefix, Option.filter_some,
    length_bearerPrefix]

/-- The guard and `extractBearerToken` find the same key in exactly the headers that spell the
scheme `Bearer`, if they have a key at all. -/
theorem extractKey_eq_iff (authorization : Option (List Char)) :
    extractKey none authorization = (extractBearerToken authorization).filter looksLikeApiKey ↔
      ∀ header ∈ authorization, SpellsScheme header := by
  cases authorization with
  | none => simp [extractKey, extractBearerToken]
  | some header =>
    rw [extractKey_authorization, filter_extractBearerToken]
    simp only [Option.mem_some_iff, forall_eq', SpellsScheme]
    by_cases starts : bearerPrefix <+: header
    · simp [starts, hasScheme_of_prefix starts]
    · by_cases schemed : hasScheme header = true
      · cases keyed : looksLikeApiKey (trim (header.drop scheme.length)) <;>
          simp [starts, schemed, keyed, Option.filter]
      · simp [starts, schemed]

/-- A key that is presented with the scheme in lower case is a token and no key. -/
theorem lowerCase_differs :
    extractKey none (some "bearer sk_0123456789".toList) = none ∧
      extractBearerToken (some "bearer sk_0123456789".toList) = some "sk_0123456789".toList ∧
      looksLikeApiKey "sk_0123456789".toList = true := by
  decide +kernel

end NestjsFastify.Authorization
