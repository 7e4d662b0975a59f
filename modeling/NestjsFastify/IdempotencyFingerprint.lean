import NestjsFastify.JsonMembers

/-! # Keys and fingerprints of idempotent requests

A request is recorded under the hash of its principal and its idempotency key.  It is told from
other requests with the key by the hash of its method, URL and payload.
-/
namespace NestjsFastify.IdempotencyFingerprint
open NumberText (Decimal)
open QuotedText (Text ascii wellFormed wellFormed_append wellFormed_cons wellFormed_of_plain
  plain_of_lt)
open JsonText JsonMembers

/-! ## Bodies -/

/-- A number of a parsed body; one beyond the largest double is infinite. -/
inductive Double where
  | finite (value : Decimal)
  | infinite (negative : Bool)
  deriving DecidableEq

/-- A parsed body; the parser leaves one member for each key. -/
structure Body where
  value : Value Double
  distinct : Distinct value

mutual

/-- `canonicalize`; the entries are sorted by their keys, which it does not change. -/
def canonicalize {Number : Type} : Value Number → Value Number
  | .null => .null
  | .bool value => .bool value
  | .number value => .number value
  | .string text => .string text
  | .array items => .array (canonicalizeItems items)
  | .object members => .object (fromEntries (sortEntries (canonicalizeMembers members)))

def canonicalizeItems {Number : Type} : List (Value Number) → List (Value Number)
  | [] => []
  | item :: items => canonicalize item :: canonicalizeItems items

def canonicalizeMembers {Number : Type} :
    List (Text × Value Number) → List (Text × Value Number)
  | [] => []
  | (key, value) :: members => (key, canonicalize value) :: canonicalizeMembers members

end

example : canonicalize (.array [.bool true, .number 1]) = .array [.bool true, .number 1] := by
  simp [canonicalize, canonicalizeItems]

/-- An infinite number is written `null`. -/
def serialized : Double → Value Decimal
  | .finite value => .number value
  | .infinite _ => .null

/-- `JSON.stringify` -/
def stringify (value : Value Double) : Text := print (withNumbers serialized value)

section
variable {Number : Type}

theorem canonicalizeItems_eq (items : List (Value Number)) :
    canonicalizeItems items = items.map canonicalize := by
  induction items with
  | nil => rw [canonicalizeItems, List.map_nil]
  | cons item items ih => rw [canonicalizeItems, ih, List.map_cons]

theorem canonicalizeMembers_eq (members : List (Text × Value Number)) :
    canonicalizeMembers members = members.map (Prod.map id canonicalize) := by
  induction members with
  | nil => rw [canonicalizeMembers, List.map_nil]
  | cons member members ih => rw [canonicalizeMembers, ih, List.map_cons, Prod.map, id]

/-- Numbers can be written before or after the members are put in order. -/
theorem canonicalize_withNumbers {Other : Type} (write : Number → Value Other)
    (scalar : ∀ number, canonicalize (write number) = write number) (value : Value Number) :
    canonicalize (withNumbers write value) = withNumbers write (canonicalize value) := by
  induction value using Value.induct with
  | null => rw [withNumbers, canonicalize, canonicalize, withNumbers]
  | bool value => rw [withNumbers, canonicalize, canonicalize, withNumbers]
  | number value => rw [withNumbers, scalar, canonicalize, withNumbers]
  | string text => rw [withNumbers, canonicalize, canonicalize, withNumbers]
  | array items ih =>
    rw [withNumbers, canonicalize, canonicalize, withNumbers, canonicalizeItems_eq, withItems_eq,
      canonicalizeItems_eq, withItems_eq, List.map_map, List.map_map]
    exact congrArg Value.array (List.map_congr_left ih)
  | object members ih =>
    have swapped : (members.map (Prod.map id (withNumbers write))).map (Prod.map id canonicalize) =
        (members.map (Prod.map id canonicalize)).map (Prod.map id (withNumbers write)) := by
      rw [List.map_map, List.map_map]
      refine List.map_congr_left fun member own => ?_
      exact congrArg (Prod.mk member.1) (ih member own)
    rw [withNumbers, canonicalize, canonicalize, withNumbers, canonicalizeMembers_eq,
      withMembers_eq, canonicalizeMembers_eq, withMembers_eq, swapped, fromEntries_sortEntries_map]

/-! ## The canonical form -/

/-- The values with the canonical form of this one are those that it is the same as. -/
def Determined (value : Value Number) : Prop :=
  ∀ {other : Value Number}, Distinct other →
    (canonicalize value = canonicalize other ↔ Same value other)

theorem canonicalizeItems_eq_iff {items others : List (Value Number)}
    (determined : ∀ item ∈ items, Determined item) (distinct : DistinctItems others) :
    canonicalizeItems items = canonicalizeItems others ↔ SameItems items others := by
  induction items generalizing others with
  | nil =>
    cases others with
    | nil => exact ⟨fun _ => .nil, fun _ => rfl⟩
    | cons other others =>
      constructor
      · intro same
        cases same
      · rintro ⟨⟩
  | cons item items ih =>
    obtain ⟨first, rest⟩ := List.forall_mem_cons.mp determined
    cases others with
    | nil =>
      constructor
      · intro same
        cases same
      · rintro ⟨⟩
    | cons other others =>
      rw [canonicalizeItems, canonicalizeItems, List.cons.injEq, first distinct.1,
        ih rest distinct.2]
      constructor
      · exact fun ⟨here, same⟩ => .cons here same
      · rintro (_ | ⟨here, same⟩)
        exact ⟨here, same⟩

theorem canonicalizeMembers_eq_iff {members others : List (Text × Value Number)}
    (determined : ∀ member ∈ members, Determined member.2) (distinct : DistinctMembers others) :
    canonicalizeMembers members = canonicalizeMembers others ↔ SameMembers members others := by
  induction members generalizing others with
  | nil =>
    cases others with
    | nil => exact ⟨fun _ => .nil, fun _ => rfl⟩
    | cons other others =>
      constructor
      · intro same
        cases same
      · rintro ⟨⟩
  | cons member members ih =>
    obtain ⟨key, value⟩ := member
    obtain ⟨first, rest⟩ := List.forall_mem_cons.mp determined
    rcases others with _ | ⟨⟨other, otherValue⟩, others⟩
    · constructor
      · intro same
        cases same
      · rintro ⟨⟩
    · rw [canonicalizeMembers, canonicalizeMembers, List.cons.injEq, Prod.mk.injEq,
        first distinct.1, ih rest distinct.2]
      constructor
      · rintro ⟨⟨rfl, here⟩, same⟩
        exact .cons here same
      · rintro (_ | ⟨here, same⟩)
        exact ⟨⟨rfl, here⟩, same⟩

/-- The members of two objects have the same canonical order when they are permuted. -/
theorem canonicalize_object_eq_iff {members others : List (Text × Value Number)}
    (keys : (members.map Prod.fst).Nodup) (determined : ∀ member ∈ members, Determined member.2)
    (distinct : DistinctMembers others) :
    canonicalize (.object members) = canonicalize (.object others) ↔
      Same (.object members) (.object others) := by
  have ownKeys : ((canonicalizeMembers members).map Prod.fst).Nodup := by
    rw [canonicalizeMembers_eq, List.map_map]
    exact keys
  have permuted : (canonicalizeMembers members).Perm (canonicalizeMembers others) ↔
      ∃ reordered, canonicalizeMembers members = canonicalizeMembers reordered ∧
        reordered.Perm others := by
    simp only [canonicalizeMembers_eq]
    exact iff_of_eq (congrFun (congrFun (List.eq_map_comp_perm _).symm _) _)
  rw [canonicalize, canonicalize, Value.object.injEq, fromEntries_sortEntries_eq_iff ownKeys,
    permuted]
  constructor
  · rintro ⟨reordered, same, order⟩
    have distinctReordered : DistinctMembers reordered := by
      rw [distinctMembers_iff] at distinct ⊢
      exact fun member own => distinct member (order.mem_iff.mp own)
    exact .object ((canonicalizeMembers_eq_iff determined distinctReordered).mp same) order
  · intro same
    cases same with
    | object same order =>
      rename_i reordered
      have distinctReordered : DistinctMembers reordered := by
        rw [distinctMembers_iff] at distinct ⊢
        exact fun member own => distinct member (order.mem_iff.mp own)
      exact ⟨reordered, (canonicalizeMembers_eq_iff determined distinctReordered).mpr same, order⟩

/-- Values have one canonical form exactly when they are the same up to the order of members. -/
theorem determined (value : Value Number) (distinct : Distinct value) : Determined value := by
  induction value using Value.induct with
  | null | bool value | number value | string text =>
    intro other _
    constructor
    · intro same
      rw [canonicalize.eq_def, canonicalize.eq_def] at same
      cases other <;> cases same
      exact same_refl _
    · rintro ⟨⟩
      rfl
  | array items ih =>
    intro other distinctOther
    rw [Distinct, distinctItems_iff] at distinct
    have own : ∀ item ∈ items, Determined item :=
      fun item member => ih item member (distinct item member)
    cases other with
    | array others =>
      rw [canonicalize, canonicalize, Value.array.injEq, canonicalizeItems_eq_iff own distinctOther]
      constructor
      · exact .array
      · rintro ⟨⟩
        assumption
    | _ =>
      constructor
      · intro same
        simp only [canonicalize, reduceCtorEq] at same
      · rintro ⟨⟩
  | object members ih =>
    intro other distinctOther
    rw [Distinct, distinctMembers_iff] at distinct
    cases other with
    | object others =>
      exact canonicalize_object_eq_iff distinct.1
        (fun member own => ih member own (distinct.2 member own)) distinctOther.2
    | _ =>
      constructor
      · intro same
        simp only [canonicalize, reduceCtorEq] at same
      · rintro ⟨⟩

end

/-! ## Keys of records -/

structure AuthenticatedApiKey where
  apiKeyId : Text
  organizationId : Text
  deriving DecidableEq

structure AuthenticatedSession where
  sessionId : Text
  userId : Text
  organizationId : Option Text
  deriving DecidableEq

/-- What the guards put on a request. -/
structure Stamps where
  apiKey : Option AuthenticatedApiKey
  user : Option AuthenticatedSession

/-- The identifying fields of a principal. -/
inductive Principal where
  | apiKey (key : AuthenticatedApiKey)
  | session (session : AuthenticatedSession)
  deriving DecidableEq

/-- The principal of a request; an API key comes first. -/
def Stamps.principal (stamps : Stamps) : Option Principal :=
  match stamps.apiKey with
  | some key => some (.apiKey key)
  | none => stamps.user.map .session

/-- A text, or `null` without one. -/
def textOrNull : Option Text → Value Double
  | some text => .string text
  | none => .null

def extractPrincipal (stamps : Stamps) : Option Text :=
  match stamps.apiKey with
  | some key =>
      some (stringify (.array
        [.string (ascii "api-key"), .string key.apiKeyId, .string key.organizationId]))
  | none =>
      match stamps.user with
      | some user =>
          some (stringify (.array [.string (ascii "session"), .string user.sessionId,
            .string user.userId, textOrNull user.organizationId]))
      | none => none

/-- `storeKey`; a request without a principal has none. -/
def storeKey (sha256 : Text → Text) (stamps : Stamps) (key : Text) : Option Text :=
  (extractPrincipal stamps).map fun principal =>
    ascii "idem:" ++ sha256 (stringify (.array [.string principal, .string key]))

/-! ## Fingerprints -/

/-- `MUTATING_METHODS` -/
inductive Method where
  | post
  | put
  | patch
  | delete
  deriving DecidableEq

def Method.text : Method → Text
  | .post => ascii "POST"
  | .put => ascii "PUT"
  | .patch => ascii "PATCH"
  | .delete => ascii "DELETE"

/-- The URL of a request, decoded byte by byte. -/
structure Url where
  text : Text
  bytes : ∀ unit ∈ text, unit < 256
  deriving DecidableEq

/-- A prepared file. -/
structure UploadedFile where
  digest : Text
  contentType : Text
  size : Decimal
  deriving DecidableEq

inductive Payload where
  | multipart (files : List UploadedFile)
  | json (body : Option Body)

structure Request where
  method : Method
  url : Url
  payload : Payload

/-- The body, or `null` without one. -/
def bodyValue (body : Option Body) : Value Double := (body.map Body.value).getD .null

def UploadedFile.value (file : UploadedFile) : Value Double :=
  .object [(ascii "digest", .string file.digest), (ascii "contentType", .string file.contentType),
    (ascii "size", .number (.finite file.size))]

/-- The text whose hash is the fingerprint. -/
def fingerprintText (request : Request) : Text :=
  match request.payload with
  | .multipart files =>
      stringify (.array [.string request.method.text, .string request.url.text,
        .array (files.map UploadedFile.value)])
  | .json body =>
      request.method.text ++ 10 :: (request.url.text ++ 10 ::
        stringify (canonicalize (bodyValue body)))

/-- `buildFingerprint` -/
def buildFingerprint (sha256 : Text → Text) (request : Request) : Text :=
  sha256 (fingerprintText request)

/-! ## What the texts determine -/

theorem canonicalize_serialized (number : Double) :
    canonicalize (serialized number) = serialized number := by
  cases number <;> rw [serialized, canonicalize]

theorem distinct_serialized (number : Double) : Distinct (serialized number) := by
  cases number <;> trivial

theorem distinct_bodyValue (body : Option Body) : Distinct (bodyValue body) := by
  cases body with
  | none => trivial
  | some body => exact body.distinct

/-- The canonical text of a body tells it up to the order of members and what is written `null`. -/
theorem stringify_canonicalize_eq_iff {value other : Value Double} (distinct : Distinct value)
    (distinctOther : Distinct other) :
    stringify (canonicalize value) = stringify (canonicalize other) ↔
      Same (withNumbers serialized value) (withNumbers serialized other) := by
  rw [stringify, stringify, print_injective.eq_iff,
    ← canonicalize_withNumbers serialized canonicalize_serialized,
    ← canonicalize_withNumbers serialized canonicalize_serialized]
  exact determined _ (distinct_withNumbers serialized distinct_serialized value distinct)
    (distinct_withNumbers serialized distinct_serialized other distinctOther)

theorem Method.text_injective : Function.Injective Method.text := by
  intro method other same
  cases method <;> cases other <;> first | rfl | cases same

/-- A method is a word of capital letters. -/
theorem Method.text_units (method : Method) :
    ∀ unit ∈ method.text, 65 ≤ unit ∧ unit < 91 := by
  cases method <;> decide

/-- What precedes a mark that it does not contain is told from what follows it. -/
theorem append_mark_inj {mark : Nat} {first second tail otherTail : Text} (own : mark ∉ first)
    (other : mark ∉ second) (same : first ++ mark :: tail = second ++ mark :: otherTail) :
    first = second ∧ tail = otherTail := by
  have taken {text : Text} (apart : mark ∉ text) (tail : Text) :
      (text ++ mark :: tail).takeWhile (fun unit => decide (unit ≠ mark)) = text :=
    (NumberText.span_mark (fun unit => decide (unit ≠ mark))
      (fun unit member => by simpa using ne_of_mem_of_not_mem member apart) (mark :: tail)
      (by simp)).1
  have fronts := congrArg (List.takeWhile fun unit => decide (unit ≠ mark)) same
  rw [taken own tail, taken other otherTail] at fronts
  subst fronts
  exact ⟨rfl, (List.cons.inj (List.append_cancel_left same)).2⟩

/-- The method, the URL and the body are told from the text, as the last line is the body. -/
theorem lines_inj {method other : Method} {url otherUrl body otherBody : Text}
    (own : 10 ∉ body) (others : 10 ∉ otherBody)
    (same : method.text ++ 10 :: (url ++ 10 :: body) =
      other.text ++ 10 :: (otherUrl ++ 10 :: otherBody)) :
    method = other ∧ url = otherUrl ∧ body = otherBody := by
  have plain (method : Method) : 10 ∉ method.text := by
    cases method <;> decide
  obtain ⟨methods, rest⟩ := append_mark_inj (plain method) (plain other) same
  have reversed := congrArg List.reverse rest
  simp only [List.reverse_append, List.reverse_cons, List.append_assoc, List.singleton_append]
    at reversed
  obtain ⟨bodies, urls⟩ := append_mark_inj (by simpa using own) (by simpa using others) reversed
  exact ⟨Method.text_injective methods, List.reverse_injective urls, List.reverse_injective bodies⟩

theorem stringify_inj {value other : Value Double} :
    stringify value = stringify other ↔
      withNumbers serialized value = withNumbers serialized other :=
  print_injective.eq_iff

theorem extractPrincipal_eq_iff (first second : Stamps) :
    extractPrincipal first = extractPrincipal second ↔ first.principal = second.principal := by
  obtain ⟨firstKey, firstUser⟩ := first
  obtain ⟨secondKey, secondUser⟩ := second
  have kinds : ascii "api-key" ≠ ascii "session" := by decide
  have texts (text other : Option Text) :
      withNumbers serialized (textOrNull text) = withNumbers serialized (textOrNull other) ↔
        text = other := by
    cases text <;> cases other <;> simp [textOrNull, withNumbers]
  rcases firstKey with _ | ⟨apiKeyId, organizationId⟩ <;>
    rcases secondKey with _ | ⟨otherKeyId, otherOrganization⟩ <;>
    rcases firstUser with _ | ⟨sessionId, userId, organization⟩ <;>
    rcases secondUser with _ | ⟨otherSession, otherUser, otherUserOrganization⟩ <;>
    simp [extractPrincipal, Stamps.principal, stringify_inj, withNumbers, withItems, texts, kinds,
      kinds.symm]

theorem storeKey_eq_iff {sha256 : Text → Text}
    (injective : Set.InjOn sha256 {text | wellFormed text = true}) (first second : Stamps)
    (key other : Text) (known : first.principal ≠ none) :
    storeKey sha256 first key = storeKey sha256 second other ↔
      first.principal = second.principal ∧ key = other := by
  rw [← extractPrincipal_eq_iff]
  have stamped : extractPrincipal first ≠ none :=
    fun missing => known ((extractPrincipal_eq_iff first ⟨none, none⟩).mp missing)
  unfold storeKey
  cases one : extractPrincipal first with
  | none => exact absurd one stamped
  | some principal =>
    cases extractPrincipal second with
    | none => simp
    | some otherPrincipal =>
      have texts := injective.eq_iff
        (plain_print (withNumbers serialized (.array [.string principal, .string key]))).1
        (plain_print (withNumbers serialized (.array [.string otherPrincipal, .string other]))).1
      rw [Option.map_some, Option.map_some, Option.some.injEq, List.append_cancel_left_eq,
        stringify, stringify, texts, print_injective.eq_iff]
      simp [withNumbers, withItems]

/-! ## What the fingerprints determine -/

theorem wellFormed_fingerprintText (request : Request) :
    wellFormed (fingerprintText request) = true := by
  obtain ⟨method, url, payload⟩ := request
  cases payload with
  | multipart files => exact (plain_print _).1
  | json body =>
    have word : wellFormed method.text = true :=
      wellFormed_of_plain fun unit member => plain_of_lt (by
        have := method.text_units unit member
        omega)
    have address : wellFormed url.text = true :=
      wellFormed_of_plain fun unit member => plain_of_lt (url.bytes unit member)
    exact wellFormed_append word (wellFormed_cons rfl rfl
      (wellFormed_append address (wellFormed_cons rfl rfl (plain_print _).1)))

theorem buildFingerprint_eq_iff {sha256 : Text → Text}
    (injective : Set.InjOn sha256 {text | wellFormed text = true}) (first second : Request) :
    buildFingerprint sha256 first = buildFingerprint sha256 second ↔
      fingerprintText first = fingerprintText second :=
  injective.eq_iff (wellFormed_fingerprintText first) (wellFormed_fingerprintText second)

theorem json_eq_iff (method other : Method) (url otherUrl : Url) (body otherBody : Option Body) :
    fingerprintText ⟨method, url, .json body⟩ = fingerprintText ⟨other, otherUrl, .json otherBody⟩ ↔
      method = other ∧ url = otherUrl ∧
        Same (withNumbers serialized (bodyValue body))
          (withNumbers serialized (bodyValue otherBody)) := by
  have oneLine (value : Value Double) : 10 ∉ stringify value := fun member =>
    absurd ((plain_print (withNumbers serialized value)).2 10 member) (by decide)
  have bodies := stringify_canonicalize_eq_iff (distinct_bodyValue body)
    (distinct_bodyValue otherBody)
  constructor
  · intro same
    obtain ⟨methods, urls, texts⟩ := lines_inj (oneLine _) (oneLine _) same
    refine ⟨methods, ?_, bodies.mp texts⟩
    cases url
    cases otherUrl
    cases urls
    rfl
  · rintro ⟨rfl, rfl, same⟩
    simp only [fingerprintText, bodies.mpr same]

theorem file_value_injective :
    Function.Injective fun file => withNumbers serialized (UploadedFile.value file) := by
  intro file other same
  simp only [UploadedFile.value, withNumbers, withMembers, serialized, Value.object.injEq,
    List.cons.injEq, Prod.mk.injEq, Value.string.injEq, Value.number.injEq, true_and, and_true]
    at same
  cases file
  cases other
  simp_all

theorem multipart_eq_iff (method other : Method) (url otherUrl : Url)
    (files otherFiles : List UploadedFile) :
    fingerprintText ⟨method, url, .multipart files⟩ =
        fingerprintText ⟨other, otherUrl, .multipart otherFiles⟩ ↔
      method = other ∧ url = otherUrl ∧ files = otherFiles := by
  have urls : url.text = otherUrl.text ↔ url = otherUrl := by
    cases url
    cases otherUrl
    simp
  simp only [fingerprintText, stringify_inj, withNumbers, withItems, withItems_eq, List.map_map,
    Value.array.injEq, Value.string.injEq, List.cons.injEq, and_true,
    Method.text_injective.eq_iff, urls]
  exact and_congr_right fun _ => and_congr_right fun _ => file_value_injective.list_map.eq_iff

/-- A multipart text begins with a bracket, a text with lines with a letter. -/
theorem multipart_ne_json (method other : Method) (url otherUrl : Url) (files : List UploadedFile)
    (body : Option Body) :
    fingerprintText ⟨method, url, .multipart files⟩ ≠
      fingerprintText ⟨other, otherUrl, .json body⟩ := by
  intro same
  have bracket : (fingerprintText ⟨method, url, .multipart files⟩).head? = some 91 := by
    simp [fingerprintText, stringify, withNumbers, withItems, print]
  have letter : (fingerprintText ⟨other, otherUrl, .json body⟩).head? ≠ some 91 := by
    cases other <;> simp [fingerprintText, Method.text, ascii]
  exact letter (same ▸ bracket)

/-! ## The laws of fingerprints -/

structure JsonRequest where
  method : Method
  url : Url
  body : Option Body

def JsonRequest.fingerprint (sha256 : Text → Text) (request : JsonRequest) : Text :=
  buildFingerprint sha256 ⟨request.method, request.url, .json request.body⟩

def JsonRequest.value (request : JsonRequest) : Value Double := bodyValue request.body

/-- Two requests share the fingerprint exactly when they are the same operation. -/
def Faithful (sha256 : Text → Text) (first second : JsonRequest) : Prop :=
  first.fingerprint sha256 = second.fingerprint sha256 ↔
    first.method = second.method ∧ first.url = second.url ∧ Same first.value second.value

/-- Requests to one URL whose bodies differ only until infinite numbers are written `null`. -/
def Blurred (first second : JsonRequest) : Prop :=
  first.method = second.method ∧ first.url = second.url ∧ ¬ Same first.value second.value ∧
    Same (withNumbers serialized first.value) (withNumbers serialized second.value)

/-- The body of a request without infinite numbers. -/
def decimals (value : Value Decimal) : Value Double :=
  withNumbers (fun number => .number (.finite number)) value

structure FingerprintLaws (sha256 : Text → Text) : Prop where
  records : ∀ (first second : Stamps) (key other : Text), first.principal ≠ none →
    (storeKey sha256 first key = storeKey sha256 second other ↔
      first.principal = second.principal ∧ key = other)
  bodies : ∀ first second : JsonRequest, Faithful sha256 first second ↔ ¬ Blurred first second
  finite : ∀ (first second : JsonRequest) (value other : Value Decimal),
    first.value = decimals value → second.value = decimals other → ¬ Blurred first second
  files : ∀ (method other : Method) (url otherUrl : Url) (files otherFiles : List UploadedFile),
    buildFingerprint sha256 ⟨method, url, .multipart files⟩ =
        buildFingerprint sha256 ⟨other, otherUrl, .multipart otherFiles⟩ ↔
      method = other ∧ url = otherUrl ∧ files = otherFiles
  kinds : ∀ (method other : Method) (url otherUrl : Url) (files : List UploadedFile)
    (body : Option Body),
    buildFingerprint sha256 ⟨method, url, .multipart files⟩ ≠
      buildFingerprint sha256 ⟨other, otherUrl, .json body⟩

theorem fingerprint_eq_iff {sha256 : Text → Text}
    (injective : Set.InjOn sha256 {text | wellFormed text = true}) (first second : JsonRequest) :
    first.fingerprint sha256 = second.fingerprint sha256 ↔
      first.method = second.method ∧ first.url = second.url ∧
        Same (withNumbers serialized first.value) (withNumbers serialized second.value) :=
  (buildFingerprint_eq_iff injective _ _).trans (json_eq_iff _ _ _ _ _ _)

/-- Bodies without infinite numbers are read back from what is written. -/
theorem not_blurred_of_decimals {first second : JsonRequest} {value other : Value Decimal}
    (own : first.value = decimals value) (others : second.value = decimals other) :
    ¬ Blurred first second := by
  rintro ⟨-, -, apart, same⟩
  have back (value : Value Decimal) : withNumbers serialized (decimals value) = value :=
    withNumbers_withNumbers _ serialized (fun _ => rfl) value
  rw [own, others, back, back] at same
  rw [own, others] at apart
  exact apart (same_withNumbers _ value same)

/-- With a hash without collisions the key of a record is its principal and idempotency key, and
fingerprints are shared by the same operations and by those that infinite numbers blur. -/
theorem fingerprintLaws_of_injective {sha256 : Text → Text}
    (injective : Set.InjOn sha256 {text | wellFormed text = true}) : FingerprintLaws sha256 where
  records first second key other known := storeKey_eq_iff injective first second key other known
  bodies first second := by
    rw [Faithful, fingerprint_eq_iff injective]
    constructor
    · rintro faithful ⟨methods, urls, apart, same⟩
      exact apart (faithful.mp ⟨methods, urls, same⟩).2.2
    · intro sharp
      constructor
      · rintro ⟨methods, urls, same⟩
        exact ⟨methods, urls, by_contra fun apart => sharp ⟨methods, urls, apart, same⟩⟩
      · rintro ⟨methods, urls, same⟩
        exact ⟨methods, urls, same_withNumbers serialized first.value same⟩
  finite _ _ _ _ own others := not_blurred_of_decimals own others
  files method other url otherUrl files otherFiles :=
    (buildFingerprint_eq_iff injective _ _).trans (multipart_eq_iff _ _ _ _ _ _)
  kinds method other url otherUrl files body same :=
    multipart_ne_json _ _ _ _ _ _ ((buildFingerprint_eq_iff injective _ _).mp same)

theorem fingerprintLaws_id : FingerprintLaws id := fingerprintLaws_of_injective (Set.injOn_id _)

/-- The body `{"a":1e400}`, whose number is beyond the largest double. -/
def overflowing : JsonRequest :=
  ⟨.post, ⟨ascii "/api/v1/echo", by decide⟩,
    some ⟨.object [(ascii "a", .number (.infinite false))], by simp [Distinct, DistinctMembers]⟩⟩

/-- The body `{"a":null}`. -/
def withNull : JsonRequest :=
  ⟨.post, ⟨ascii "/api/v1/echo", by decide⟩,
    some ⟨.object [(ascii "a", .null)], by simp [Distinct, DistinctMembers]⟩⟩

theorem not_same_overflowing : ¬ Same overflowing.value withNull.value := by
  rintro (⟨⟩ | ⟨⟩ | ⟨⟩ | ⟨⟩ | ⟨⟩ | @⟨_, reordered, _, same, order⟩)
  obtain rfl := List.perm_singleton.mp order
  obtain _ | ⟨first, rest⟩ := same
  cases first

theorem overflowing_shares : ¬ Faithful id overflowing withNull := by
  intro faithful
  have shared : overflowing.fingerprint id = withNull.fingerprint id :=
    (fingerprint_eq_iff (Set.injOn_id _) overflowing withNull).mpr ⟨rfl, rfl, same_refl _⟩
  exact not_same_overflowing (faithful.mp shared).2.2

end NestjsFastify.IdempotencyFingerprint
