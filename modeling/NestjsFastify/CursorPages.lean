import NestjsFastify.CursorPagination
import NestjsFastify.DomainException
import NestjsFastify.Json
import NestjsFastify.LiveWalk

/-! # The lists of the API

A client asks for one page after the other with `lastCursor`.  Between two requests rows come,
change and go; replicas may even answer from an older table than before.
-/
namespace NestjsFastify.CursorPages
open CursorPagination
open CursorKeyed (key)
open IsoTimestamp (Timestamp)
open KeysetWalk (Finished Slice Walked behind)
open Uuid (isUuid7)

/-! ### Answers -/

/-- `{ data, hasMore, lastCursor }` -/
structure CursorPage (Dto : Type) where
  data : List Dto
  hasMore : Bool
  lastCursor : Option (List Char)

def invalidCursorProblem (path : String) : DomainExceptionOptions where
  kind := some .malformed
  title := some "common.bad_request"
  code := some "invalid_cursor"
  messageKey := some "errors.pagination.invalid_cursor"
  violations := [{
    path
    code := "invalid_cursor"
    message := path ++ " is not a valid cursor"
    messageKey := some "errors.pagination.invalid_cursor" }]

def decodeStartingAfter (platform : Platform) :
    Option (List Char) → Except DomainException (Option CursorKey)
  | none => .ok none
  | some raw =>
      if raw.isEmpty then .ok none
      else
        match decodeCursor platform raw with
        | none => .error (.new (invalidCursorProblem "startingAfter"))
        | some decoded => .ok (some decoded)

section Listing
variable {Row Dto : Type} [CursorKeyed Row]

def toPage (toDto : Row → Dto) (page : CursorPageSlice Row) : CursorPage Dto where
  data := page.items.map toDto
  hasMore := page.hasMore
  lastCursor := lastCursorOf page.items

/-- What the handlers share; `rows` are those that the other conditions of the query leave. -/
def listCursor (platform : Platform) (rows : List Row) (limit : Nat) (toDto : Row → Dto)
    (startingAfter : Option (List Char)) : Except DomainException (CursorPage Dto) := do
  let cursor ← decodeStartingAfter platform startingAfter
  .ok (toPage toDto (findAllCursor rows cursor limit))

end Listing

/-- A filter that is absent or empty is not used. -/
def unlessEmpty (filter : Option String) : Option String := filter.filter (· ≠ "")

def jsonObjectOrEmpty : Json → Json
  | .object members => .object members
  | _ => .object []

/-! ### Notifications -/

structure Notification where
  id : List Char
  organizationId : String
  userId : String
  type : String
  title : String
  body : String
  data : Json
  readAt : Option Timestamp
  createdAt : Timestamp

structure NotificationDto where
  id : List Char
  type : String
  title : String
  body : String
  data : Json
  readAt : Option Timestamp
  createdAt : Timestamp

structure ListNotificationsQuery where
  organizationId : String
  userId : String
  limit : Nat
  startingAfter : Option (List Char) := none
  unreadOnly : Bool := false

instance : CursorKeyed Notification where
  key row := ⟨row.createdAt, row.id⟩

def ListNotificationsQuery.matches (query : ListNotificationsQuery) (row : Notification) : Bool :=
  row.organizationId == query.organizationId && row.userId == query.userId &&
    (!query.unreadOnly || row.readAt.isNone)

def Notification.toDto (row : Notification) : NotificationDto where
  id := row.id
  type := row.type
  title := row.title
  body := row.body
  data := jsonObjectOrEmpty row.data
  readAt := row.readAt
  createdAt := row.createdAt

def ListNotificationsHandler.execute (platform : Platform) (rows : List Notification)
    (query : ListNotificationsQuery) : Except DomainException (CursorPage NotificationDto) :=
  listCursor platform (rows.filter query.matches) query.limit Notification.toDto
    query.startingAfter

/-! ### Invitations -/

inductive InvitationStatus where
  | pending
  | accepted
  | rejected
  | canceled
  deriving DecidableEq, Repr

structure InvitationRecord where
  id : List Char
  organizationId : String
  email : String
  role : Option String
  teamId : Option String
  status : InvitationStatus
  expiresAt : Timestamp
  inviterId : String
  createdAt : Timestamp

structure InvitationDto where
  id : List Char
  email : String
  role : Option String
  teamId : Option String
  status : InvitationStatus
  expiresAt : Timestamp
  inviterId : String
  createdAt : Timestamp

structure ListInvitationsQuery where
  organizationId : String
  limit : Nat
  startingAfter : Option (List Char) := none
  status : Option InvitationStatus := none
  email : Option String := none

instance : CursorKeyed InvitationRecord where
  key row := ⟨row.createdAt, row.id⟩

def pendingInvitationWhere (now : Timestamp) (row : InvitationRecord) : Bool :=
  row.status == .pending && now.val < row.expiresAt.val

def statusWhere (status : InvitationStatus) (now : Timestamp) (row : InvitationRecord) : Bool :=
  if status = .pending then pendingInvitationWhere now row else row.status == status

def ListInvitationsQuery.matches (toLowerCase : String → String) (query : ListInvitationsQuery)
    (now : Timestamp) (row : InvitationRecord) : Bool :=
  row.organizationId == query.organizationId &&
    query.status.all (statusWhere · now row) &&
    (unlessEmpty query.email).all (row.email == toLowerCase ·)

def InvitationRecord.toDto (row : InvitationRecord) : InvitationDto where
  id := row.id
  email := row.email
  role := row.role
  teamId := row.teamId
  status := row.status
  expiresAt := row.expiresAt
  inviterId := row.inviterId
  createdAt := row.createdAt

def ListInvitationsHandler.execute (platform : Platform) (toLowerCase : String → String)
    (now : Timestamp) (rows : List InvitationRecord) (query : ListInvitationsQuery) :
    Except DomainException (CursorPage InvitationDto) :=
  listCursor platform (rows.filter (query.matches toLowerCase now)) query.limit
    InvitationRecord.toDto query.startingAfter

/-! ### Sessions -/

structure SessionRecord where
  id : List Char
  userId : String
  ipAddress : Option String
  userAgent : Option String
  expiresAt : Timestamp
  createdAt : Timestamp
  updatedAt : Timestamp

structure SessionDto where
  id : List Char
  ipAddress : Option String
  userAgent : Option String
  current : Bool
  expiresAt : Timestamp
  createdAt : Timestamp
  updatedAt : Timestamp

structure ListMySessionsQuery where
  userId : String
  currentSessionId : List Char
  limit : Nat
  startingAfter : Option (List Char) := none
  activeOnly : Bool := true

instance : CursorKeyed SessionRecord where
  key row := ⟨row.createdAt, row.id⟩

def ListMySessionsQuery.matches (query : ListMySessionsQuery) (now : Timestamp)
    (row : SessionRecord) : Bool :=
  row.userId == query.userId && (!query.activeOnly || now.val < row.expiresAt.val)

def SessionRecord.toDto (currentSessionId : List Char) (row : SessionRecord) : SessionDto where
  id := row.id
  ipAddress := row.ipAddress
  userAgent := row.userAgent
  current := row.id == currentSessionId
  expiresAt := row.expiresAt
  createdAt := row.createdAt
  updatedAt := row.updatedAt

def ListMySessionsHandler.execute (platform : Platform) (now : Timestamp)
    (rows : List SessionRecord) (query : ListMySessionsQuery) :
    Except DomainException (CursorPage SessionDto) :=
  listCursor platform (rows.filter (query.matches now)) query.limit
    (SessionRecord.toDto query.currentSessionId) query.startingAfter

/-! ### API keys -/

structure ApiKeyRow where
  id : List Char
  organizationId : String
  name : String
  keyPrefix : String
  keyHash : String
  scopes : List String
  createdById : Option String
  lastUsedAt : Option Timestamp
  expiresAt : Option Timestamp
  revokedAt : Option Timestamp
  createdAt : Timestamp

structure ApiKeyDto where
  id : List Char
  name : String
  keyPrefix : String
  scopes : List String
  createdById : Option String
  lastUsedAt : Option Timestamp
  expiresAt : Option Timestamp
  revokedAt : Option Timestamp
  createdAt : Timestamp

structure ListApiKeysQuery where
  organizationId : String
  limit : Nat
  startingAfter : Option (List Char) := none
  includeRevoked : Bool := false

instance : CursorKeyed ApiKeyRow where
  key row := ⟨row.createdAt, row.id⟩

def ListApiKeysQuery.matches (query : ListApiKeysQuery) (row : ApiKeyRow) : Bool :=
  row.organizationId == query.organizationId && (query.includeRevoked || row.revokedAt.isNone)

/-- The digest of the key stays behind. -/
def toApiKeyDto (row : ApiKeyRow) : ApiKeyDto where
  id := row.id
  name := row.name
  keyPrefix := row.keyPrefix
  scopes := row.scopes
  createdById := row.createdById
  lastUsedAt := row.lastUsedAt
  expiresAt := row.expiresAt
  revokedAt := row.revokedAt
  createdAt := row.createdAt

def ListApiKeysHandler.execute (platform : Platform) (rows : List ApiKeyRow)
    (query : ListApiKeysQuery) : Except DomainException (CursorPage ApiKeyDto) :=
  listCursor platform (rows.filter query.matches) query.limit toApiKeyDto query.startingAfter

/-! ### The audit log -/

structure AuditLog where
  id : List Char
  organizationId : Option String
  userId : Option String
  action : String
  resource : Option String
  metadata : Json
  ipAddress : Option String
  userAgent : Option String
  createdAt : Timestamp

structure ListAuditLogsCursorQuery where
  organizationId : String
  limit : Nat
  startingAfter : Option (List Char) := none
  action : Option String := none
  resource : Option String := none
  userId : Option String := none
  occurredFrom : Option Timestamp := none
  occurredUntil : Option Timestamp := none

instance : CursorKeyed AuditLog where
  key row := ⟨row.createdAt, row.id⟩

/-- The range of `buildRange` with both ends in it. -/
def inRange (occurredFrom occurredUntil : Option Timestamp) (createdAt : Timestamp) : Bool :=
  occurredFrom.all (·.val ≤ createdAt.val) && occurredUntil.all (createdAt.val ≤ ·.val)

def ListAuditLogsCursorQuery.matches (query : ListAuditLogsCursorQuery) (row : AuditLog) : Bool :=
  row.organizationId == some query.organizationId &&
    (unlessEmpty query.action).all (row.action == ·) &&
    (unlessEmpty query.resource).all (row.resource == some ·) &&
    (unlessEmpty query.userId).all (row.userId == some ·) &&
    inRange query.occurredFrom query.occurredUntil row.createdAt

/-- `AuditLog.reconstitute`, and the item of the list, which has all of its fields. -/
def AuditLog.toListItem (row : AuditLog) : AuditLog :=
  { row with metadata := jsonObjectOrEmpty row.metadata }

def invalidRange : DomainException :=
  .new {
    kind := some .validation
    code := some "validation_failed"
    title := some "common.unprocessable_entity"
    messageKey := some "errors.audit_log.invalid_range"
    violations := [{
      path := "occurredFrom"
      code := "range_out_of_order"
      message := "occurredFrom must not be later than occurredUntil"
      messageKey := some "errors.audit_log.invalid_range" }] }

def assertRangeOrdered : Option Timestamp → Option Timestamp → Except DomainException Unit
  | some occurredFrom, some occurredUntil =>
      if occurredFrom.val ≤ occurredUntil.val then .ok () else .error invalidRange
  | _, _ => .ok ()

def ListAuditLogsCursorHandler.execute (platform : Platform) (rows : List AuditLog)
    (query : ListAuditLogsCursorQuery) : Except DomainException (CursorPage AuditLog) := do
  assertRangeOrdered query.occurredFrom query.occurredUntil
  listCursor platform (rows.filter query.matches) query.limit AuditLog.toListItem
    query.startingAfter

/-! ### Reading a list to its end -/

/-- A client that asks for the next page while there is one; each request finds the rows of its
own moment. -/
def readThrough {Moment Dto : Type}
    (answer : Moment → Option (List Char) → Except DomainException (CursorPage Dto)) :
    List Moment → Option (List Char) → Except DomainException (List (CursorPage Dto))
  | [], _ => .ok []
  | moment :: moments, startingAfter => do
      let page ← answer moment startingAfter
      if page.hasMore then
        let pages ← readThrough answer moments page.lastCursor
        .ok (page :: pages)
      else .ok [page]

section Reading
variable {Row Dto Moment : Type} [CursorKeyed Row]

/-- Rows have keys of their own and ids that the database gave them. -/
structure Keyed (rows : List Row) : Prop where
  distinct : (rows.map key).Nodup
  ids : ∀ row ∈ rows, isUuid7 (key row).id = true

theorem Keyed.filter {rows : List Row} (keyed : Keyed rows) (test : Row → Bool) :
    Keyed (rows.filter test) where
  distinct := keyed.distinct.sublist (List.filter_sublist.map key)
  ids row own := keyed.ids row (List.mem_filter.mp own).1

/-- Nothing appears among or behind the rows that the first request found, except these. -/
def NothingOlderAppears : List (List Row) → Prop
  | [] => True
  | first :: later => ∀ rows ∈ later, ∀ row ∈ rows, ∀ old ∈ first,
      keysetAfter (key old) (key row) = true → key row ∈ first.map key

/-- What a client gets that reads a list to its end, `tables` being the rows that matched at each of
its requests. -/
structure ReadsThrough (tables : List (List Row)) (limit : Nat) (pages : List (Slice Row)) :
    Prop where
  drawn : ∀ entry ∈ tables.zip pages, ∀ row ∈ entry.2.items, row ∈ entry.1
  sorted : (pages.flatMap Slice.items).Pairwise fun first second =>
    keysetAfter (key first) (key second) = true
  once : ((pages.flatMap Slice.items).map key).Nodup
  full : ∀ page ∈ pages, page.hasMore = true → page.items.length = limit
  stops : Finished pages ∨ pages.length = tables.length
  complete : Finished pages → ∀ place,
    (∀ rows ∈ tables.take pages.length, place ∈ rows.map key) →
      place ∈ (pages.flatMap Slice.items).map key
  ends : NothingOlderAppears tables → ∀ first ∈ tables.head?,
    first.length / limit < tables.length →
      Finished pages ∧ pages.length ≤ first.length / limit + 1

theorem keysetAfter_trans (first second third : CursorKey) (one : keysetAfter first second = true)
    (two : keysetAfter second third = true) : keysetAfter first third = true := by
  rw [keysetAfter_iff] at *
  simp only [← Subtype.coe_inj] at *
  omega

theorem keysetAfter_irrefl (place : CursorKey) : keysetAfter place place = false := by
  rw [← Bool.not_eq_true, keysetAfter_iff]
  omega

/-- A request is answered with the page that the walk gets. -/
theorem listCursor_of_listPage {platform : Platform} {rows : List Row} {limit : Nat}
    {toDto : Row → Dto} {startingAfter : Option (List Char)} {page : Slice Row}
    (listed : listPage platform rows limit startingAfter = some page) :
    listCursor platform rows limit toDto startingAfter = .ok (toPage toDto page) := by
  cases startingAfter with
  | none =>
    obtain rfl := Option.some.inj listed
    rfl
  | some raw =>
    simp only [listPage] at listed
    split at listed
    · rename_i empty
      obtain rfl := Option.some.inj listed
      simp only [listCursor, decodeStartingAfter, empty, if_true]
      rfl
    · rename_i nonempty
      obtain ⟨decoded, read, rfl⟩ := Option.map_eq_some_iff.mp listed
      simp only [listCursor, decodeStartingAfter, nonempty, read, Bool.false_eq_true, if_false]
      rfl

/-- The pages that the client gets are those of the walk. -/
theorem readThrough_of_liveWalk {platform : Platform} {limit : Nat} {toDto : Row → Dto}
    {rows : Moment → List Row}
    {answer : Moment → Option (List Char) → Except DomainException (CursorPage Dto)}
    {moments : List Moment} {startingAfter : Option (List Char)} {pages : List (Slice Row)}
    (answers : ∀ moment ∈ moments, ∀ startingAfter,
      answer moment startingAfter = listCursor platform (rows moment) limit toDto startingAfter)
    (walked : KeysetWalk.liveWalk (fun moment => listPage platform (rows moment) limit)
      lastCursorOf moments startingAfter = some pages) :
    readThrough answer moments startingAfter = .ok (pages.map (toPage toDto)) := by
  induction moments generalizing startingAfter pages with
  | nil =>
    obtain rfl := Option.some.inj walked
    rfl
  | cons moment moments ih =>
    have later := fun other member => answers other (List.mem_cons_of_mem moment member)
    rw [KeysetWalk.liveWalk] at walked
    cases listed : listPage platform (rows moment) limit startingAfter with
    | none => simp [listed] at walked
    | some page =>
      have answered := answers moment List.mem_cons_self startingAfter
      rw [listCursor_of_listPage listed] at answered
      simp only [listed] at walked
      rw [readThrough, answered]
      cases more : page.hasMore with
      | false =>
        simp only [more, Bool.false_eq_true, if_false] at walked
        obtain rfl := Option.some.inj walked
        simp [bind, Except.bind, toPage, more]
      | true =>
        simp only [more, if_true] at walked
        cases cursor : lastCursorOf page.items with
        | none => simp [cursor] at walked
        | some next =>
          simp only [cursor] at walked
          obtain ⟨rest, reached, rfl⟩ := Option.map_eq_some_iff.mp walked
          have read := ih later reached
          simp [bind, Except.bind, toPage, more, cursor, read]

/-- A page is cut from the sorted rows behind the cursor. -/
theorem listPage_eq_slice (platform : Platform) {rows : List Row} (keyed : Keyed rows)
    (limit : Nat) (place : Option CursorKey) (valid : ∀ here ∈ place, isUuid7 here.id = true) :
    listPage platform rows limit (place.map fun here => encodeCursor here.createdAt here.id) =
      some (KeysetWalk.slice limit
        (behind key keysetAfter place (rows.mergeSort orderedBefore))) := by
  cases place with
  | none => exact congrArg some (takePage_take _ limit)
  | some here =>
    have read := decodeCursor_encodeCursor platform here.createdAt (valid here rfl)
    have some : (encodeCursor here.createdAt here.id).isEmpty = false := by
      by_contra empty
      simp [decodeCursor, (Bool.not_eq_false _).mp empty] at read
    simp only [Option.map_some, listPage, some, read,
      findAllCursor_some keyed.distinct keyed.ids]
    rfl

/-- Reading a list to its end, for any handler that answers as the lists do. -/
theorem readsThrough_of_listCursor (platform : Platform) {limit : Nat} (positive : 1 ≤ limit)
    {toDto : Row → Dto} {rows : Moment → List Row}
    {answer : Moment → Option (List Char) → Except DomainException (CursorPage Dto)}
    {moments : List Moment} (keyed : ∀ moment ∈ moments, Keyed (rows moment))
    (answers : ∀ moment ∈ moments, ∀ startingAfter,
      answer moment startingAfter = listCursor platform (rows moment) limit toDto startingAfter) :
    ∃ pages, readThrough answer moments none = .ok (pages.map (toPage toDto)) ∧
      ReadsThrough (moments.map rows) limit pages := by
  have valid : ∀ moment ∈ moments, ∀ row ∈ (rows moment).mergeSort orderedBefore,
      isUuid7 (key row).id = true := fun moment member row own =>
    (keyed moment member).ids row (List.mem_mergeSort.mp own)
  obtain ⟨pages, walked, facts⟩ : ∃ pages,
      KeysetWalk.liveWalk (fun moment => listPage platform (rows moment) limit) lastCursorOf
        moments none = some pages ∧
      KeysetWalk.Walked key keysetAfter limit none
        (moments.map fun moment => (rows moment).mergeSort orderedBefore) pages :=
    @KeysetWalk.liveWalk_walked _ _ _ _ key keysetAfter limit _ _ _
    (fun here => encodeCursor here.createdAt here.id) positive moments none
    (fun moment member => listPage_eq_slice platform (keyed moment member) limit none (by simp))
    (fun earlier first row own moment member =>
      listPage_eq_slice platform (keyed moment member) limit (some (key row))
        (by rintro here ⟨rfl⟩; exact valid earlier first row own))
    (fun moment _ row _ front => by simp [lastCursorOf])
  refine ⟨pages, readThrough_of_liveWalk answers walked, ?_⟩
  have ordered : ∀ sorted ∈ moments.map fun moment => (rows moment).mergeSort orderedBefore,
      sorted.Pairwise fun first second => keysetAfter (key first) (key second) = true := by
    intro sorted member
    obtain ⟨moment, own, rfl⟩ := List.mem_map.mp member
    exact pairwise_keysetAfter (keyed moment own).distinct (keyed moment own).ids
  have sorted := facts.sorted keysetAfter_trans ordered
  constructor
  case drawn =>
    intro entry member row own
    rw [List.zip_map_left] at member
    obtain ⟨⟨moment, page⟩, among, rfl⟩ := List.mem_map.mp member
    apply List.mem_mergeSort.mp
    refine facts.drawn ((rows moment).mergeSort orderedBefore, page) ?_ row own
    rw [List.zip_map_left]
    exact List.mem_map.mpr ⟨(moment, page), among, rfl⟩
  case sorted => exact sorted
  case once =>
    apply List.pairwise_map.mpr
    apply sorted.imp
    intro first second later same
    rw [same, keysetAfter_irrefl] at later
    cases later
  case full => exact facts.full
  case stops =>
    rw [List.length_map]
    rw [← List.length_map (f := fun moment => (rows moment).mergeSort orderedBefore)]
    exact facts.stops
  case complete =>
    intro finished place present
    apply facts.covers ordered finished (by simp)
    intro table member
    rw [← List.map_take] at member present
    obtain ⟨moment, own, rfl⟩ := List.mem_map.mp member
    obtain ⟨row, among, rfl⟩ := List.mem_map.mp (present _ (List.mem_map_of_mem own))
    exact List.mem_map_of_mem (List.mem_mergeSort.mpr among)
  case ends =>
    intro older first atStart enough
    cases moments with
    | nil => cases atStart
    | cons moment moments =>
      obtain rfl : rows moment = first := Option.some.inj atStart
      have settled : KeysetWalk.Settled key keysetAfter none ((rows moment).map key)
          ((moment :: moments).map fun moment => (rows moment).mergeSort orderedBefore) := by
        constructor
        · intro row own
          exact List.mem_map_of_mem (List.mem_mergeSort.mp own)
        · intro other member row own old among behind
          obtain ⟨later, listed, rfl⟩ := List.mem_map.mp member
          exact older (rows later) (List.mem_map_of_mem listed) row (List.mem_mergeSort.mp own) old
            (List.mem_mergeSort.mp among) behind
      have counted := facts.finishes positive keysetAfter_trans keysetAfter_irrefl ordered settled
      rw [List.length_map, List.length_map] at counted
      rw [List.length_map] at enough
      exact counted enough

end Reading

/-! ### The lists -/

/-- Every list of the API can be read to its end while its rows change: nothing is given twice, what
stays is given, and the reading ends. -/
structure ListsReadThrough (platform : Platform) : Prop where
  notifications : ∀ (query : ListNotificationsQuery) (tables : List (List Notification)),
    1 ≤ query.limit → (∀ rows ∈ tables, Keyed rows) →
      ∃ pages, readThrough (fun rows startingAfter =>
          ListNotificationsHandler.execute platform rows { query with startingAfter }) tables none =
            .ok (pages.map (toPage Notification.toDto)) ∧
        ReadsThrough (tables.map (·.filter query.matches)) query.limit pages
  invitations : ∀ (toLowerCase : String → String) (query : ListInvitationsQuery)
      (moments : List (Timestamp × List InvitationRecord)),
    1 ≤ query.limit → (∀ moment ∈ moments, Keyed moment.2) →
      ∃ pages, readThrough (fun moment startingAfter =>
          ListInvitationsHandler.execute platform toLowerCase moment.1 moment.2
            { query with startingAfter }) moments none =
            .ok (pages.map (toPage InvitationRecord.toDto)) ∧
        ReadsThrough (moments.map fun moment =>
          moment.2.filter (query.matches toLowerCase moment.1)) query.limit pages
  sessions : ∀ (query : ListMySessionsQuery) (moments : List (Timestamp × List SessionRecord)),
    1 ≤ query.limit → (∀ moment ∈ moments, Keyed moment.2) →
      ∃ pages, readThrough (fun moment startingAfter =>
          ListMySessionsHandler.execute platform moment.1 moment.2 { query with startingAfter })
            moments none =
            .ok (pages.map (toPage (SessionRecord.toDto query.currentSessionId))) ∧
        ReadsThrough (moments.map fun moment => moment.2.filter (query.matches moment.1))
          query.limit pages
  apiKeys : ∀ (query : ListApiKeysQuery) (tables : List (List ApiKeyRow)),
    1 ≤ query.limit → (∀ rows ∈ tables, Keyed rows) →
      ∃ pages, readThrough (fun rows startingAfter =>
          ListApiKeysHandler.execute platform rows { query with startingAfter }) tables none =
            .ok (pages.map (toPage toApiKeyDto)) ∧
        ReadsThrough (tables.map (·.filter query.matches)) query.limit pages
  auditLogs : ∀ (query : ListAuditLogsCursorQuery) (tables : List (List AuditLog)),
    1 ≤ query.limit → assertRangeOrdered query.occurredFrom query.occurredUntil = .ok () →
      (∀ rows ∈ tables, Keyed rows) →
      ∃ pages, readThrough (fun rows startingAfter =>
          ListAuditLogsCursorHandler.execute platform rows { query with startingAfter })
            tables none = .ok (pages.map (toPage AuditLog.toListItem)) ∧
        ReadsThrough (tables.map (·.filter query.matches)) query.limit pages

theorem listsReadThrough (platform : Platform) : ListsReadThrough platform := by
  constructor
  case notifications =>
    intro query tables positive keyed
    apply readsThrough_of_listCursor platform positive
    · intro rows member
      exact (keyed rows member).filter _
    · intro rows _ startingAfter
      rfl
  case invitations =>
    intro toLowerCase query moments positive keyed
    apply readsThrough_of_listCursor platform positive
    · intro moment member
      exact (keyed moment member).filter _
    · intro moment _ startingAfter
      rfl
  case sessions =>
    intro query moments positive keyed
    apply readsThrough_of_listCursor platform positive
    · intro moment member
      exact (keyed moment member).filter _
    · intro moment _ startingAfter
      rfl
  case apiKeys =>
    intro query tables positive keyed
    apply readsThrough_of_listCursor platform positive
    · intro rows member
      exact (keyed rows member).filter _
    · intro rows _ startingAfter
      rfl
  case auditLogs =>
    intro query tables positive ordered keyed
    apply readsThrough_of_listCursor platform positive
    · intro rows member
      exact (keyed rows member).filter _
    · intro rows _ startingAfter
      rw [ListAuditLogsCursorHandler.execute, ordered]
      rfl

/-- A notification for the user `u` of the organization `o`. -/
def exampleNotification (place : CursorKey) (readAt : Option Timestamp) : Notification where
  id := place.id
  organizationId := "o"
  userId := "u"
  type := "files.ready"
  title := "Your file is ready"
  body := ""
  data := .object []
  readAt
  createdAt := place.createdAt

def exampleQuery : ListNotificationsQuery where
  organizationId := "o"
  userId := "u"
  limit := 2
  unreadOnly := true

/-- Between the two requests the newest notification is read. -/
def exampleTables : List (List Notification) :=
  [exampleRows.map (exampleNotification · none),
    exampleRows.map fun row => exampleNotification row
      (if row.createdAt.val = 1767312000000 then some row.createdAt else none)]

theorem keyed_exampleTables : ∀ rows ∈ exampleTables, Keyed rows := by
  have all : ∀ read : CursorKey → Option Timestamp,
      Keyed (exampleRows.map fun row => exampleNotification row (read row)) := by
    intro read
    constructor
    · rw [List.map_map]
      exact (by decide : exampleRows.Nodup)
    · intro row own
      obtain ⟨here, among, rfl⟩ := List.mem_map.mp own
      exact (by decide : ∀ row ∈ exampleRows, isUuid7 row.id = true) here among
  intro rows member
  rcases List.mem_cons.mp member with rfl | second
  · exact all fun _ => none
  · obtain rfl := List.mem_singleton.mp second
    exact all _

theorem listsReadThrough_example :
    ∃ pages, readThrough (fun rows startingAfter =>
        ListNotificationsHandler.execute codePointPlatform rows
          { exampleQuery with startingAfter }) exampleTables none =
          .ok (pages.map (toPage Notification.toDto)) ∧
      ReadsThrough (exampleTables.map (·.filter exampleQuery.matches)) 2 pages :=
  (listsReadThrough codePointPlatform).notifications exampleQuery exampleTables (by decide)
    keyed_exampleTables

end NestjsFastify.CursorPages
