import NestjsFastify.OutboxDispatch
import NestjsFastify.ScriptText
import NestjsFastify.TransitionSystem
import NestjsFastify.Uuid

/-! # What the listeners of an event write

The audit log takes every event of users and organizations, and members are notified when they are
added or get another role.  Each row has the id of its event, so that a redelivery meets the row
that is there and does nothing.
-/
namespace NestjsFastify.Outbox

/-! ## The rows -/

structure AuditLog where
  id : String
  organizationId : Option String
  userId : Option String
  action : String
  resource : String
  metadata : List (String × Json)
  ipAddress : Option String
  userAgent : Option String
  createdAt : Int

structure Notification where
  id : String
  organizationId : String
  userId : String
  type : String
  title : String
  body : String
  data : List (String × Json)
  createdAt : Int

/-- The input function of the type `uuid` of the database, which gives equal texts to equal ids,
and `z.uuid()`. -/
structure IdFormats where
  uuidIn : String → Option String
  isZodUuid : String → Bool

/-- `{ ...members, [name]: value }` -/
def setMember (members : List (String × Json)) (name : String) (value : Json) :
    List (String × Json) :=
  if members.any (·.1 == name) then
    members.map fun member => if member.1 == name then (name, value) else member
  else members ++ [(name, value)]

/-- What remains of an object when members are taken out. -/
def dropMembers (names : List String) (members : List (String × Json)) : List (String × Json) :=
  members.filter fun member => member.1 ∉ names

/-- A member that is a text. -/
def textMember (members : List (String × Json)) (name : String) : Option String :=
  members.lookup name >>= Json.string?

/-! ## The audit log -/

def isHexDigit (character : Char) : Bool :=
  character.isDigit || ('a' ≤ character && character ≤ 'f') ||
    ('A' ≤ character && character ≤ 'F')

/-- `POSTGRES_UUID`: five groups of digits, of any version. -/
def isPostgresUuid (text : String) : Bool :=
  Uuid.fits (List.replicate 8 isHexDigit ++ (· == '-') :: (List.replicate 4 isHexDigit ++
    (· == '-') :: (List.replicate 4 isHexDigit ++ (· == '-') :: (List.replicate 4 isHexDigit ++
      (· == '-') :: List.replicate 12 isHexDigit)))) text.toList

def invalidAuditLogId (messageKey message : String) : DomainException :=
  fieldProblem {
    kind := .validation
    code := "invalid_audit_log_id"
    messageKey
    path := "id"
    message }

/-- `AuditLog.create` -/
def AuditLog.create (input : AuditLog) : Except Failure AuditLog :=
  if ScriptText.trim input.id.toList = [] then
    .error (.domain (invalidAuditLogId "errors.audit_log.invalid_id_empty"
      "id must be a non-empty string when provided"))
  else if !isPostgresUuid input.id then
    .error (.domain (invalidAuditLogId "errors.audit_log.invalid_id_uuid"
      "id must be a valid UUID (audit_logs.id is a Postgres UUID column)"))
  else .ok input

def handleUserEvent (event : DomainEvent) : Except Failure AuditLog :=
  AuditLog.create {
    id := event.eventId
    organizationId := event.organizationId
    userId := some event.aggregateId
    action := event.eventType
    resource := "user"
    metadata := setMember (dropMembers ["ip", "userAgent"] event.payload) "eventId"
      (.string event.eventId)
    ipAddress := textMember event.payload "ip"
    userAgent := textMember event.payload "userAgent"
    createdAt := event.occurredAt }

def handleOrganizationEvent (event : DomainEvent) : Except Failure AuditLog :=
  let affectedUserId := textMember event.payload "userId"
  let metadata := dropMembers ["userId"] event.payload
  let metadata := match affectedUserId.filter (· ≠ "") with
    | some userId => setMember metadata "memberUserId" (.string userId)
    | none => metadata
  AuditLog.create {
    id := event.eventId
    organizationId := some (event.organizationId.getD event.aggregateId)
    userId := affectedUserId
    action := event.eventType
    resource := "organization"
    metadata := setMember (setMember metadata "eventId" (.string event.eventId)) "organizationId"
      (.string event.aggregateId)
    ipAddress := none
    userAgent := none
    createdAt := event.occurredAt }

/-! ## Notifications -/

/-- `OrganizationEventPayload`, as far as it is read. -/
structure OrganizationEventPayload where
  userId : Option String
  role : Option String
  oldRole : Option String

/-- A text that may be missing, unless something else is there. -/
def optionalText (members : List (String × Json)) (name : String) : Option (Option String) :=
  match members.lookup name with
  | none => some none
  | some (.string text) => some (some text)
  | some _ => none

/-- `organizationEventPayloadSchema.safeParse` -/
def parseOrganizationPayload (formats : IdFormats) (members : List (String × Json)) :
    Option OrganizationEventPayload := do
  let _ ← optionalText members "slug"
  let _ ← optionalText members "name"
  let userId ← (optionalText members "userId").filter fun userId => userId.all formats.isZodUuid
  let role ← optionalText members "role"
  let oldRole ← optionalText members "oldRole"
  let _ ← (optionalText members "action").filter fun action =>
    action.all (["INSERT", "UPDATE", "DELETE"].contains ·)
  pure { userId, role, oldRole }

/-- The organization, the member and the payload of an event that notifies somebody. -/
def membershipOf (formats : IdFormats) (event : DomainEvent) :
    Option (String × String × OrganizationEventPayload) := do
  let organizationId ← event.organizationId.filter (· ≠ "")
  let payload ← parseOrganizationPayload formats event.payload
  let userId ← payload.userId.filter (· ≠ "")
  pure (organizationId, userId, payload)

def jsonOrNull (text : Option String) : Json := (text.map Json.string).getD .null

def handleMemberAdded (formats : IdFormats) (event : DomainEvent) : Option Notification :=
  (membershipOf formats event).map fun (organizationId, userId, payload) =>
    { id := event.eventId, organizationId, userId
      type := "organization.member_added"
      title := "Welcome to the organization"
      body := "You were added as a member."
      data := [("role", jsonOrNull payload.role)]
      createdAt := event.occurredAt }

def handleRoleUpdated (formats : IdFormats) (event : DomainEvent) : Option Notification :=
  (membershipOf formats event).map fun (organizationId, userId, payload) =>
    { id := event.eventId, organizationId, userId
      type := "organization.member_role_updated"
      title := "Your role changed"
      body := "Your role is now \"" ++ payload.role.getD "member" ++ "\"."
      data := [("role", jsonOrNull payload.role), ("previousRole", jsonOrNull payload.oldRole)]
      createdAt := event.occurredAt }

/-! ## Listeners -/

inductive Listener where
  | userAudit
  | organizationAudit
  | memberAdded
  | roleUpdated
  deriving DecidableEq, Repr

/-- `users.*` or `organizations.*`: two segments, the first of which is this one. -/
def inStream (stream eventType : String) : Bool :=
  match eventType.toList.splitOn '.' with
  | [first, _] => first = stream.toList
  | _ => false

def Listener.hears (listener : Listener) (eventType : String) : Bool :=
  match listener with
  | .userAudit => inStream "users" eventType
  | .organizationAudit => inStream "organizations" eventType
  | .memberAdded => eventType = "organizations.member_added"
  | .roleUpdated => eventType = "organizations.member_role_updated"

inductive Row where
  | audit (row : AuditLog)
  | notification (row : Notification)

/-- The row that a listener makes of an event, if it makes one. -/
def Listener.row (listener : Listener) (formats : IdFormats) (event : DomainEvent) :
    Except Failure (Option Row) :=
  match listener with
  | .userAudit => (handleUserEvent event).map fun row => some (.audit row)
  | .organizationAudit => (handleOrganizationEvent event).map fun row => some (.audit row)
  | .memberAdded => .ok ((handleMemberAdded formats event).map .notification)
  | .roleUpdated => .ok ((handleRoleUpdated formats event).map .notification)

/-- A row as its columns of the type `uuid` keep it, unless one of them refuses its text. -/
def AuditLog.stored (formats : IdFormats) (row : AuditLog) : Option AuditLog := do
  let id ← formats.uuidIn row.id
  let organizationId ← row.organizationId.mapM formats.uuidIn
  let userId ← row.userId.mapM formats.uuidIn
  pure { row with id, organizationId, userId }

def Notification.stored (formats : IdFormats) (row : Notification) : Option Notification := do
  let id ← formats.uuidIn row.id
  let organizationId ← formats.uuidIn row.organizationId
  let userId ← formats.uuidIn row.userId
  pure { row with id, organizationId, userId }

/-- The primary key of `audit_logs` is the id with the time. -/
def AuditLog.sameKey (other row : AuditLog) : Bool :=
  other.id == row.id && other.createdAt == row.createdAt

def Notification.sameKey (other row : Notification) : Bool := other.id == row.id

structure Tables where
  auditLogs : List AuditLog := []
  notifications : List Notification := []

/-- How an insertion ends; a duplicate is a conflict with the primary key. -/
inductive Insertion where
  | inserted (tables : Tables)
  | duplicate
  | rejected

def Tables.insert (tables : Tables) (formats : IdFormats) : Row → Insertion
  | .audit row =>
      match row.stored formats with
      | none => .rejected
      | some row =>
          if tables.auditLogs.any fun other => other.sameKey row then .duplicate
          else .inserted { tables with auditLogs := row :: tables.auditLogs }
  | .notification row =>
      match row.stored formats with
      | none => .rejected
      | some row =>
          if tables.notifications.any fun other => other.sameKey row then .duplicate
          else .inserted { tables with notifications := row :: tables.notifications }

/-- A listener may fail before its row is written or after. -/
inductive Fault where
  | none
  | before
  | after
  deriving DecidableEq, Repr

/-- `append` and `create`: a duplicate is no failure. -/
def Tables.append (tables : Tables) (formats : IdFormats) (fault : Fault) (row : Row) :
    Tables × Bool :=
  match fault, tables.insert formats row with
  | .before, _ => (tables, false)
  | .none, .inserted after => (after, true)
  | .none, .duplicate => (tables, true)
  | .none, .rejected => (tables, false)
  | .after, .inserted after => (after, false)
  | .after, _ => (tables, false)

/-- What a listener does with an event, and whether it succeeds. -/
def Listener.handle (listener : Listener) (formats : IdFormats) (event : DomainEvent)
    (fault : Fault) (tables : Tables) : Tables × Bool :=
  match listener.row formats event with
  | .error _ => (tables, false)
  | .ok none => (tables, fault = .none)
  | .ok (some row) => tables.append formats fault row

/-! ## Deliveries -/

/-- One of the times that an event is handed to its listeners, with those that are done. -/
structure Delivery where
  event : DomainEvent
  results : List (Listener × Bool) := []

structure DeliveryWorld where
  recorded : List DomainEvent
  tables : Tables
  deliveries : List Delivery

inductive DeliveryAction where
  | record (event : DomainEvent)
  | deliver (position : Nat)
  | handle (delivery : Nat) (listener : Listener) (fault : Fault)

/-- Two events have one id. -/
def sameId (formats : IdFormats) (first second : DomainEvent) : Bool :=
  first.eventId == second.eventId ||
    (formats.uuidIn first.eventId).isSome &&
      formats.uuidIn first.eventId == formats.uuidIn second.eventId

/-- Events are recorded once, and delivered and handled any number of times in any order. -/
def deliveryStep (formats : IdFormats) (world : DeliveryWorld) :
    DeliveryAction → Option DeliveryWorld
  | .record event =>
      if world.recorded.any fun other => sameId formats other event then none
      else some { world with recorded := event :: world.recorded }
  | .deliver position => do
      let event ← world.recorded[position]?
      some { world with deliveries := world.deliveries ++ [{ event }] }
  | .handle number listener fault => do
      let delivery ← world.deliveries[number]?
      if listener.hears delivery.event.eventType ∧ listener ∉ delivery.results.map (·.1) then
        let (tables, succeeded) := listener.handle formats delivery.event fault world.tables
        some { world with
          tables
          deliveries := world.deliveries.set number { delivery with
            results := (listener, succeeded) :: delivery.results } }
      else none

def deliverySystem (formats : IdFormats) : TransitionSystem DeliveryWorld DeliveryAction where
  initial world := world.recorded = [] ∧ world.tables = {} ∧ world.deliveries = []
  step := deliveryStep formats

def Delivery.Succeeded (delivery : Delivery) : Prop :=
  ∀ listener : Listener, listener.hears delivery.event.eventType = true →
    (listener, true) ∈ delivery.results

instance (delivery : Delivery) : Decidable delivery.Succeeded :=
  decidable_of_iff (∀ listener ∈ [Listener.userAudit, .organizationAudit, .memberAdded,
      .roleUpdated], listener.hears delivery.event.eventType = true →
    (listener, true) ∈ delivery.results)
    ⟨fun succeeded listener => succeeded listener (by cases listener <;> decide),
      fun succeeded listener _ => succeeded listener⟩

/-- The row of the event with this id in its table. -/
def hasId (formats : IdFormats) (event : DomainEvent) (id : String) : Bool :=
  formats.uuidIn event.eventId = some id

end NestjsFastify.Outbox
