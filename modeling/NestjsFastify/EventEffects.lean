import NestjsFastify.EventListeners
import NestjsFastify.RecordTable

/-! # One row for each event

However often an event is delivered, and whatever fails meanwhile, its rows are written once.
-/
namespace NestjsFastify.Outbox

/-- What the audit log is to say of an event. -/
def AuditOf (formats : IdFormats) (event : DomainEvent) (row : AuditLog) : Prop :=
  ∃ listener : Listener, listener.hears event.eventType = true ∧
    ∃ made, listener.row formats event = .ok (some (.audit made)) ∧ made.stored formats = some row

/-- What the member is to be told of an event. -/
def NotificationOf (formats : IdFormats) (event : DomainEvent) (row : Notification) : Prop :=
  ∃ listener : Listener, listener.hears event.eventType = true ∧
    ∃ made, listener.row formats event = .ok (some (.notification made)) ∧
      made.stored formats = some row

def isAudited (event : DomainEvent) : Bool :=
  inStream "users" event.eventType || inStream "organizations" event.eventType

def isMembership (event : DomainEvent) : Bool :=
  event.eventType = "organizations.member_added" ||
    event.eventType = "organizations.member_role_updated"

def notifies (listener : Listener) : Bool := listener = .memberAdded || listener = .roleUpdated

/-- Rows are written once for an event and say what it says, and they are there once a delivery
has succeeded; a membership event that names its organization and its member notifies, and for
another one a listener returns without writing and without failing. -/
structure ExactlyOnce (formats : IdFormats) (world : DeliveryWorld) : Prop where
  auditOnce : ∀ event ∈ world.recorded,
    world.tables.auditLogs.countP (fun row => hasId formats event row.id) ≤ 1
  notificationOnce : ∀ event ∈ world.recorded,
    world.tables.notifications.countP (fun row => hasId formats event row.id) ≤ 1
  auditContents : ∀ row ∈ world.tables.auditLogs, ∃ event ∈ world.recorded,
    AuditOf formats event row ∧
      ∀ other ∈ world.recorded, hasId formats other row.id = true → other = event
  notificationContents : ∀ row ∈ world.tables.notifications, ∃ event ∈ world.recorded,
    NotificationOf formats event row ∧
      ∀ other ∈ world.recorded, hasId formats other row.id = true → other = event
  audited : ∀ delivery ∈ world.deliveries, delivery.Succeeded → isAudited delivery.event = true →
    ∃ row ∈ world.tables.auditLogs, hasId formats delivery.event row.id = true
  notified : ∀ delivery ∈ world.deliveries, delivery.Succeeded →
    isMembership delivery.event = true → (membershipOf formats delivery.event).isSome = true →
      ∃ row ∈ world.tables.notifications, hasId formats delivery.event row.id = true
  unnotified : ∀ event ∈ world.recorded, membershipOf formats event = none →
    world.tables.notifications.countP (fun row => hasId formats event row.id) = 0 ∧
      ∀ listener, notifies listener = true →
        listener.handle formats event .none world.tables = (world.tables, true)

/-! ## The rows of an event -/

section
variable {formats : IdFormats} {event : DomainEvent}

theorem of_create {input row : AuditLog} (created : AuditLog.create input = .ok row) :
    row = input := by
  unfold AuditLog.create at created
  split_ifs at created
  exact (Except.ok.inj created).symm

private theorem of_map_audit {made : Except Failure AuditLog} {row : AuditLog}
    (same : (made.map fun row => some (Row.audit row)) = .ok (some (.audit row))) :
    made = .ok row := by
  cases made with
  | error failure => simp [Except.map] at same
  | ok entry => simpa [Except.map] using same

/-- An audit log has the id of its event and its time. -/
theorem audit_key {listener : Listener} {row : AuditLog}
    (made : listener.row formats event = .ok (some (.audit row))) :
    row.id = event.eventId ∧ row.createdAt = event.occurredAt := by
  cases listener with
  | userAudit => rw [of_create (of_map_audit made)]; exact ⟨rfl, rfl⟩
  | organizationAudit => rw [of_create (of_map_audit made)]; exact ⟨rfl, rfl⟩
  | memberAdded => cases told : handleMemberAdded formats event <;> simp [Listener.row, told] at made
  | roleUpdated => cases told : handleRoleUpdated formats event <;> simp [Listener.row, told] at made

theorem notification_key {listener : Listener} {row : Notification}
    (made : listener.row formats event = .ok (some (.notification row))) :
    row.id = event.eventId := by
  cases listener with
  | userAudit => cases kept : handleUserEvent event <;> simp [Listener.row, kept, Except.map] at made
  | organizationAudit =>
    cases kept : handleOrganizationEvent event <;> simp [Listener.row, kept, Except.map] at made
  | memberAdded =>
    simp only [Listener.row, handleMemberAdded, Option.map_map, Except.ok.injEq] at made
    obtain ⟨named, -, same⟩ := Option.map_eq_some_iff.mp made
    rw [← Row.notification.inj same]
  | roleUpdated =>
    simp only [Listener.row, handleRoleUpdated, Option.map_map, Except.ok.injEq] at made
    obtain ⟨named, -, same⟩ := Option.map_eq_some_iff.mp made
    rw [← Row.notification.inj same]

theorem AuditLog.stored_key {row kept : AuditLog} (stored : row.stored formats = some kept) :
    formats.uuidIn row.id = some kept.id ∧ kept.createdAt = row.createdAt := by
  simp only [AuditLog.stored, Option.bind_eq_bind, Option.bind_eq_some_iff, Option.pure_def,
    Option.some.injEq] at stored
  obtain ⟨id, parsed, _, _, _, _, rfl⟩ := stored
  exact ⟨parsed, rfl⟩

theorem Notification.stored_key {row kept : Notification}
    (stored : row.stored formats = some kept) : formats.uuidIn row.id = some kept.id := by
  simp only [Notification.stored, Option.bind_eq_bind, Option.bind_eq_some_iff, Option.pure_def,
    Option.some.injEq] at stored
  obtain ⟨id, parsed, _, _, _, _, rfl⟩ := stored
  exact parsed

theorem AuditOf.key {row : AuditLog} (said : AuditOf formats event row) :
    formats.uuidIn event.eventId = some row.id ∧ row.createdAt = event.occurredAt := by
  obtain ⟨listener, -, made, row, stored⟩ := said
  obtain ⟨id, time⟩ := audit_key row
  obtain ⟨parsed, sameTime⟩ := AuditLog.stored_key stored
  exact ⟨id ▸ parsed, sameTime.trans time⟩

theorem NotificationOf.key {row : Notification} (told : NotificationOf formats event row) :
    formats.uuidIn event.eventId = some row.id := by
  obtain ⟨listener, -, made, row, stored⟩ := told
  exact notification_key row ▸ Notification.stored_key stored

end

/-! ## Writing a row -/

/-- The table holds a row with the id of this one. -/
def Tables.Kept (tables : Tables) (formats : IdFormats) : Row → Prop
  | .audit made => ∃ row ∈ tables.auditLogs, formats.uuidIn made.id = some row.id
  | .notification made => ∃ row ∈ tables.notifications, formats.uuidIn made.id = some row.id

def Tables.Grows (before after : Tables) : Prop :=
  before.auditLogs ⊆ after.auditLogs ∧ before.notifications ⊆ after.notifications

/-- The keys of the tables are unique, and every row is one of a recorded event. -/
structure TablesSound (formats : IdFormats) (recorded : List DomainEvent) (tables : Tables) :
    Prop where
  auditUnique : RecordTable.Unique AuditLog.sameKey tables.auditLogs
  notificationUnique : RecordTable.Unique Notification.sameKey tables.notifications
  auditOrigin : ∀ row ∈ tables.auditLogs, ∃ event ∈ recorded, AuditOf formats event row
  notificationOrigin : ∀ row ∈ tables.notifications,
    ∃ event ∈ recorded, NotificationOf formats event row

section
variable {formats : IdFormats} {recorded : List DomainEvent} {event : DomainEvent}
  {tables after : Tables} {listener : Listener} {row : Row}

theorem Tables.Grows.refl (tables : Tables) : tables.Grows tables :=
  ⟨List.Subset.refl _, List.Subset.refl _⟩

theorem Tables.Kept.mono (grows : tables.Grows after) (kept : tables.Kept formats row) :
    after.Kept formats row := by
  cases row with
  | audit made =>
    obtain ⟨row, member, same⟩ := kept
    exact ⟨row, grows.1 member, same⟩
  | notification made =>
    obtain ⟨row, member, same⟩ := kept
    exact ⟨row, grows.2 member, same⟩

/-- A row with the key of a row that is there is kept already. -/
theorem kept_of_duplicate (duplicate : tables.insert formats row = .duplicate) :
    tables.Kept formats row := by
  cases row with
  | audit made =>
    cases stored : made.stored formats with
    | none => simp [Tables.insert, stored] at duplicate
    | some kept =>
      simp only [Tables.insert, stored, ite_eq_left_iff, reduceCtorEq, imp_false,
        Decidable.not_not, List.any_eq_true] at duplicate
      obtain ⟨other, member, same⟩ := duplicate
      have id : other.id = kept.id := by
        simpa using (Bool.and_eq_true_iff.mp same).1
      exact ⟨other, member, id ▸ (AuditLog.stored_key stored).1⟩
  | notification made =>
    cases stored : made.stored formats with
    | none => simp [Tables.insert, stored] at duplicate
    | some kept =>
      simp only [Tables.insert, stored, ite_eq_left_iff, reduceCtorEq, imp_false,
        Decidable.not_not, List.any_eq_true] at duplicate
      obtain ⟨other, member, same⟩ := duplicate
      have id : other.id = kept.id := by simpa [Notification.sameKey] using same
      exact ⟨other, member, id ▸ Notification.stored_key stored⟩

/-- What an insertion adds is kept, and the tables stay sound. -/
theorem TablesSound.insert (sound : TablesSound formats recorded tables)
    (member : event ∈ recorded) (hears : listener.hears event.eventType = true)
    (made : listener.row formats event = .ok (some row))
    (inserted : tables.insert formats row = .inserted after) :
    TablesSound formats recorded after ∧ tables.Grows after ∧ after.Kept formats row := by
  cases row with
  | audit entry =>
    cases stored : entry.stored formats with
    | none => simp [Tables.insert, stored] at inserted
    | some kept =>
      simp only [Tables.insert, stored] at inserted
      split_ifs at inserted with taken
      obtain rfl := Insertion.inserted.inj inserted
      refine ⟨{
          auditUnique := RecordTable.unique_cons.mpr ⟨by simpa using taken, sound.auditUnique⟩
          notificationUnique := sound.notificationUnique
          auditOrigin := List.forall_mem_cons.mpr
            ⟨⟨event, member, listener, hears, entry, made, stored⟩, sound.auditOrigin⟩
          notificationOrigin := sound.notificationOrigin },
        ⟨List.subset_cons_self _ _, List.Subset.refl _⟩, kept, List.mem_cons_self,
        (AuditLog.stored_key stored).1⟩
  | notification entry =>
    cases stored : entry.stored formats with
    | none => simp [Tables.insert, stored] at inserted
    | some kept =>
      simp only [Tables.insert, stored] at inserted
      split_ifs at inserted with taken
      obtain rfl := Insertion.inserted.inj inserted
      refine ⟨{
          auditUnique := sound.auditUnique
          notificationUnique :=
            RecordTable.unique_cons.mpr ⟨by simpa using taken, sound.notificationUnique⟩
          auditOrigin := sound.auditOrigin
          notificationOrigin := List.forall_mem_cons.mpr
            ⟨⟨event, member, listener, hears, entry, made, stored⟩, sound.notificationOrigin⟩ },
        ⟨List.Subset.refl _, List.subset_cons_self _ _⟩, kept, List.mem_cons_self,
        Notification.stored_key stored⟩

/-- What a listener leaves of an event when it succeeds. -/
def Effect (formats : IdFormats) (tables : Tables) (listener : Listener) (event : DomainEvent) :
    Prop :=
  ∃ made, listener.row formats event = .ok made ∧ ∀ row ∈ made, tables.Kept formats row

theorem Effect.mono (grows : tables.Grows after) (effect : Effect formats tables listener event) :
    Effect formats after listener event := by
  obtain ⟨made, same, kept⟩ := effect
  exact ⟨made, same, fun row rowMem => (kept row rowMem).mono grows⟩

/-- The tables are sound after a listener, whether or not it fails, and its row is there when it
does not. -/
theorem TablesSound.handle (sound : TablesSound formats recorded tables)
    (member : event ∈ recorded) (hears : listener.hears event.eventType = true) (fault : Fault) :
    let (after, succeeded) := listener.handle formats event fault tables
    TablesSound formats recorded after ∧ tables.Grows after ∧
      (succeeded = true → Effect formats after listener event) := by
  have unchanged : TablesSound formats recorded tables ∧ tables.Grows tables ∧
      (false = true → Effect formats tables listener event) :=
    ⟨sound, .refl tables, nofun⟩
  unfold Listener.handle
  cases made : listener.row formats event with
  | error failure => exact unchanged
  | ok result =>
    cases result with
    | none => exact ⟨sound, .refl tables, fun _ => ⟨none, made, nofun⟩⟩
    | some row =>
      cases insertion : tables.insert formats row with
      | inserted after =>
        obtain ⟨afterSound, grows, kept⟩ := sound.insert member hears made insertion
        have effect : Effect formats after listener event :=
          ⟨some row, made, fun _ same => Option.mem_some.mp same ▸ kept⟩
        cases fault with
        | none => simpa [Tables.append, insertion] using ⟨afterSound, grows, effect⟩
        | before => simpa [Tables.append] using unchanged
        | after => simpa [Tables.append, insertion] using ⟨afterSound, grows⟩
      | duplicate =>
        have effect : Effect formats tables listener event :=
          ⟨some row, made, fun _ same => Option.mem_some.mp same ▸ kept_of_duplicate insertion⟩
        cases fault with
        | none => simpa [Tables.append, insertion] using ⟨sound, .refl tables, effect⟩
        | before => simpa [Tables.append] using unchanged
        | after => simpa [Tables.append, insertion] using unchanged
      | rejected =>
        cases fault with
        | none => simpa [Tables.append, insertion] using unchanged
        | before => simpa [Tables.append] using unchanged
        | after => simpa [Tables.append, insertion] using unchanged

end

/-! ## Runs -/

structure DeliverySound (formats : IdFormats) (world : DeliveryWorld) : Prop where
  recordedUnique : RecordTable.Unique (sameId formats) world.recorded
  tablesSound : TablesSound formats world.recorded world.tables
  known : ∀ delivery ∈ world.deliveries, delivery.event ∈ world.recorded
  effects : ∀ delivery ∈ world.deliveries, ∀ listener, (listener, true) ∈ delivery.results →
    Effect formats world.tables listener delivery.event

section
variable {formats : IdFormats} {before world : DeliveryWorld} {action : DeliveryAction}
  {history : List (DeliveryWorld × DeliveryAction)}

theorem TablesSound.mono {recorded more : List DomainEvent} {tables : Tables}
    (sound : TablesSound formats recorded tables) (subset : recorded ⊆ more) :
    TablesSound formats more tables where
  auditUnique := sound.auditUnique
  notificationUnique := sound.notificationUnique
  auditOrigin row member :=
    (sound.auditOrigin row member).imp fun _ ⟨eventMem, said⟩ => ⟨subset eventMem, said⟩
  notificationOrigin row member :=
    (sound.notificationOrigin row member).imp fun _ ⟨eventMem, told⟩ => ⟨subset eventMem, told⟩

theorem DeliverySound.step (sound : DeliverySound formats before)
    (taken : deliveryStep formats before action = some world) : DeliverySound formats world := by
  cases action with
  | record event =>
    simp only [deliveryStep] at taken
    split_ifs at taken with present
    obtain rfl := Option.some.inj taken
    exact {
      recordedUnique := RecordTable.unique_cons.mpr ⟨by simpa using present, sound.recordedUnique⟩
      tablesSound := sound.tablesSound.mono (List.subset_cons_self _ _)
      known := fun delivery member => List.mem_cons_of_mem _ (sound.known delivery member)
      effects := sound.effects }
  | deliver position =>
    simp only [deliveryStep, Option.bind_eq_bind, Option.bind_eq_some_iff, Option.some.injEq]
      at taken
    obtain ⟨event, found, rfl⟩ := taken
    exact {
      recordedUnique := sound.recordedUnique
      tablesSound := sound.tablesSound
      known := List.forall_mem_append.mpr ⟨sound.known,
        List.forall_mem_singleton.mpr (List.mem_of_getElem? found)⟩
      effects := List.forall_mem_append.mpr ⟨sound.effects,
        List.forall_mem_singleton.mpr fun _ member => absurd member (List.not_mem_nil)⟩ }
  | handle number listener fault =>
    simp only [deliveryStep, Option.bind_eq_bind, Option.bind_eq_some_iff] at taken
    obtain ⟨delivery, found, taken⟩ := taken
    split_ifs at taken with allowed
    obtain rfl := Option.some.inj taken
    have member := List.mem_of_getElem? found
    have handled := sound.tablesSound.handle (sound.known delivery member) allowed.1 fault
    generalize listener.handle formats delivery.event fault before.tables = result at handled ⊢
    obtain ⟨after, succeeded⟩ := result
    obtain ⟨afterSound, grows, effect⟩ := handled
    refine {
      recordedUnique := sound.recordedUnique
      tablesSound := afterSound
      known := fun other otherMem => ?_
      effects := fun other otherMem heard succeededMem => ?_ }
    · rcases List.mem_or_eq_of_mem_set otherMem with earlier | rfl
      · exact sound.known other earlier
      · exact sound.known delivery member
    · rcases List.mem_or_eq_of_mem_set otherMem with earlier | rfl
      · exact (sound.effects other earlier heard succeededMem).mono grows
      · rcases List.mem_cons.mp succeededMem with here | before
        · obtain ⟨rfl, rfl⟩ := Prod.mk.inj here
          exact effect rfl
        · exact (sound.effects delivery member heard before).mono grows

theorem deliverySound_of_run (run : (deliverySystem formats).Run history world) :
    DeliverySound formats world := by
  refine run.invariant (fun world initial => ?_) fun _ _ _ sound taken => sound.step taken
  obtain ⟨recorded, tables, deliveries⟩ := initial
  constructor
  · simp [recorded, RecordTable.Unique]
  · rw [recorded, tables]
    exact ⟨.nil, .nil, by simp, by simp⟩
  · simp [deliveries]
  · simp [deliveries]

theorem sameId_symm (first second : DomainEvent) :
    sameId formats first second = sameId formats second first := by
  rw [Bool.eq_iff_iff]
  simp only [sameId, Bool.or_eq_true, Bool.and_eq_true, beq_iff_eq]
  constructor
  · rintro (same | ⟨parses, same⟩)
    · exact .inl same.symm
    · exact .inr ⟨same ▸ parses, same.symm⟩
  · rintro (same | ⟨parses, same⟩)
    · exact .inl same.symm
    · exact .inr ⟨same ▸ parses, same.symm⟩

/-- Recorded events whose ids are the id of one row are the same event. -/
theorem DeliverySound.eq_of_id (sound : DeliverySound formats world) {first second : DomainEvent}
    {id : String} (firstMem : first ∈ world.recorded) (secondMem : second ∈ world.recorded)
    (firstId : formats.uuidIn first.eventId = some id)
    (secondId : formats.uuidIn second.eventId = some id) : first = second := by
  apply sound.recordedUnique.eq sameId_symm firstMem secondMem
  simp [sameId, firstId, secondId]

theorem hasId_iff {event : DomainEvent} {id : String} :
    hasId formats event id = true ↔ formats.uuidIn event.eventId = some id := by
  simp [hasId]

theorem DeliverySound.auditOnce (sound : DeliverySound formats world) (event : DomainEvent) :
    world.tables.auditLogs.countP (fun row => hasId formats event row.id) ≤ 1 := by
  apply sound.tablesSound.auditUnique.countP_le_one
  intro first firstMem second secondMem firstId secondId
  obtain ⟨one, oneMem, oneSaid⟩ := sound.tablesSound.auditOrigin first firstMem
  obtain ⟨two, twoMem, twoSaid⟩ := sound.tablesSound.auditOrigin second secondMem
  have sameIds : first.id = second.id :=
    Option.some.inj ((hasId_iff.mp firstId).symm.trans (hasId_iff.mp secondId))
  have sameEvent : one = two :=
    sound.eq_of_id oneMem twoMem oneSaid.key.1 (sameIds ▸ twoSaid.key.1)
  have sameTimes : first.createdAt = second.createdAt := by
    rw [oneSaid.key.2, twoSaid.key.2, sameEvent]
  simp [AuditLog.sameKey, sameIds, sameTimes]

theorem DeliverySound.notificationOnce (sound : DeliverySound formats world)
    (event : DomainEvent) :
    world.tables.notifications.countP (fun row => hasId formats event row.id) ≤ 1 := by
  apply sound.tablesSound.notificationUnique.countP_le_one
  intro first firstMem second secondMem firstId secondId
  have sameIds : first.id = second.id :=
    Option.some.inj ((hasId_iff.mp firstId).symm.trans (hasId_iff.mp secondId))
  simp [Notification.sameKey, sameIds]

/-- The audit log of an event that succeeded is there. -/
theorem DeliverySound.audited (sound : DeliverySound formats world) {delivery : Delivery}
    (member : delivery ∈ world.deliveries) (succeeded : delivery.Succeeded)
    (audited : isAudited delivery.event = true) :
    ∃ row ∈ world.tables.auditLogs, hasId formats delivery.event row.id = true := by
  have kept_of_effect : ∀ (listener : Listener) (entry : Except Failure AuditLog),
      listener.hears delivery.event.eventType = true →
      (listener.row formats delivery.event = entry.map fun row => some (.audit row)) →
      ∃ row ∈ world.tables.auditLogs, hasId formats delivery.event row.id = true := by
    intro listener entry hears rowOf
    obtain ⟨made, same, kept⟩ := sound.effects delivery member listener (succeeded listener hears)
    cases entry with
    | error failure => simp [rowOf, Except.map] at same
    | ok entry =>
      obtain rfl : some (.audit entry) = made := Except.ok.inj (rowOf.symm.trans same)
      obtain ⟨row, rowMem, id⟩ := kept _ rfl
      rw [(audit_key rowOf).1] at id
      exact ⟨row, rowMem, hasId_iff.mpr id⟩
  rcases Bool.or_eq_true_iff.mp audited with users | organizations
  · exact kept_of_effect .userAudit _ users rfl
  · exact kept_of_effect .organizationAudit _ organizations rfl

/-- So is the notification of a membership event that names its organization and its member. -/
theorem DeliverySound.notified (sound : DeliverySound formats world) {delivery : Delivery}
    (member : delivery ∈ world.deliveries) (succeeded : delivery.Succeeded)
    (membership : isMembership delivery.event = true)
    (named : (membershipOf formats delivery.event).isSome = true) :
    ∃ row ∈ world.tables.notifications, hasId formats delivery.event row.id = true := by
  obtain ⟨parts, parses⟩ := Option.isSome_iff_exists.mp named
  have kept_of_effect : ∀ (listener : Listener) (told : Notification),
      listener.hears delivery.event.eventType = true →
      listener.row formats delivery.event = .ok (some (.notification told)) →
      ∃ row ∈ world.tables.notifications, hasId formats delivery.event row.id = true := by
    intro listener told hears rowOf
    obtain ⟨made, same, kept⟩ := sound.effects delivery member listener (succeeded listener hears)
    obtain rfl : some (.notification told) = made := Except.ok.inj (rowOf.symm.trans same)
    obtain ⟨row, rowMem, id⟩ := kept _ rfl
    rw [notification_key rowOf] at id
    exact ⟨row, rowMem, hasId_iff.mpr id⟩
  rcases Bool.or_eq_true_iff.mp membership with added | updated
  · exact kept_of_effect .memberAdded _ added (by rw [Listener.row, handleMemberAdded, parses]; rfl)
  · exact kept_of_effect .roleUpdated _ updated
      (by rw [Listener.row, handleRoleUpdated, parses]; rfl)

/-- A listener that would notify makes nothing of an event that does not say who is meant. -/
theorem row_eq_none {formats : IdFormats} {event : DomainEvent} {listener : Listener}
    (unnamed : membershipOf formats event = none) (own : notifies listener = true) :
    listener.row formats event = .ok none := by
  cases listener with
  | userAudit => cases own
  | organizationAudit => cases own
  | memberAdded => simp [Listener.row, handleMemberAdded, unnamed]
  | roleUpdated => simp [Listener.row, handleRoleUpdated, unnamed]

/-- Only listeners that notify make notifications. -/
theorem notifies_of_row {formats : IdFormats} {event : DomainEvent} {listener : Listener}
    {told : Notification} (made : listener.row formats event = .ok (some (.notification told))) :
    notifies listener = true := by
  cases listener with
  | userAudit => cases kept : handleUserEvent event <;> simp [Listener.row, kept, Except.map] at made
  | organizationAudit =>
    cases kept : handleOrganizationEvent event <;> simp [Listener.row, kept, Except.map] at made
  | memberAdded => rfl
  | roleUpdated => rfl

theorem DeliverySound.unnotified (sound : DeliverySound formats world) {event : DomainEvent}
    (member : event ∈ world.recorded) (unnamed : membershipOf formats event = none) :
    world.tables.notifications.countP (fun row => hasId formats event row.id) = 0 := by
  refine List.countP_eq_zero.mpr fun row rowMem id => ?_
  obtain ⟨told, toldMem, origin⟩ := sound.tablesSound.notificationOrigin row rowMem
  obtain rfl : event = told := sound.eq_of_id member toldMem (hasId_iff.mp id) origin.key
  obtain ⟨listener, -, made, rowOf, -⟩ := origin
  rw [row_eq_none unnamed (notifies_of_row rowOf)] at rowOf
  cases rowOf

theorem exactlyOnce_of_run (run : (deliverySystem formats).Run history world) :
    ExactlyOnce formats world := by
  have sound := deliverySound_of_run run
  exact {
    auditOnce := fun event _ => sound.auditOnce event
    notificationOnce := fun event _ => sound.notificationOnce event
    auditContents := fun row member => by
      obtain ⟨event, eventMem, said⟩ := sound.tablesSound.auditOrigin row member
      exact ⟨event, eventMem, said, fun other otherMem otherId =>
        sound.eq_of_id otherMem eventMem (hasId_iff.mp otherId) said.key.1⟩
    notificationContents := fun row member => by
      obtain ⟨event, eventMem, told⟩ := sound.tablesSound.notificationOrigin row member
      exact ⟨event, eventMem, told, fun other otherMem otherId =>
        sound.eq_of_id otherMem eventMem (hasId_iff.mp otherId) told.key⟩
    audited := fun delivery member => sound.audited member
    notified := fun delivery member => sound.notified member
    unnotified := fun event member unnamed => ⟨sound.unnotified member unnamed,
      fun listener own => by simp [Listener.handle, row_eq_none unnamed own]⟩ }

end

/-! ### Particular deliveries -/

/-- A database that takes any text for an id. -/
def anyText : IdFormats where
  uuidIn := some
  isZodUuid _ := true

/-- A member is added, and the event does not name the member. -/
def unnamedMember : DomainEvent where
  eventId := "01890a5d-ac96-774b-bcce-b302099a8057"
  eventType := "organizations.member_added"
  aggregateId := "01890a5d-ac96-774b-bcce-b302099a8001"
  occurredAt := 0
  payload := [("role", .string "member")]
  organizationId := some "01890a5d-ac96-774b-bcce-b302099a8001"

/-- The audit log fails after its write, and both listeners succeed when the event comes again. -/
def redelivery (event : DomainEvent) : List DeliveryAction :=
  [.record event, .deliver 0, .handle 0 .organizationAudit .after, .deliver 0,
    .handle 1 .memberAdded .none, .handle 1 .organizationAudit .none]

def emptyTables : DeliveryWorld where
  recorded := []
  tables := {}
  deliveries := []

/-- A member is added, and the event names the member. -/
def namedMember : DomainEvent :=
  { unnamedMember with
    payload := [("userId", .string "01890a5d-ac96-774b-bcce-b302099a8002"),
      ("role", .string "member")] }

/-- Both rows are written once though the event comes three times. -/
theorem exactlyOnce_example : ∃ history world,
    (deliverySystem anyText).Run history world ∧ ExactlyOnce anyText world ∧
      (world.tables.auditLogs.length = 1 ∧ world.tables.notifications.length = 1 ∧
        world.deliveries.length = 3) := by
  obtain ⟨history, world, run, -, -, passed⟩ := @TransitionSystem.run_of_execute _ _ (deliverySystem anyText)
    (fun _ _ => true) (fun _ _ => True) (fun _ _ _ => trivial) emptyTables
    (redelivery namedMember ++ [.deliver 0, .handle 2 .memberAdded .none])
    (fun world => world.tables.auditLogs.length = 1 && (world.tables.notifications.length = 1 &&
      world.deliveries.length = 3)) ⟨rfl, rfl, rfl⟩ (by decide +kernel)
  exact ⟨history, world, run, exactlyOnce_of_run run, by simpa using passed⟩

/-- The member that is not named is not notified, though both listeners succeed. -/
theorem unnamedMember_silent : ∃ history world,
    (deliverySystem anyText).Run history world ∧ ∃ delivery ∈ world.deliveries,
      delivery.Succeeded ∧ isMembership delivery.event = true ∧
        world.tables.notifications.countP (fun row => hasId anyText delivery.event row.id) = 0 := by
  obtain ⟨history, world, run, -, -, passed⟩ := @TransitionSystem.run_of_execute _ _ (deliverySystem anyText)
    (fun _ _ => true) (fun _ _ => True) (fun _ _ _ => trivial) emptyTables (redelivery unnamedMember)
    (fun world => world.deliveries.any fun delivery => delivery.Succeeded &&
      (isMembership delivery.event &&
        world.tables.notifications.countP (fun row => hasId anyText delivery.event row.id) = 0))
    ⟨rfl, rfl, rfl⟩ (by decide +kernel)
  obtain ⟨delivery, member, succeeded⟩ := List.any_eq_true.mp passed
  simp only [Bool.and_eq_true, decide_eq_true_eq] at succeeded
  exact ⟨history, world, run, delivery, member, succeeded.1, succeeded.2.1, succeeded.2.2⟩

end NestjsFastify.Outbox
