import Mathlib.Data.Option.Basic

/-! # Records of idempotent requests

The request that creates the record of a key owns it, and is the only one that may complete or
release it.  A pending record lapses with its lock, a completed one with its time to be replayed.
-/
namespace NestjsFastify.Idempotency

/-- The record of a key: in progress, or with the response to be replayed. -/
inductive IdempotencyRecord where
  | pending (fingerprint : String) (ownerToken : Nat)
  | completed (fingerprint : String) (status : Option Nat) (contentType body : Option String)
  deriving DecidableEq, Repr

/-- `record.state ~= 'pending' or record.ownerToken ~= ARGV[1]`, the other way round -/
def IdempotencyRecord.ownedBy (ownerToken : Nat) : IdempotencyRecord → Bool
  | pending _ owner => owner = ownerToken
  | completed .. => false

/-- The value of the key, and when it expires. -/
structure StoredRecord where
  record : IdempotencyRecord
  expiresAt : Nat
  deriving DecidableEq, Repr

/-- The key as a command finds it. -/
def live (now : Nat) (stored : Option StoredRecord) : Option StoredRecord :=
  stored.filter fun stored => now ≤ stored.expiresAt

/-- The commands of the store: those of `acquire`, and the scripts of `complete` and `release`. -/
inductive StoreCommand where
  | setNx (fingerprint : String) (ownerToken lockTtlMs : Nat)
  | get
  | completeIfOwner (ownerToken : Nat) (completed : IdempotencyRecord) (recordTtlMs : Nat)
  | releaseIfOwner (ownerToken : Nat)
  deriving DecidableEq, Repr

/-- The token that the command brings with it. -/
def StoreCommand.ownerToken : StoreCommand → Option Nat
  | setNx _ ownerToken _ => some ownerToken
  | get => none
  | completeIfOwner ownerToken _ _ => some ownerToken
  | releaseIfOwner ownerToken => some ownerToken

inductive StoreReply where
  | done (success : Bool)
  | found (record : Option IdempotencyRecord)
  deriving DecidableEq, Repr

/-- What Redis makes of a command. -/
def StoreCommand.run (now : Nat) (stored : Option StoredRecord) :
    StoreCommand → Option StoredRecord × StoreReply
  | setNx fingerprint ownerToken lockTtlMs =>
      match live now stored with
      | some found => (some found, .done false)
      | none => (some ⟨.pending fingerprint ownerToken, now + lockTtlMs⟩, .done true)
  | get => (live now stored, .found ((live now stored).map StoredRecord.record))
  | completeIfOwner ownerToken completed recordTtlMs =>
      match live now stored with
      | some found =>
          if found.record.ownedBy ownerToken then (some ⟨completed, now + recordTtlMs⟩, .done true)
          else (some found, .done false)
      | none => (none, .done false)
  | releaseIfOwner ownerToken =>
      match live now stored with
      | some found =>
          if found.record.ownedBy ownerToken then (none, .done true)
          else (some found, .done false)
      | none => (none, .done false)

variable {now : Nat} {stored : Option StoredRecord} {found : StoredRecord}

/-- Only the owner of a record changes it: `complete` and `release` of another request leave it, and
nobody acquires it. -/
theorem run_of_not_owned (present : live now stored = some found) {command : StoreCommand}
    (other : ∀ ownerToken ∈ command.ownerToken, found.record.ownedBy ownerToken = false) :
    (command.run now stored).1 = some found := by
  cases command with
  | setNx | get => simp [StoreCommand.run, present]
  | completeIfOwner ownerToken | releaseIfOwner ownerToken =>
    simp [StoreCommand.run, present, other ownerToken rfl]

/-- The owner of a pending record completes it. -/
theorem complete_of_owned (present : live now stored = some found) {ownerToken : Nat}
    (owned : found.record.ownedBy ownerToken = true) (completed : IdempotencyRecord)
    (recordTtlMs : Nat) :
    (StoreCommand.completeIfOwner ownerToken completed recordTtlMs).run now stored =
      (some ⟨completed, now + recordTtlMs⟩, .done true) := by
  simp [StoreCommand.run, present, owned]

theorem mem_of_live (present : live now stored = some found) : found ∈ stored :=
  (Option.mem_filter_iff.mp present).1

theorem live_of_le (unexpired : now ≤ found.expiresAt) : live now (some found) = some found := by
  simp [live, unexpired]

theorem live_of_lt (expired : found.expiresAt < now) : live now (some found) = none := by
  simp [live, expired]

end NestjsFastify.Idempotency
