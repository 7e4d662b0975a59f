import Mathlib.Data.Finset.Card
import Mathlib.Logic.Function.Basic
import NestjsFastify.TransitionSystem

/-! # Connection leases of web sockets

Replicas cap the sockets of one client address by leases, the members of a sorted set in Redis.  A
handshake acquires a lease, every pass of the revalidation renews it, and a disconnect releases it.
The scripts that a replica sends over its connection run in the order in which it has sent them.
-/
namespace NestjsFastify.WsConnections

/-! ### The scripts -/

def connTtlMs : Nat := 600000

/-- The members of a sorted set with their scores, and the time at which its key expires. -/
structure LeaseSet where
  entries : List (Nat × Nat) := []
  expiresAt : Nat := 0
  deriving DecidableEq, Repr

namespace LeaseSet

/-- What a script finds at the key. -/
def current (now : Nat) (leases : LeaseSet) : LeaseSet :=
  if leases.expiresAt < now then {} else leases

/-- `ACQUIRE_CONNECTION_SCRIPT`, which was sent at another time than it is executed. -/
def acquire (now sentAt member : Nat) (leases : LeaseSet) : LeaseSet where
  entries := (((leases.current now).entries.filter fun (_, score) => sentAt < score).filter
    fun (other, _) => other ≠ member) ++ [(member, sentAt + connTtlMs)]
  expiresAt := now + connTtlMs

/-- `zrem` -/
def remove (member : Nat) (leases : LeaseSet) : LeaseSet :=
  { leases with entries := leases.entries.filter fun (other, _) => other ≠ member }

/-- `RELEASE_CONNECTION_SCRIPT` -/
def release (now member : Nat) (leases : LeaseSet) : LeaseSet :=
  if ((leases.current now).remove member).entries = [] then {}
  else (leases.current now).remove member

def members (leases : LeaseSet) : List Nat := leases.entries.map Prod.fst

/-- Every member has one score, which is not later than the expiry of the key. -/
structure WellFormed (now : Nat) (leases : LeaseSet) : Prop where
  distinct : leases.members.Nodup
  score : ∀ entry ∈ leases.entries, connTtlMs ≤ entry.2 ∧ entry.2 ≤ leases.expiresAt
  expiry : leases.expiresAt ≤ now + connTtlMs

section
variable {now sentAt member : Nat} {leases : LeaseSet} {entry : Nat × Nat}

theorem mem_current : entry ∈ (leases.current now).entries ↔
    entry ∈ leases.entries ∧ now ≤ leases.expiresAt := by
  unfold current
  split_ifs with expired
  · simp [Nat.not_le.mpr expired]
  · simp [Nat.not_lt.mp expired]

theorem mem_acquire : entry ∈ (leases.acquire now sentAt member).entries ↔
    (entry ∈ (leases.current now).entries ∧ entry.1 ≠ member ∧ sentAt < entry.2) ∨
      entry = (member, sentAt + connTtlMs) := by
  simp [acquire]

theorem mem_release : entry ∈ (leases.release now member).entries ↔
    entry ∈ (leases.current now).entries ∧ entry.1 ≠ member := by
  unfold release
  split_ifs with empty
  · have none := List.filter_eq_nil_iff.mp empty
    simp only [List.not_mem_nil, false_iff, not_and, not_not]
    exact fun own => by simpa using none entry own
  · simp [remove]

theorem WellFormed.current (wellFormed : leases.WellFormed now) :
    (leases.current now).WellFormed now := by
  unfold LeaseSet.current
  split_ifs
  · exact ⟨List.nodup_nil, fun _ impossible => absurd impossible List.not_mem_nil, Nat.zero_le _⟩
  · exact wellFormed

theorem WellFormed.acquire (wellFormed : leases.WellFormed now) (sent : sentAt ≤ now) :
    (leases.acquire now sentAt member).WellFormed now where
  distinct := by
    have kept : ((((leases.current now).entries.filter fun (_, score) => sentAt < score).filter
        fun (other, _) => other ≠ member).map Prod.fst).Nodup :=
      wellFormed.current.distinct.sublist
        ((List.filter_sublist.trans List.filter_sublist).map Prod.fst)
    simp only [members, LeaseSet.acquire, List.map_append, List.map_singleton]
    refine List.nodup_append.mpr ⟨kept, List.nodup_singleton _, ?_⟩
    intro other own fresh new
    obtain ⟨entry, within, rfl⟩ := List.mem_map.mp own
    rw [List.mem_singleton.mp new]
    simpa using (List.mem_filter.mp within).2
  score entry own := by
    have expires : (leases.acquire now sentAt member).expiresAt = now + connTtlMs := rfl
    rcases mem_acquire.mp own with ⟨old, -, -⟩ | rfl
    · have bounds := wellFormed.current.score entry old
      have expiry := wellFormed.current.expiry
      omega
    · exact ⟨Nat.le_add_left _ _, by simp only [expires]; omega⟩
  expiry := Nat.le_refl _

theorem WellFormed.release (wellFormed : leases.WellFormed now) :
    (leases.release now member).WellFormed now := by
  unfold LeaseSet.release
  split_ifs
  · exact ⟨List.nodup_nil, fun _ impossible => absurd impossible List.not_mem_nil, Nat.zero_le _⟩
  · exact ⟨wellFormed.current.distinct.sublist (List.filter_sublist.map Prod.fst),
      fun entry own => wellFormed.current.score entry (List.mem_filter.mp own).1,
      wellFormed.current.expiry⟩

theorem WellFormed.later (wellFormed : leases.WellFormed now) (milliseconds : Nat) :
    leases.WellFormed (now + milliseconds) :=
  ⟨wellFormed.distinct, wellFormed.score, wellFormed.expiry.trans (by omega)⟩

end

end LeaseSet

/-- `WsConnectionLease` -/
structure ConnectionLease where
  key : String
  member : Nat
  deriving DecidableEq, Repr

/-- A script with the time at which it was sent; the response to the first, the second and the third
is awaited. -/
inductive LeaseScript where
  | acquire (sentAt : Nat)
  | renew (sentAt : Nat)
  | releaseExcess
  | release
  deriving DecidableEq, Repr

structure LeaseCommand where
  lease : ConnectionLease
  script : LeaseScript
  deriving DecidableEq, Repr

/-- The time that an acquisition or a renewal was sent. -/
def LeaseCommand.sentAt? (command : LeaseCommand) : Option Nat :=
  match command.script with
  | .acquire sentAt => some sentAt
  | .renew sentAt => some sentAt
  | .releaseExcess => none
  | .release => none

def LeaseCommand.run (now : Nat) (command : LeaseCommand) (leases : LeaseSet) : LeaseSet :=
  match command.sentAt? with
  | some sentAt => leases.acquire now sentAt command.lease.member
  | none => leases.release now command.lease.member

/-! ### Sockets and replicas -/

inductive SocketPhase where
  | absent
  | checkingSession
  | acquiring
  | acquired (count : Nat)
  | releasingExcess
  | excessReleased
  | connected
  | disconnected
  /-- The client has gone before the end of the handshake. -/
  | dropped
  | refused
  deriving DecidableEq, Repr

structure WebSocket where
  phase : SocketPhase := .absent
  isOpen : Bool := true
  connectionLease : Option ConnectionLease := none
  deriving DecidableEq, Repr

/-- What the handshake of a socket gets in response. -/
def WebSocket.receive (script : LeaseScript) (count : Nat) (socket : WebSocket) : WebSocket :=
  match script, socket.phase with
  | .acquire _, .acquiring => { socket with phase := .acquired count }
  | .releaseExcess, .releasingExcess => { socket with phase := .excessReleased }
  | _, _ => socket

/-- `revalidateSocket` of one socket, after it was found to be connected. -/
inductive RevalidationStage where
  | waiting
  | checking
  | renewing
  | renewed
  deriving DecidableEq, Repr

inductive ReplicaPhase where
  | running
  | stopping
  | stopped
  deriving DecidableEq, Repr

structure Replica where
  phase : ReplicaPhase := .running
  connected : List Nat := []
  revalidation : List (Nat × RevalidationStage) := []
  deriving DecidableEq, Repr

namespace Replica

def finish (socket : Nat) (replica : Replica) : Replica :=
  { replica with revalidation := replica.revalidation.filter fun (other, _) => other ≠ socket }

def enter (socket : Nat) (stage : RevalidationStage) (replica : Replica) : Replica :=
  { replica with revalidation := (replica.finish socket).revalidation ++ [(socket, stage)] }

def receive (script : LeaseScript) (socket : Nat) (replica : Replica) : Replica :=
  match script with
  | .renew _ =>
      if (socket, .renewing) ∈ replica.revalidation then replica.enter socket .renewed else replica
  | _ => replica

end Replica

/-- The sockets and the replica that each is on; the address is what `resolveClientIp` gives. -/
structure WsSetup where
  replicaOf : Nat → Nat
  clientIp : Nat → Option String
  maxConcurrentPerIp : Nat

/-- The lease of a socket. -/
def WsSetup.leaseOf (setup : WsSetup) (socket : Nat) : Option ConnectionLease :=
  (setup.clientIp socket).map fun ip => ⟨"ws:conn:" ++ ip, socket⟩

/-- The members for which a release has been executed are recorded, for the statements below. -/
structure ConnectionWorld where
  now : Nat := 0
  leases : String → LeaseSet := fun _ => {}
  queues : Nat → List LeaseCommand := fun _ => []
  replicas : Nat → Replica := fun _ => {}
  sockets : Nat → WebSocket := fun _ => {}
  released : List Nat := []

namespace ConnectionWorld

def setSocket (world : ConnectionWorld) (id : Nat) (socket : WebSocket) : ConnectionWorld :=
  { world with sockets := Function.update world.sockets id socket }

def setReplica (world : ConnectionWorld) (name : Nat) (replica : Replica) : ConnectionWorld :=
  { world with replicas := Function.update world.replicas name replica }

def send (world : ConnectionWorld) (name : Nat) (commands : List LeaseCommand) : ConnectionWorld :=
  { world with queues := Function.update world.queues name (world.queues name ++ commands) }

/-- The first script of a replica is executed and answered. -/
def execute (world : ConnectionWorld) (name : Nat) (command : LeaseCommand)
    (rest : List LeaseCommand) : ConnectionWorld where
  now := world.now
  leases := Function.update world.leases command.lease.key
    (command.run world.now (world.leases command.lease.key))
  queues := Function.update world.queues name rest
  replicas := Function.update world.replicas name
    ((world.replicas name).receive command.script command.lease.member)
  sockets := Function.update world.sockets command.lease.member
    ((world.sockets command.lease.member).receive command.script
      (command.run world.now (world.leases command.lease.key)).entries.length)
  released := if command.sentAt? = none then command.lease.member :: world.released
    else world.released

end ConnectionWorld

inductive ConnectionEvent where
  | connect (socket : Nat)
  | session (socket : Nat) (valid : Bool)
  | answered (socket : Nat)
  | close (socket : Nat)
  | execute (replica : Nat)
  | tick (replica : Nat)
  | wake (socket : Nat)
  | revalidated (socket : Nat) (valid : Bool)
  | settle (socket : Nat)
  | shutdown (replica : Nat)
  | releaseLeases (replica : Nat)
  | elapse (milliseconds : Nat)
  deriving DecidableEq, Repr

section Steps
variable (setup : WsSetup) (world : ConnectionWorld)

/-- The replica of a socket. -/
def home (id : Nat) : Replica := world.replicas (setup.replicaOf id)

/-- `next()`; a connection that is gone by then never becomes a socket of the namespace, and its
`disconnect` handler is never called. -/
def acceptSocket (id : Nat) (connectionLease : Option ConnectionLease) : ConnectionWorld :=
  if (world.sockets id).isOpen then
    (world.setSocket id { phase := .connected, isOpen := true, connectionLease }).setReplica
      (setup.replicaOf id)
      { home setup world id with connected := (home setup world id).connected ++ [id] }
  else world.setSocket id { phase := .dropped, isOpen := false, connectionLease }

/-- `releaseWsConnectionLease` of the sockets. -/
def releaseConnectionLeases (sockets : List Nat) : List LeaseCommand :=
  sockets.flatMap fun id => (world.sockets id).connectionLease.toList.map (⟨·, .release⟩)

/-- `disconnect` of a connected socket. -/
def disconnect (id : Nat) : ConnectionWorld :=
  ((world.setReplica (setup.replicaOf id)
    { home setup world id with
      connected := (home setup world id).connected.filter (· ≠ id) }).setSocket id
    { world.sockets id with phase := .disconnected, isOpen := false }).send
    (setup.replicaOf id) (releaseConnectionLeases world [id])

/-- `createWsAuthMiddleware` after the session check. -/
def middlewareSession (id : Nat) (valid : Bool) : ConnectionWorld :=
  if valid then
    match setup.leaseOf id with
    | some lease =>
        (world.setSocket id { world.sockets id with phase := .acquiring }).send
          (setup.replicaOf id) [⟨lease, .acquire world.now⟩]
    | none => acceptSocket setup world id none
  else world.setSocket id { world.sockets id with phase := .refused }

/-- `createWsAuthMiddleware` after the acquisition. -/
def middlewareAcquired (id count : Nat) : ConnectionWorld :=
  if setup.maxConcurrentPerIp < count then
    (world.setSocket id { world.sockets id with phase := .releasingExcess }).send
      (setup.replicaOf id) ((setup.leaseOf id).toList.map (⟨·, .releaseExcess⟩))
  else acceptSocket setup world id (setup.leaseOf id)

/-- `revalidateSocket` after the session check; the lease is kept in the data of the socket also
after a disconnect. -/
def revalidateSocket (id : Nat) (valid : Bool) : ConnectionWorld :=
  if valid then
    match (world.sockets id).connectionLease with
    | some lease =>
        (world.setReplica (setup.replicaOf id) ((home setup world id).enter id .renewing)).send
          (setup.replicaOf id) [⟨lease, .renew world.now⟩]
    | none => world.setReplica (setup.replicaOf id) ((home setup world id).finish id)
  else
    let finished := world.setReplica (setup.replicaOf id) ((home setup world id).finish id)
    if (world.sockets id).phase = .connected then disconnect setup finished id else finished

def connectionStep : ConnectionEvent → Option ConnectionWorld
  | .connect id =>
      if (world.sockets id).phase = .absent then
        some (world.setSocket id { phase := .checkingSession })
      else none
  | .session id valid =>
      if (world.sockets id).phase = .checkingSession then
        some (middlewareSession setup world id valid)
      else none
  | .answered id =>
      match (world.sockets id).phase with
      | .acquired count => some (middlewareAcquired setup world id count)
      | .excessReleased =>
          some (world.setSocket id { world.sockets id with phase := .refused })
      | _ => none
  | .close id =>
      if (world.sockets id).phase = .connected then some (disconnect setup world id)
      else some (world.setSocket id { world.sockets id with isOpen := false })
  | .execute name =>
      match world.queues name with
      | command :: rest => some (world.execute name command rest)
      | [] => none
  | .tick name =>
      if (world.replicas name).phase = .running ∧ (world.replicas name).revalidation = [] then
        some (world.setReplica name { world.replicas name with
          revalidation := (world.replicas name).connected.map (·, .waiting) })
      else none
  | .wake id =>
      if (id, .waiting) ∈ (home setup world id).revalidation then
        some (world.setReplica (setup.replicaOf id)
          (if (home setup world id).phase = .running then (home setup world id).enter id .checking
          else (home setup world id).finish id))
      else none
  | .revalidated id valid =>
      if (id, .checking) ∈ (home setup world id).revalidation then
        some (revalidateSocket setup world id valid)
      else none
  | .settle id =>
      if (id, .renewed) ∈ (home setup world id).revalidation then
        some (world.setReplica (setup.replicaOf id) ((home setup world id).finish id))
      else none
  | .shutdown name =>
      if (world.replicas name).phase = .running then
        some (world.setReplica name { world.replicas name with phase := .stopping })
      else none
  | .releaseLeases name =>
      if (world.replicas name).phase = .stopping ∧ (world.replicas name).revalidation = [] then
        some ((world.setReplica name { world.replicas name with phase := .stopped }).send name
          (releaseConnectionLeases world (world.replicas name).connected))
      else none
  | .elapse milliseconds => some { world with now := world.now + milliseconds }

end Steps

def connectionSystem (setup : WsSetup) : TransitionSystem ConnectionWorld ConnectionEvent where
  initial world := ∃ now, world = { now }
  step := connectionStep setup

end NestjsFastify.WsConnections
