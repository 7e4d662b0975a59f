import NestjsFastify.WsLeaseOrder

/-! # The cap on the sockets of an address

As long as no lease of a live socket lapses, the sockets of an address that have been accepted and
not released are at most as many as the cap allows.  A released member stays out of the set as long
as the revalidation renews leases of connected sockets only, and no member is left behind as long as
the clients stay until the end of the handshake; neither is checked.
-/
namespace NestjsFastify.WsConnections
open TransitionSystem (Guarded)

/-! ### The property -/

/-- A socket that was connected. -/
def WebSocket.Accepted (socket : WebSocket) : Prop :=
  socket.phase = .connected ∨ socket.phase = .disconnected

/-- A socket that was accepted, or that will be if the client stays. -/
def WebSocket.Live (cap : Nat) (socket : WebSocket) : Prop :=
  match socket.phase with
  | .acquired count => count ≤ cap ∧ socket.isOpen = true
  | .connected => True
  | .disconnected => True
  | _ => False

/-- The handshake of the socket is about its lease, or the socket is connected. -/
def WebSocket.Holding (socket : WebSocket) : Prop :=
  match socket.phase with
  | .acquiring => True
  | .acquired _ => True
  | .connected => True
  | _ => False

/-- The leases of live sockets that are not released are not over. -/
def ConnectionWorld.Unlapsed (setup : WsSetup) (world : ConnectionWorld) : Prop :=
  ∀ id, (world.sockets id).Live setup.maxConcurrentPerIp → id ∉ world.released →
    ∀ key score, (id, score) ∈ (world.leases key).entries → world.now < score

/-- A client whose lease is within the cap has not gone when the middleware goes on. -/
def StaysForHandshake (setup : WsSetup) (world : ConnectionWorld) (event : ConnectionEvent) : Prop :=
  ∀ id count, event = .answered id → (world.sockets id).phase = .acquired count →
    count ≤ setup.maxConcurrentPerIp → (world.sockets id).isOpen = true

/-- What the leases are for. -/
structure ConnectionCap (setup : WsSetup) (world : ConnectionWorld) : Prop where
  capped : ∀ ip (sockets : Finset Nat),
    (∀ id ∈ sockets, setup.clientIp id = some ip ∧ (world.sockets id).Accepted ∧
      id ∉ world.released) → sockets.card ≤ setup.maxConcurrentPerIp
  released : ∀ id ∈ world.released, ∀ key, id ∉ (world.leases key).members
  /-- Every member is of a socket that holds it or whose release is under way. -/
  accounted : ∀ key, ∀ id ∈ (world.leases key).members,
    (world.sockets id).Holding ∨ world.Releasing id

variable {setup : WsSetup} {history : ConnectionHistory} {world : ConnectionWorld}

/-! ### Members that count -/

/-- The member is in a set, or a script under way adds it to one. -/
def ConnectionWorld.Present (world : ConnectionWorld) (id : Nat) : Prop :=
  (∃ key, id ∈ (world.leases key).members) ∨
    ∃ name, ∃ command ∈ world.queues name, command.sentAt? ≠ none ∧ command.lease.member = id

/-- Every member is of a socket that holds it or releases it; a connected socket knows its lease. -/
structure Accounted (setup : WsSetup) (world : ConnectionWorld) : Prop where
  present : ∀ id, world.Present id → (world.sockets id).Holding ∨ world.Releasing id
  lease : ∀ id, (world.sockets id).phase = .connected →
    (world.sockets id).connectionLease = setup.leaseOf id

/-- A member that is present is of a socket with a lease. -/
theorem Placed.leaseOf_of_present (placed : Placed setup world) {id : Nat}
    (present : world.Present id) : ∃ lease, setup.leaseOf id = some lease ∧ lease.member = id := by
  rcases present with ⟨key, member⟩ | ⟨name, command, queued, -, rfl⟩
  · exact ⟨_, placed.member key id member, rfl⟩
  · exact ⟨command.lease, (placed.command name command queued).2.1, rfl⟩

theorem Releasing.send {id name : Nat} {commands : List LeaseCommand}
    (releasing : world.Releasing id) : (world.send name commands).Releasing id := by
  obtain ⟨other, command, queued, removes, same⟩ := releasing
  refine ⟨other, command, ?_, removes, same⟩
  rcases eq_or_ne other name with rfl | different
  · simp only [ConnectionWorld.send, Function.update_self]
    exact List.mem_append_left _ queued
  · simpa [ConnectionWorld.send, different] using queued

/-- What is present after scripts were sent was so, or one of them adds it. -/
theorem present_of_send {id name : Nat} {commands : List LeaseCommand}
    (present : (world.send name commands).Present id) : world.Present id ∨
      ∃ command ∈ commands, command.sentAt? ≠ none ∧ command.lease.member = id := by
  rcases present with inside | ⟨other, command, queued, adds, same⟩
  · exact .inl (.inl inside)
  · rcases eq_or_ne other name with rfl | different
    · simp only [ConnectionWorld.send, Function.update_self, List.mem_append] at queued
      rcases queued with old | new
      · exact .inl (.inr ⟨other, command, old, adds, same⟩)
      · exact .inr ⟨command, new, adds, same⟩
    · simp only [ConnectionWorld.send, Function.update_of_ne different] at queued
      exact .inl (.inr ⟨other, command, queued, adds, same⟩)

theorem holding_receive {script : LeaseScript} {count : Nat} {socket : WebSocket}
    (holding : socket.Holding) : (socket.receive script count).Holding := by
  unfold WebSocket.receive
  split
  next => trivial
  next waits => simp [WebSocket.Holding, waits] at holding
  next => exact holding

theorem connected_of_receive {script : LeaseScript} {count : Nat} {socket : WebSocket}
    (connected : (socket.receive script count).phase = .connected) : socket.phase = .connected := by
  unfold WebSocket.receive at connected
  split at connected
  next => cases connected
  next => cases connected
  next => exact connected

section Accounted
variable (accounted : Accounted setup world)
include accounted

theorem Accounted.setSocket {id : Nat} {socket : WebSocket}
    (holding : (world.sockets id).Holding → socket.Holding)
    (lease : socket.phase = .connected → socket.connectionLease = setup.leaseOf id) :
    Accounted setup (world.setSocket id socket) where
  present other present := by
    refine (accounted.present other present).imp_left fun held => ?_
    rcases eq_or_ne other id with rfl | different
    · simpa [ConnectionWorld.setSocket] using holding held
    · simpa [ConnectionWorld.setSocket, different] using held
  lease other := by
    rcases eq_or_ne other id with rfl | different
    · simpa [ConnectionWorld.setSocket] using lease
    · simpa [ConnectionWorld.setSocket, different] using accounted.lease other

theorem Accounted.setReplica (name : Nat) (replica : Replica) :
    Accounted setup (world.setReplica name replica) :=
  ⟨accounted.present, accounted.lease⟩

/-- A script for a socket that holds its lease is sent. -/
theorem Accounted.sendAdding {name : Nat} {command : LeaseCommand}
    (holding : (world.sockets command.lease.member).Holding) :
    Accounted setup (world.send name [command]) where
  present id present := by
    rcases present_of_send present with before | ⟨other, member, -, rfl⟩
    · exact (accounted.present id before).imp_right Releasing.send
    · rw [List.mem_singleton.mp member]
      exact .inl holding
  lease := accounted.lease

theorem Accounted.sendReleases {name : Nat} {commands : List LeaseCommand}
    (removes : ∀ command ∈ commands, command.sentAt? = none) :
    Accounted setup (world.send name commands) where
  present id present := by
    rcases present_of_send present with before | ⟨command, member, adds, -⟩
    · exact (accounted.present id before).imp_right Releasing.send
    · exact absurd (removes command member) adds
  lease := accounted.lease

/-- A socket gives its lease up, and the release is sent. -/
theorem Accounted.retire (placed : Placed setup world) {id name : Nat} {socket : WebSocket}
    {script : LeaseScript} (apart : socket.phase ≠ .connected)
    (removes : ∀ lease, LeaseCommand.sentAt? ⟨lease, script⟩ = none) :
    Accounted setup ((world.setSocket id socket).send name
      ((setup.leaseOf id).toList.map (⟨·, script⟩))) where
  present other present := by
    rcases present_of_send present with before | ⟨command, member, adds, -⟩
    · rcases eq_or_ne other id with rfl | different
      · obtain ⟨lease, leased, same⟩ := placed.leaseOf_of_present before
        refine .inr ⟨name, ⟨lease, script⟩, ?_, removes lease, same⟩
        simp [ConnectionWorld.send, leased]
      · refine (accounted.present other before).imp (fun held => ?_) Releasing.send
        simpa [ConnectionWorld.setSocket, ConnectionWorld.send, different] using held
    · obtain ⟨lease, -, rfl⟩ := List.mem_map.mp member
      exact absurd (removes lease) adds
  lease other := by
    rcases eq_or_ne other id with rfl | different
    · simpa [ConnectionWorld.setSocket, ConnectionWorld.send] using fun same => absurd same apart
    · simpa [ConnectionWorld.setSocket, ConnectionWorld.send, different] using accounted.lease other

theorem Accounted.acceptSocket {id : Nat} {connectionLease : Option ConnectionLease}
    (lease : (world.sockets id).isOpen = true → connectionLease = setup.leaseOf id)
    (stays : (world.sockets id).Holding → (world.sockets id).isOpen = true) :
    Accounted setup (acceptSocket setup world id connectionLease) := by
  unfold WsConnections.acceptSocket
  split_ifs with isOpen
  · have connected : Accounted setup (world.setSocket id
        { phase := .connected, isOpen := true, connectionLease }) :=
      accounted.setSocket (fun _ => trivial) fun _ => lease isOpen
    exact connected.setReplica _ _
  · exact accounted.setSocket (fun held => absurd (stays held) isOpen) (by simp)

theorem Accounted.disconnect (placed : Placed setup world) {id : Nat}
    (connected : (world.sockets id).phase = .connected) :
    Accounted setup (disconnect setup world id) := by
  have gone : Placed setup (world.setReplica (setup.replicaOf id)
      { home setup world id with
        connected := (home setup world id).connected.filter (· ≠ id) }) :=
    placed.setReplica (fun other member => placed.connected _ other (List.mem_filter.mp member).1)
      (placed.stopped _)
  have releases : releaseConnectionLeases world [id] =
      (setup.leaseOf id).toList.map (⟨·, .release⟩) := by
    simp [releaseConnectionLeases, accounted.lease id connected]
  unfold WsConnections.disconnect
  rw [releases]
  exact (accounted.setReplica _ _).retire gone (by simp) fun _ => rfl

theorem Accounted.execute (placed : Placed setup world) (ordered : Ordered setup world) {name : Nat}
    {command : LeaseCommand} {rest : List LeaseCommand}
    (queued : world.queues name = command :: rest) :
    Accounted setup (world.execute name command rest) := by
  have after := ordered.execute placed queued
  constructor
  case present =>
    intro id present
    by_cases own : command.sentAt? = none ∧ command.lease.member = id
    · -- a member whose release is executed is in no set, and no script adds it
      obtain ⟨removes, rfl⟩ := own
      have gone : command.lease.member ∈ (world.execute name command rest).released := by
        simp [ConnectionWorld.execute, removes]
      rcases present with ⟨key, member⟩ | ⟨other, later, waits, adds, same⟩
      · exact absurd member (after.absent _ gone key)
      · exact absurd same (after.awaited _ gone other later waits adds)
    · have waits : ∀ other, ∀ later ∈ (world.execute name command rest).queues other,
          later ∈ world.queues other := by
        intro other later member
        rcases eq_or_ne other name with rfl | different
        · simp only [ConnectionWorld.execute, Function.update_self] at member
          exact queued ▸ List.mem_cons_of_mem _ member
        · simpa [ConnectionWorld.execute, different] using member
      have before : world.Present id := by
        rcases present with ⟨key, member⟩ | ⟨other, later, member, adds, same⟩
        · rcases eq_or_ne key command.lease.key with rfl | different
          · simp only [ConnectionWorld.execute, Function.update_self] at member
            rcases mem_members_run member with old | rfl
            · exact .inl ⟨_, old⟩
            · exact .inr ⟨name, command, queued ▸ List.mem_cons_self,
                fun removes => own ⟨removes, rfl⟩, rfl⟩
          · simp only [ConnectionWorld.execute, Function.update_of_ne different] at member
            exact .inl ⟨key, member⟩
        · exact .inr ⟨other, later, waits other later member, adds, same⟩
      refine (accounted.present id before).imp (fun held => ?_) fun releasing => ?_
      · simp only [ConnectionWorld.execute]
        rcases eq_or_ne id command.lease.member with rfl | different
        · rw [Function.update_self]
          exact holding_receive held
        · rwa [Function.update_of_ne different]
      · obtain ⟨other, later, member, removes, same⟩ := releasing
        refine ⟨other, later, ?_, removes, same⟩
        rcases eq_or_ne other name with rfl | different
        · simp only [ConnectionWorld.execute, Function.update_self]
          rw [queued] at member
          refine (List.mem_cons.mp member).resolve_left ?_
          rintro rfl
          exact own ⟨removes, same⟩
        · simpa [ConnectionWorld.execute, different] using member
  case lease =>
    intro id connected
    simp only [ConnectionWorld.execute] at connected ⊢
    rcases eq_or_ne id command.lease.member with rfl | different
    · rw [Function.update_self] at connected ⊢
      rw [connectionLease_receive]
      exact accounted.lease _ (connected_of_receive connected)
    · rw [Function.update_of_ne different] at connected ⊢
      exact accounted.lease id connected

theorem Accounted.middlewareSession {id : Nat} (valid : Bool)
    (checking : (world.sockets id).phase = .checkingSession) :
    Accounted setup (middlewareSession setup world id valid) := by
  have idle : ¬ (world.sockets id).Holding := by simp [WebSocket.Holding, checking]
  unfold WsConnections.middlewareSession
  split_ifs
  · split
    next lease leased =>
      refine (accounted.setSocket (fun held => absurd held idle) ?_).sendAdding ?_
      · simp
      · simp [member_of_leaseOf leased, ConnectionWorld.setSocket, WebSocket.Holding]
    next none => exact accounted.acceptSocket (fun _ => none.symm) fun held => absurd held idle
  · exact accounted.setSocket (fun held => absurd held idle) (by simp)

theorem Accounted.middlewareAcquired (placed : Placed setup world) {id count : Nat}
    (stays : count ≤ setup.maxConcurrentPerIp → (world.sockets id).isOpen = true) :
    Accounted setup (middlewareAcquired setup world id count) := by
  unfold WsConnections.middlewareAcquired
  split_ifs with excess
  · exact accounted.retire placed (by simp) fun _ => rfl
  · exact accounted.acceptSocket (fun _ => rfl) fun _ => stays (Nat.not_lt.mp excess)

theorem Accounted.revalidateSocket (placed : Placed setup world) {id : Nat} {valid : Bool}
    (connected : valid = true → (world.sockets id).connectionLease ≠ none →
      (world.sockets id).phase = .connected) :
    Accounted setup (revalidateSocket setup world id valid) := by
  unfold WsConnections.revalidateSocket
  split_ifs with accepted here
  · split
    next lease own =>
      refine (accounted.setReplica _ _).sendAdding ?_
      have still := connected accepted (by simp [own])
      simp [member_of_leaseOf (placed.lease id lease own), ConnectionWorld.setReplica,
        WebSocket.Holding, still]
    next => exact accounted.setReplica _ _
  · exact (accounted.setReplica _ _).disconnect (placed.finish id) here
  · exact accounted.setReplica _ _

theorem Accounted.step (placed : Placed setup world) (ordered : Ordered setup world)
    {after : ConnectionWorld} {event : ConnectionEvent} (renews : RenewsConnected world event)
    (stays : StaysForHandshake setup world event)
    (taken : connectionStep setup world event = some after) : Accounted setup after := by
  cases event with
  | connect id =>
    simp only [connectionStep, Option.ite_none_right_eq_some, Option.some.injEq] at taken
    obtain ⟨absent, rfl⟩ := taken
    refine accounted.setSocket (fun held => ?_) (by simp)
    simp [WebSocket.Holding, absent] at held
  | session id valid =>
    simp only [connectionStep, Option.ite_none_right_eq_some, Option.some.injEq] at taken
    obtain ⟨checking, rfl⟩ := taken
    exact accounted.middlewareSession valid checking
  | answered id =>
    simp only [connectionStep] at taken
    split at taken
    next count acquired =>
      obtain rfl := Option.some.inj taken
      exact accounted.middlewareAcquired placed (stays id count rfl acquired)
    next released =>
      obtain rfl := Option.some.inj taken
      refine accounted.setSocket (fun held => ?_) (by simp)
      simp [WebSocket.Holding, released] at held
    next => cases taken
  | close id =>
    simp only [connectionStep] at taken
    split_ifs at taken with connected
    · obtain rfl := Option.some.inj taken
      exact accounted.disconnect placed connected
    · obtain rfl := Option.some.inj taken
      exact accounted.setSocket (fun held => held) (accounted.lease id)
  | execute name =>
    simp only [connectionStep] at taken
    split at taken
    next command rest queued =>
      obtain rfl := Option.some.inj taken
      exact accounted.execute placed ordered queued
    next => cases taken
  | tick name =>
    simp only [connectionStep, Option.ite_none_right_eq_some, Option.some.injEq] at taken
    obtain ⟨-, rfl⟩ := taken
    exact accounted.setReplica _ _
  | wake id =>
    simp only [connectionStep, Option.ite_none_right_eq_some, Option.some.injEq] at taken
    obtain ⟨-, rfl⟩ := taken
    exact accounted.setReplica _ _
  | revalidated id valid =>
    simp only [connectionStep, Option.ite_none_right_eq_some, Option.some.injEq] at taken
    obtain ⟨-, rfl⟩ := taken
    refine accounted.revalidateSocket placed ?_
    rintro rfl
    exact renews id rfl
  | settle id =>
    simp only [connectionStep, Option.ite_none_right_eq_some, Option.some.injEq] at taken
    obtain ⟨-, rfl⟩ := taken
    exact accounted.setReplica _ _
  | shutdown name =>
    simp only [connectionStep, Option.ite_none_right_eq_some, Option.some.injEq] at taken
    obtain ⟨-, rfl⟩ := taken
    exact accounted.setReplica _ _
  | releaseLeases name =>
    simp only [connectionStep, Option.ite_none_right_eq_some, Option.some.injEq] at taken
    obtain ⟨-, rfl⟩ := taken
    refine (accounted.setReplica _ _).sendReleases fun command member => ?_
    obtain ⟨id, -, lease, -, rfl⟩ := by simpa [releaseConnectionLeases] using member
    rfl
  | elapse milliseconds =>
    obtain rfl := Option.some.inj taken
    exact ⟨accounted.present, accounted.lease⟩

end Accounted

theorem accounted_of_run (run : (connectionSystem setup).Run history world)
    (renews : Guarded RenewsConnected history)
    (stays : Guarded (StaysForHandshake setup) history) : Accounted setup world := by
  induction run with
  | start initial =>
    obtain ⟨now, rfl⟩ := initial
    refine ⟨fun id present => ?_, fun id connected => nomatch connected⟩
    rcases present with ⟨_, impossible⟩ | ⟨_, _, impossible, -⟩
    · exact absurd impossible List.not_mem_nil
    · exact absurd impossible List.not_mem_nil
  | step run taken ih =>
    have renewsBefore := fun entry member => renews entry (List.mem_cons_of_mem _ member)
    have staysBefore := fun entry member => stays entry (List.mem_cons_of_mem _ member)
    exact (ih renewsBefore staysBefore).step (placed_of_run run) (ordered_of_run run renewsBefore)
      (renews _ List.mem_cons_self) (stays _ List.mem_cons_self) taken

/-! ### Live sockets -/

/-- Every live socket that is not released has its lease, and an address has only so many. -/
structure Kept (setup : WsSetup) (world : ConnectionWorld) : Prop where
  member : ∀ id, (world.sockets id).Live setup.maxConcurrentPerIp → id ∉ world.released →
    ∀ lease, setup.leaseOf id = some lease → id ∈ (world.leases lease.key).members
  capped : ∀ ip (sockets : Finset Nat), (∀ id ∈ sockets, setup.clientIp id = some ip ∧
    (world.sockets id).Live setup.maxConcurrentPerIp ∧ id ∉ world.released) →
      sockets.card ≤ setup.maxConcurrentPerIp

/-- A step that runs no script, after which no other socket with an address is live. -/
structure Keeps (setup : WsSetup) (world after : ConnectionWorld) : Prop where
  now : world.now ≤ after.now
  leases : after.leases = world.leases
  released : after.released = world.released
  live : ∀ id, (after.sockets id).Live setup.maxConcurrentPerIp →
    (world.sockets id).Live setup.maxConcurrentPerIp ∨ setup.clientIp id = none

theorem Kept.of_keeps {after : ConnectionWorld} (kept : Kept setup world)
    (keeps : Keeps setup world after) : Kept setup after where
  member id live unreleased lease leased := by
    obtain ⟨ip, has, -⟩ := Option.map_eq_some_iff.mp leased
    rw [keeps.leases]
    rw [keeps.released] at unreleased
    exact kept.member id ((keeps.live id live).resolve_right (by simp [has])) unreleased lease leased
  capped ip sockets all := by
    refine kept.capped ip sockets fun id own => ?_
    obtain ⟨has, live, unreleased⟩ := all id own
    rw [keeps.released] at unreleased
    exact ⟨has, (keeps.live id live).resolve_right (by simp [has]), unreleased⟩

theorem live_of_accepted {cap : Nat} {socket : WebSocket} (accepted : socket.Accepted) :
    socket.Live cap := by
  rcases accepted with connected | disconnected
  · simp [WebSocket.Live, connected]
  · simp [WebSocket.Live, disconnected]

theorem live_update {id : Nat} {socket : WebSocket}
    (live : socket.Live setup.maxConcurrentPerIp →
      (world.sockets id).Live setup.maxConcurrentPerIp ∨ setup.clientIp id = none) (other : Nat)
    (now : (Function.update world.sockets id socket other).Live setup.maxConcurrentPerIp) :
    (world.sockets other).Live setup.maxConcurrentPerIp ∨ setup.clientIp other = none := by
  rcases eq_or_ne other id with rfl | different
  · rw [Function.update_self] at now
    exact live now
  · rw [Function.update_of_ne different] at now
    exact .inl now

theorem keeps_acceptSocket {id : Nat} {connectionLease : Option ConnectionLease}
    (live : (world.sockets id).isOpen = true →
      (world.sockets id).Live setup.maxConcurrentPerIp ∨ setup.clientIp id = none) :
    Keeps setup world (acceptSocket setup world id connectionLease) := by
  unfold acceptSocket
  split_ifs with stays
  · exact ⟨le_rfl, rfl, rfl, live_update fun _ => live stays⟩
  · exact ⟨le_rfl, rfl, rfl, live_update fun impossible => impossible.elim⟩

theorem keeps_of_step {after : ConnectionWorld} {event : ConnectionEvent}
    (quiet : ∀ name, event ≠ .execute name)
    (taken : connectionStep setup world event = some after) : Keeps setup world after := by
  cases event with
  | connect id =>
    simp only [connectionStep, Option.ite_none_right_eq_some, Option.some.injEq] at taken
    obtain ⟨-, rfl⟩ := taken
    exact ⟨le_rfl, rfl, rfl, live_update fun impossible => impossible.elim⟩
  | session id valid =>
    simp only [connectionStep, Option.ite_none_right_eq_some, Option.some.injEq] at taken
    obtain ⟨-, rfl⟩ := taken
    unfold middlewareSession
    split_ifs
    · split
      next => exact ⟨le_rfl, rfl, rfl, live_update fun impossible => impossible.elim⟩
      next none =>
        have noAddress : setup.clientIp id = Option.none := Option.map_eq_none_iff.mp none
        exact keeps_acceptSocket fun _ => .inr noAddress
    · exact ⟨le_rfl, rfl, rfl, live_update fun impossible => impossible.elim⟩
  | answered id =>
    simp only [connectionStep] at taken
    split at taken
    next count acquired =>
      obtain rfl := Option.some.inj taken
      unfold middlewareAcquired
      split_ifs with excess
      · exact ⟨le_rfl, rfl, rfl, live_update fun impossible => impossible.elim⟩
      · refine keeps_acceptSocket fun stays => .inl ?_
        simp only [WebSocket.Live, acquired]
        exact ⟨Nat.not_lt.mp excess, stays⟩
    next =>
      obtain rfl := Option.some.inj taken
      exact ⟨le_rfl, rfl, rfl, live_update fun impossible => impossible.elim⟩
    next => cases taken
  | close id =>
    simp only [connectionStep] at taken
    split_ifs at taken with connected
    · obtain rfl := Option.some.inj taken
      exact ⟨le_rfl, rfl, rfl, live_update fun _ => .inl (live_of_accepted (.inl connected))⟩
    · obtain rfl := Option.some.inj taken
      refine ⟨le_rfl, rfl, rfl, live_update fun live => .inl ?_⟩
      simp only [WebSocket.Live] at live ⊢
      split at live
      next => exact absurd live.2 Bool.false_ne_true
      next => trivial
      next => trivial
      next => exact live.elim
  | execute name => exact absurd rfl (quiet name)
  | tick name =>
    simp only [connectionStep, Option.ite_none_right_eq_some, Option.some.injEq] at taken
    obtain ⟨-, rfl⟩ := taken
    exact ⟨le_rfl, rfl, rfl, fun _ => .inl⟩
  | wake id =>
    simp only [connectionStep, Option.ite_none_right_eq_some, Option.some.injEq] at taken
    obtain ⟨-, rfl⟩ := taken
    exact ⟨le_rfl, rfl, rfl, fun _ => .inl⟩
  | revalidated id valid =>
    simp only [connectionStep, Option.ite_none_right_eq_some, Option.some.injEq] at taken
    obtain ⟨-, rfl⟩ := taken
    unfold revalidateSocket
    split_ifs with accepted connected
    · split <;> exact ⟨le_rfl, rfl, rfl, fun _ => .inl⟩
    · exact ⟨le_rfl, rfl, rfl, live_update fun _ => .inl (live_of_accepted (.inl connected))⟩
    · exact ⟨le_rfl, rfl, rfl, fun _ => .inl⟩
  | settle id =>
    simp only [connectionStep, Option.ite_none_right_eq_some, Option.some.injEq] at taken
    obtain ⟨-, rfl⟩ := taken
    exact ⟨le_rfl, rfl, rfl, fun _ => .inl⟩
  | shutdown name =>
    simp only [connectionStep, Option.ite_none_right_eq_some, Option.some.injEq] at taken
    obtain ⟨-, rfl⟩ := taken
    exact ⟨le_rfl, rfl, rfl, fun _ => .inl⟩
  | releaseLeases name =>
    simp only [connectionStep, Option.ite_none_right_eq_some, Option.some.injEq] at taken
    obtain ⟨-, rfl⟩ := taken
    exact ⟨le_rfl, rfl, rfl, fun _ => .inl⟩
  | elapse milliseconds =>
    obtain rfl := Option.some.inj taken
    exact ⟨Nat.le_add_right _ _, rfl, rfl, fun _ => .inl⟩

theorem executed_of_step {after : ConnectionWorld} {event : ConnectionEvent}
    (executes : ¬ ∀ name, event ≠ .execute name)
    (taken : connectionStep setup world event = some after) : ∃ command rest name,
      world.queues name = command :: rest ∧ after = world.execute name command rest := by
  obtain ⟨name, same⟩ := not_forall.mp executes
  obtain rfl := not_not.mp same
  simp only [connectionStep] at taken
  split at taken
  next command rest queued =>
    exact ⟨command, rest, name, queued, (Option.some.inj taken).symm⟩
  next => cases taken

/-- A handshake becomes live by a response within the cap only. -/
theorem live_receive {cap count : Nat} {script : LeaseScript} {socket : WebSocket}
    (live : (socket.receive script count).Live cap) : socket.Live cap ∨ count ≤ cap := by
  unfold WebSocket.receive at live
  split at live
  next => exact .inr live.1
  next => exact live.elim
  next => exact .inl live

/-- A script takes no other member whose score is ahead. -/
theorem mem_run_of_ahead {now score id : Nat} {command : LeaseCommand} {leases : LeaseSet}
    (wellFormed : leases.WellFormed now) (sent : ∀ sentAt ∈ command.sentAt?, sentAt ≤ now)
    (own : (id, score) ∈ leases.entries) (ahead : now < score) (other : id ≠ command.lease.member) :
    (id, score) ∈ (command.run now leases).entries := by
  have found : (id, score) ∈ (leases.current now).entries :=
    LeaseSet.mem_current.mpr ⟨own, ahead.le.trans (wellFormed.score _ own).2⟩
  unfold LeaseCommand.run
  split
  next sentAt same =>
    exact LeaseSet.mem_acquire.mpr (.inl ⟨found, other, (sent sentAt same).trans_lt ahead⟩)
  next => exact LeaseSet.mem_release.mpr ⟨found, other⟩

theorem Kept.execute (kept : Kept setup world) (placed : Placed setup world)
    (unlapsed : world.Unlapsed setup) {name : Nat} {command : LeaseCommand}
    {rest : List LeaseCommand} (queued : world.queues name = command :: rest) :
    Kept setup (world.execute name command rest) := by
  obtain ⟨-, leased, sent⟩ := placed.command name command (queued ▸ List.mem_cons_self)
  have before : ∀ id, id ∉ (world.execute name command rest).released → id ∉ world.released := by
    intro id unreleased released
    refine unreleased ?_
    simp only [ConnectionWorld.execute]
    split_ifs
    · exact List.mem_cons_of_mem _ released
    · exact released
  have liveBefore : ∀ id, id ≠ command.lease.member →
      ((world.execute name command rest).sockets id).Live setup.maxConcurrentPerIp →
        (world.sockets id).Live setup.maxConcurrentPerIp := by
    intro id different live
    simpa [ConnectionWorld.execute, different] using live
  have member : ∀ id, ((world.execute name command rest).sockets id).Live
      setup.maxConcurrentPerIp → id ∉ (world.execute name command rest).released →
        ∀ lease, setup.leaseOf id = some lease →
          id ∈ ((world.execute name command rest).leases lease.key).members := by
    intro id live unreleased lease own
    rcases eq_or_ne id command.lease.member with rfl | different
    · obtain rfl := Option.some.inj (leased.symm.trans own)
      simp only [ConnectionWorld.execute] at unreleased
      split_ifs at unreleased with removes
      · exact absurd List.mem_cons_self unreleased
      · obtain ⟨sentAt, same⟩ := Option.ne_none_iff_exists'.mp removes
        simp only [ConnectionWorld.execute, Function.update_self, LeaseCommand.run, same]
        exact List.mem_map.mpr ⟨_, LeaseSet.mem_acquire.mpr (.inr rfl), rfl⟩
    · have there := kept.member id (liveBefore id different live) (before id unreleased) lease own
      rcases eq_or_ne lease.key command.lease.key with same | apart
      · rw [same] at there ⊢
        obtain ⟨⟨_, score⟩, entry, rfl⟩ := List.mem_map.mp there
        have ahead := unlapsed _ (liveBefore _ different live) (before _ unreleased) _ score entry
        simp only [ConnectionWorld.execute, Function.update_self]
        exact List.mem_map.mpr
          ⟨_, mem_run_of_ahead (placed.wellFormed _) sent entry ahead different, rfl⟩
      · simpa [ConnectionWorld.execute, apart] using there
  refine ⟨member, fun ip sockets all => ?_⟩
  by_cases fresh : command.lease.member ∈ sockets ∧
      ¬ (world.sockets command.lease.member).Live setup.maxConcurrentPerIp
  · -- the new socket counts all members of the address, among which are all live sockets
    have has := (all _ fresh.1).1
    have key : command.lease.key = "ws:conn:" ++ ip := by
      rw [WsSetup.leaseOf, has] at leased
      exact (congrArg ConnectionLease.key (Option.some.inj leased)).symm
    have count : (command.run world.now (world.leases command.lease.key)).entries.length ≤
        setup.maxConcurrentPerIp := by
      have live := (all _ fresh.1).2.1
      simp only [ConnectionWorld.execute, Function.update_self] at live
      exact (live_receive live).resolve_left fresh.2
    have distinct := (placed.execute queued).wellFormed command.lease.key
    have among : sockets ⊆
        ((world.execute name command rest).leases command.lease.key).members.toFinset := by
      intro id own
      obtain ⟨here, live, unreleased⟩ := all id own
      have lease : setup.leaseOf id = some ⟨command.lease.key, id⟩ := by
        rw [WsSetup.leaseOf, here, key]
        rfl
      have there := member id live unreleased _ lease
      exact List.mem_toFinset.mpr there
    calc sockets.card ≤ _ := Finset.card_le_card among
      _ = _ := List.toFinset_card_of_nodup distinct.distinct
      _ ≤ setup.maxConcurrentPerIp := by
        simpa [ConnectionWorld.execute, LeaseSet.members] using count
  · refine kept.capped ip sockets fun id own => ?_
    obtain ⟨here, live, unreleased⟩ := all id own
    refine ⟨here, ?_, before id unreleased⟩
    rcases eq_or_ne id command.lease.member with rfl | different
    · by_contra dead
      exact fresh ⟨own, dead⟩
    · exact liveBefore id different live

theorem kept_of_run (run : (connectionSystem setup).Run history world)
    (unlapsed : Guarded (fun world _ => world.Unlapsed setup) history) : Kept setup world := by
  induction run with
  | start initial =>
    obtain ⟨now, rfl⟩ := initial
    refine ⟨fun _ live => live.elim, fun ip sockets all => ?_⟩
    have none : sockets = ∅ :=
      Finset.eq_empty_of_forall_notMem fun id own => (all id own).2.1
    simp [none]
  | @step history before after event run taken ih =>
    have kept := ih fun entry member => unlapsed entry (List.mem_cons_of_mem _ member)
    by_cases quiet : ∀ name, event ≠ .execute name
    · exact kept.of_keeps (keeps_of_step quiet taken)
    · obtain ⟨command, rest, name, queued, rfl⟩ := executed_of_step quiet taken
      exact kept.execute (placed_of_run run) (unlapsed _ List.mem_cons_self) queued

/-! ### The cap -/

/-- The cap holds also where renewals come too late. -/
theorem capped_of_run (run : (connectionSystem setup).Run history world)
    (unlapsed : Guarded (fun world _ => world.Unlapsed setup) history) (ip : String)
    (sockets : Finset Nat) (all : ∀ id ∈ sockets, setup.clientIp id = some ip ∧
      (world.sockets id).Accepted ∧ id ∉ world.released) :
    sockets.card ≤ setup.maxConcurrentPerIp := by
  refine (kept_of_run run unlapsed).capped ip sockets fun id own => ?_
  obtain ⟨has, accepted, unreleased⟩ := all id own
  exact ⟨has, live_of_accepted accepted, unreleased⟩

theorem connectionCap_of_run (setup : WsSetup) (history : ConnectionHistory)
    (world : ConnectionWorld) (run : (connectionSystem setup).Run history world)
    (unlapsed : Guarded (fun world _ => world.Unlapsed setup) history)
    (renews : Guarded RenewsConnected history)
    (stays : Guarded (StaysForHandshake setup) history) : ConnectionCap setup world where
  capped := capped_of_run run unlapsed
  released id released key := (ordered_of_run run renews).absent id released key
  accounted key id member := (accounted_of_run run renews stays).present id (.inl ⟨key, member⟩)

/-! ### Runs -/

theorem now_le_of_step {after : ConnectionWorld} {event : ConnectionEvent}
    (taken : connectionStep setup world event = some after) : world.now ≤ after.now := by
  by_cases quiet : ∀ name, event ≠ .execute name
  · exact (keeps_of_step quiet taken).now
  · obtain ⟨command, rest, name, -, rfl⟩ := executed_of_step quiet taken
    exact le_rfl

/-- Nothing lapses in the first ten minutes. -/
theorem unlapsed_of_early (run : (connectionSystem setup).Run history world)
    (early : world.now < connTtlMs) :
    Guarded (fun world _ => world.Unlapsed setup) history := by
  induction run with
  | start => exact fun _ impossible => absurd impossible List.not_mem_nil
  | @step history before after event run taken ih =>
    have earlier : before.now < connTtlMs := (now_le_of_step taken).trans_lt early
    intro entry member
    rcases List.mem_cons.mp member with rfl | old
    · intro id _ _ key score own
      exact earlier.trans_le (((placed_of_run run).wellFormed key).score _ own).1
    · exact ih earlier entry old

/-- All sockets are of one address and on one replica. -/
def exampleSetup : WsSetup := ⟨fun _ => 0, fun _ => some "10.0.0.1", 50⟩

def renewsConnected (world : ConnectionWorld) : ConnectionEvent → Bool
  | .revalidated id true =>
      (world.sockets id).connectionLease = none || (world.sockets id).phase = .connected
  | _ => true

theorem renewsConnected_sound (world : ConnectionWorld) (event : ConnectionEvent)
    (passes : renewsConnected world event = true) : RenewsConnected world event := by
  rintro id rfl leased
  simpa [renewsConnected, leased] using passes

def staysForHandshake (setup : WsSetup) (world : ConnectionWorld) : ConnectionEvent → Bool
  | .answered id =>
      match (world.sockets id).phase with
      | .acquired count => setup.maxConcurrentPerIp < count || (world.sockets id).isOpen
      | _ => true
  | _ => true

theorem staysForHandshake_sound (world : ConnectionWorld) (event : ConnectionEvent)
    (passes : staysForHandshake setup world event = true) :
    StaysForHandshake setup world event := by
  rintro id count rfl acquired within
  simpa [staysForHandshake, acquired, Nat.not_lt.mpr within] using passes

/-- A socket is accepted, revalidated and released. -/
theorem connectionCap_example : ∃ (history : ConnectionHistory) (world : ConnectionWorld),
    ConnectionCap exampleSetup world ∧ history.length = 11 ∧ world.released = [0] := by
  obtain ⟨history, world, run, meets, actions, released⟩ :=
    @TransitionSystem.run_of_execute _ _ (connectionSystem exampleSetup)
      (fun world event => renewsConnected world event && staysForHandshake exampleSetup world event)
      (fun world event =>
        RenewsConnected world event ∧ StaysForHandshake exampleSetup world event)
      (fun world event passes =>
        have both := Bool.and_eq_true_iff.mp passes
        ⟨renewsConnected_sound world event both.1, staysForHandshake_sound world event both.2⟩) {}
      [.connect 0, .session 0 true, .execute 0, .answered 0, .tick 0, .wake 0,
        .revalidated 0 true, .execute 0, .settle 0, .close 0, .execute 0]
      (fun world => world.now = 0 && world.released = [0]) ⟨0, rfl⟩ (by decide)
  simp only [Bool.and_eq_true, decide_eq_true_eq] at released
  have early : world.now < connTtlMs := released.1 ▸ (by decide)
  refine ⟨history, world,
    connectionCap_of_run exampleSetup history world run (unlapsed_of_early run early)
      (fun entry member => (meets entry member).1) (fun entry member => (meets entry member).2), ?_,
    released.2⟩
  simpa using congrArg List.length actions

/-- A socket is closed while its session is checked once more; the renewal is sent after the release,
and puts the member back into the set.  The client of another goes before its handshake ends, and
nothing releases its lease. -/
theorem phantom_leases :
    (¬ ∀ (setup : WsSetup) (history : ConnectionHistory) world,
      (connectionSystem setup).Run history world →
      Guarded (fun world _ => world.Unlapsed setup) history →
      Guarded (StaysForHandshake setup) history → ConnectionCap setup world) ∧
    ¬ ∀ (setup : WsSetup) (history : ConnectionHistory) world,
      (connectionSystem setup).Run history world →
      Guarded (fun world _ => world.Unlapsed setup) history →
      Guarded RenewsConnected history → ConnectionCap setup world := by
  constructor
  · intro safe
    obtain ⟨history, world, run, stays, -, revived⟩ :=
      @TransitionSystem.run_of_execute _ _ (connectionSystem exampleSetup)
        (staysForHandshake exampleSetup) (StaysForHandshake exampleSetup) staysForHandshake_sound {}
        [.connect 0, .session 0 true, .execute 0, .answered 0, .tick 0, .wake 0, .close 0,
          .execute 0, .revalidated 0 true, .execute 0]
        (fun world => world.now = 0 && (world.released = [0] &&
          (world.leases "ws:conn:10.0.0.1").members = [0])) ⟨0, rfl⟩ (by decide)
    simp only [Bool.and_eq_true, decide_eq_true_eq] at revived
    obtain ⟨start, released, members⟩ := revived
    have early : world.now < connTtlMs := start ▸ (by decide)
    have cap := safe exampleSetup history world run (unlapsed_of_early run early) stays
    exact cap.released 0 (released ▸ List.mem_cons_self) "ws:conn:10.0.0.1"
      (members ▸ List.mem_cons_self)
  · intro safe
    obtain ⟨history, world, run, renews, -, left⟩ :=
      @TransitionSystem.run_of_execute _ _ (connectionSystem exampleSetup) renewsConnected
        RenewsConnected renewsConnected_sound {}
        [.connect 0, .session 0 true, .close 0, .execute 0, .answered 0]
        (fun world => world.now = 0 && ((world.sockets 0).phase = .dropped &&
          ((world.leases "ws:conn:10.0.0.1").members = [0] && world.queues 0 = []))) ⟨0, rfl⟩
        (by decide)
    simp only [Bool.and_eq_true, decide_eq_true_eq] at left
    obtain ⟨start, dropped, members, idle⟩ := left
    have early : world.now < connTtlMs := start ▸ (by decide)
    have cap := safe exampleSetup history world run (unlapsed_of_early run early) renews
    rcases cap.accounted "ws:conn:10.0.0.1" 0 (members ▸ List.mem_cons_self) with
      held | ⟨name, command, queued, -⟩
    · simp [WebSocket.Holding, dropped] at held
    · have here := (placed_of_run run).command name command queued
      obtain rfl : 0 = name := here.1
      rw [idle] at queued
      cases queued

end NestjsFastify.WsConnections
