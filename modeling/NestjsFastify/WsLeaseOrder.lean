import NestjsFastify.WsConnectionLeases

/-! # The order of the scripts of a lease

A replica sends the scripts of its sockets over one connection, with the lease of the socket that each
is for.  No script adds a member behind one that removes it as long as the revalidation renews leases
of connected sockets only.
-/
namespace NestjsFastify.WsConnections
open TransitionSystem (Guarded)

abbrev ConnectionHistory : Type := List (ConnectionWorld × ConnectionEvent)

/-- A socket whose lease is renewed is still connected when its revalidation has checked the session.
-/
def RenewsConnected (world : ConnectionWorld) (event : ConnectionEvent) : Prop :=
  ∀ id, event = .revalidated id true → (world.sockets id).connectionLease ≠ none →
    (world.sockets id).phase = .connected

variable {setup : WsSetup} {history : ConnectionHistory} {world : ConnectionWorld}

theorem member_of_leaseOf {id : Nat} {lease : ConnectionLease}
    (own : setup.leaseOf id = some lease) : lease.member = id := by
  obtain ⟨ip, -, rfl⟩ := Option.map_eq_some_iff.mp own
  rfl

/-! ### What a response changes -/

@[simp] theorem connectionLease_receive (script : LeaseScript) (count : Nat) (socket : WebSocket) :
    (socket.receive script count).connectionLease = socket.connectionLease := by
  unfold WebSocket.receive
  split <;> rfl

theorem receive_connected {script : LeaseScript} {count : Nat} {socket : WebSocket}
    (connected : socket.phase = .connected) : socket.receive script count = socket := by
  unfold WebSocket.receive
  split
  next waits => simp [connected] at waits
  next waits => simp [connected] at waits
  next => rfl

@[simp] theorem phase_receive (script : LeaseScript) (id : Nat) (replica : Replica) :
    (replica.receive script id).phase = replica.phase := by
  unfold Replica.receive
  split
  · split_ifs <;> rfl
  · rfl

@[simp] theorem connected_receive (script : LeaseScript) (id : Nat) (replica : Replica) :
    (replica.receive script id).connected = replica.connected := by
  unfold Replica.receive
  split
  · split_ifs <;> rfl
  · rfl

theorem Replica.receive_idle {script : LeaseScript} {id : Nat} {replica : Replica}
    (idle : replica.revalidation = []) : replica.receive script id = replica := by
  unfold Replica.receive
  split
  · rw [if_neg (by simp [idle])]
  · rfl

theorem mem_members_run {now id : Nat} {command : LeaseCommand} {leases : LeaseSet}
    (member : id ∈ (command.run now leases).members) :
    id ∈ leases.members ∨ id = command.lease.member := by
  obtain ⟨entry, own, rfl⟩ := List.mem_map.mp member
  unfold LeaseCommand.run at own
  split at own
  · rcases LeaseSet.mem_acquire.mp own with ⟨old, -, -⟩ | rfl
    · exact .inl (List.mem_map_of_mem (LeaseSet.mem_current.mp old).1)
    · exact .inr rfl
  · exact .inl (List.mem_map_of_mem (LeaseSet.mem_current.mp (LeaseSet.mem_release.mp own).1).1)

theorem wellFormed_run {now : Nat} {command : LeaseCommand} {leases : LeaseSet}
    (wellFormed : leases.WellFormed now) (sent : ∀ sentAt ∈ command.sentAt?, sentAt ≤ now) :
    (command.run now leases).WellFormed now := by
  unfold LeaseCommand.run
  split
  next sentAt same => exact wellFormed.acquire (sent sentAt same)
  next => exact wellFormed.release

/-! ### Where leases and commands are -/

/-- A command is on the connection of the replica of its socket, which it gives its lease. -/
def WsSetup.Owns (setup : WsSetup) (now name : Nat) (command : LeaseCommand) : Prop :=
  setup.replicaOf command.lease.member = name ∧
    setup.leaseOf command.lease.member = some command.lease ∧
      ∀ sentAt ∈ command.sentAt?, sentAt ≤ now

structure Placed (setup : WsSetup) (world : ConnectionWorld) : Prop where
  command : ∀ name, ∀ command ∈ world.queues name, setup.Owns world.now name command
  lease : ∀ id lease, (world.sockets id).connectionLease = some lease →
    setup.leaseOf id = some lease
  member : ∀ key, ∀ id ∈ (world.leases key).members, setup.leaseOf id = some ⟨key, id⟩
  wellFormed : ∀ key, (world.leases key).WellFormed world.now
  connected : ∀ name, ∀ id ∈ (world.replicas name).connected,
    setup.replicaOf id = name ∧ (world.sockets id).phase = .connected
  stopped : ∀ name, (world.replicas name).phase = .stopped →
    (world.replicas name).revalidation = []

section Placed
variable (placed : Placed setup world)
include placed

theorem Placed.not_connected {id : Nat} (apart : (world.sockets id).phase ≠ .connected)
    (name : Nat) : id ∉ (world.replicas name).connected :=
  fun member => apart (placed.connected name id member).2

theorem Placed.setSocket {id : Nat} {socket : WebSocket}
    (lease : ∀ lease, socket.connectionLease = some lease → setup.leaseOf id = some lease)
    (apart : socket.phase = .connected ∨ ∀ name, id ∉ (world.replicas name).connected) :
    Placed setup (world.setSocket id socket) where
  command := placed.command
  lease other := by
    rcases eq_or_ne other id with rfl | different
    · simpa [ConnectionWorld.setSocket] using lease
    · simpa [ConnectionWorld.setSocket, different] using placed.lease other
  member := placed.member
  wellFormed := placed.wellFormed
  connected name other member := by
    refine ⟨(placed.connected name other member).1, ?_⟩
    rcases eq_or_ne other id with rfl | different
    · simpa [ConnectionWorld.setSocket] using apart.resolve_right fun none => none name member
    · simpa [ConnectionWorld.setSocket, different] using (placed.connected name other member).2
  stopped := placed.stopped

/-- The phase of a socket that is not connected changes. -/
theorem Placed.setPhase {id : Nat} (phase : SocketPhase)
    (apart : (world.sockets id).phase ≠ .connected) :
    Placed setup (world.setSocket id { world.sockets id with phase }) :=
  placed.setSocket (placed.lease id) (.inr (placed.not_connected apart))

theorem Placed.setReplica {name : Nat} {replica : Replica}
    (connected : ∀ id ∈ replica.connected,
      setup.replicaOf id = name ∧ (world.sockets id).phase = .connected)
    (stopped : replica.phase = .stopped → replica.revalidation = []) :
    Placed setup (world.setReplica name replica) where
  command := placed.command
  lease := placed.lease
  member := placed.member
  wellFormed := placed.wellFormed
  connected other := by
    rcases eq_or_ne other name with rfl | different
    · simpa [ConnectionWorld.setReplica] using connected
    · simpa [ConnectionWorld.setReplica, different] using placed.connected other
  stopped other := by
    rcases eq_or_ne other name with rfl | different
    · simpa [ConnectionWorld.setReplica] using stopped
    · simpa [ConnectionWorld.setReplica, different] using placed.stopped other

theorem Placed.finish (id : Nat) :
    Placed setup (world.setReplica (setup.replicaOf id) ((home setup world id).finish id)) :=
  placed.setReplica (placed.connected _) fun stopped => by
    have none := placed.stopped _ stopped
    simp only [Replica.finish, home, none, List.filter_nil]

theorem Placed.enter {id : Nat} (stage : RevalidationStage)
    (going : (home setup world id).phase ≠ .stopped) :
    Placed setup (world.setReplica (setup.replicaOf id) ((home setup world id).enter id stage)) :=
  placed.setReplica (placed.connected _) fun stopped => absurd stopped going

/-- A replica on which a socket is revalidated has not stopped. -/
theorem Placed.going {id : Nat} {stage : RevalidationStage}
    (member : (id, stage) ∈ (home setup world id).revalidation) :
    (home setup world id).phase ≠ .stopped := by
  intro stopped
  rw [home, placed.stopped _ stopped] at member
  exact absurd member List.not_mem_nil

theorem Placed.send {name : Nat} {commands : List LeaseCommand}
    (own : ∀ command ∈ commands, setup.Owns world.now name command) :
    Placed setup (world.send name commands) where
  command other command member := by
    rcases eq_or_ne other name with rfl | different
    · simp only [ConnectionWorld.send, Function.update_self, List.mem_append] at member
      exact member.elim (placed.command other command) (own command)
    · simp only [ConnectionWorld.send, Function.update_of_ne different] at member
      exact placed.command other command member
  lease := placed.lease
  member := placed.member
  wellFormed := placed.wellFormed
  connected := placed.connected
  stopped := placed.stopped

theorem Placed.owns_release {id : Nat} {lease : ConnectionLease}
    (own : (world.sockets id).connectionLease = some lease) :
    setup.Owns world.now (setup.replicaOf id) ⟨lease, .release⟩ := by
  have leased := placed.lease id lease own
  have same := member_of_leaseOf leased
  exact ⟨congrArg setup.replicaOf same, same ▸ leased, fun _ impossible => (nomatch impossible)⟩

theorem Placed.acceptSocket {id : Nat} {connectionLease : Option ConnectionLease}
    (lease : ∀ lease, connectionLease = some lease → setup.leaseOf id = some lease)
    (apart : (world.sockets id).phase ≠ .connected) :
    Placed setup (acceptSocket setup world id connectionLease) := by
  unfold WsConnections.acceptSocket
  split_ifs
  · have connected : Placed setup (world.setSocket id
        { phase := .connected, isOpen := true, connectionLease }) :=
      placed.setSocket lease (.inl rfl)
    refine connected.setReplica (fun other member => ?_) (placed.stopped _)
    rcases List.mem_append.mp member with old | new
    · exact connected.connected _ other old
    · rw [List.mem_singleton.mp new]
      exact ⟨rfl, by simp [ConnectionWorld.setSocket]⟩
  · exact placed.setSocket lease (.inr (placed.not_connected apart))

theorem Placed.disconnect (id : Nat) : Placed setup (disconnect setup world id) := by
  have apart : Placed setup (world.setReplica (setup.replicaOf id)
      { home setup world id with
        connected := (home setup world id).connected.filter (· ≠ id) }) :=
    placed.setReplica (fun other member => placed.connected _ other (List.mem_filter.mp member).1)
      (placed.stopped _)
  have closed := @Placed.setSocket _ _ apart id
    { world.sockets id with phase := .disconnected, isOpen := false } (placed.lease id)
    (.inr fun name member => by
      have here := (apart.connected name id member).1
      subst here
      simp [ConnectionWorld.setReplica] at member)
  refine closed.send fun command member => ?_
  obtain ⟨lease, own, rfl⟩ := by simpa [releaseConnectionLeases] using member
  exact placed.owns_release own

theorem Placed.execute {name : Nat} {command : LeaseCommand} {rest : List LeaseCommand}
    (queued : world.queues name = command :: rest) :
    Placed setup (world.execute name command rest) := by
  obtain ⟨-, leased, sent⟩ := placed.command name command (queued ▸ List.mem_cons_self)
  constructor
  case command =>
    intro other queuedCommand member
    rcases eq_or_ne other name with rfl | different
    · simp only [ConnectionWorld.execute, Function.update_self] at member
      exact placed.command other queuedCommand (queued ▸ List.mem_cons_of_mem _ member)
    · simp only [ConnectionWorld.execute, Function.update_of_ne different] at member
      exact placed.command other queuedCommand member
  case lease =>
    intro id lease own
    rcases eq_or_ne id command.lease.member with rfl | different
    · simp only [ConnectionWorld.execute, Function.update_self, connectionLease_receive] at own
      exact placed.lease _ lease own
    · simp only [ConnectionWorld.execute, Function.update_of_ne different] at own
      exact placed.lease id lease own
  case member =>
    intro key id member
    rcases eq_or_ne key command.lease.key with rfl | different
    · simp only [ConnectionWorld.execute, Function.update_self] at member
      rcases mem_members_run member with old | rfl
      · exact placed.member _ id old
      · exact leased
    · simp only [ConnectionWorld.execute, Function.update_of_ne different] at member
      exact placed.member key id member
  case wellFormed =>
    intro key
    rcases eq_or_ne key command.lease.key with rfl | different
    · simp only [ConnectionWorld.execute, Function.update_self]
      exact wellFormed_run (placed.wellFormed _) sent
    · simp only [ConnectionWorld.execute, Function.update_of_ne different]
      exact placed.wellFormed key
  case connected =>
    intro other id member
    have old : id ∈ (world.replicas other).connected := by
      rcases eq_or_ne other name with rfl | different
      · simpa [ConnectionWorld.execute] using member
      · simpa [ConnectionWorld.execute, different] using member
    refine ⟨(placed.connected other id old).1, ?_⟩
    have was := (placed.connected other id old).2
    rcases eq_or_ne id command.lease.member with rfl | different
    · simp only [ConnectionWorld.execute, Function.update_self]
      rw [receive_connected was, was]
    · simpa [ConnectionWorld.execute, different] using was
  case stopped =>
    intro other stopped
    rcases eq_or_ne other name with rfl | different
    · simp only [ConnectionWorld.execute, Function.update_self, phase_receive] at stopped ⊢
      rw [Replica.receive_idle (placed.stopped other stopped), placed.stopped other stopped]
    · simp only [ConnectionWorld.execute, Function.update_of_ne different] at stopped ⊢
      exact placed.stopped other stopped

theorem Placed.middlewareSession {id : Nat} (valid : Bool)
    (checking : (world.sockets id).phase = .checkingSession) :
    Placed setup (middlewareSession setup world id valid) := by
  have apart : (world.sockets id).phase ≠ .connected := by simp [checking]
  unfold WsConnections.middlewareSession
  split_ifs
  · split
    next lease leased =>
      refine (placed.setPhase .acquiring apart).send fun command member => ?_
      rw [List.mem_singleton.mp member]
      have same := member_of_leaseOf leased
      exact ⟨congrArg setup.replicaOf same, same ▸ leased,
        fun sentAt sent => (Option.some.inj sent).ge⟩
    next => exact placed.acceptSocket (fun _ impossible => (nomatch impossible)) apart
  · exact placed.setPhase .refused apart

theorem Placed.middlewareAcquired {id count : Nat}
    (acquired : (world.sockets id).phase = .acquired count) :
    Placed setup (middlewareAcquired setup world id count) := by
  have apart : (world.sockets id).phase ≠ .connected := by simp [acquired]
  unfold WsConnections.middlewareAcquired
  split_ifs
  · refine (placed.setPhase .releasingExcess apart).send fun command member => ?_
    obtain ⟨lease, leased, rfl⟩ := by simpa using member
    have same := member_of_leaseOf leased
    exact ⟨congrArg setup.replicaOf same, same ▸ leased, fun _ impossible => (nomatch impossible)⟩
  · exact placed.acceptSocket (fun _ leased => leased) apart

theorem Placed.revalidateSocket {id : Nat} (valid : Bool)
    (checking : (id, .checking) ∈ (home setup world id).revalidation) :
    Placed setup (revalidateSocket setup world id valid) := by
  unfold WsConnections.revalidateSocket
  split_ifs
  · split
    next lease own =>
      refine (placed.enter .renewing (placed.going checking)).send fun command member => ?_
      rw [List.mem_singleton.mp member]
      have leased := placed.lease id lease own
      have same := member_of_leaseOf leased
      exact ⟨congrArg setup.replicaOf same, same ▸ leased,
        fun sentAt sent => (Option.some.inj sent).ge⟩
    next => exact placed.finish id
  · exact (placed.finish id).disconnect id
  · exact placed.finish id

theorem Placed.step {after : ConnectionWorld} {event : ConnectionEvent}
    (taken : connectionStep setup world event = some after) : Placed setup after := by
  cases event with
  | connect id =>
    simp only [connectionStep, Option.ite_none_right_eq_some, Option.some.injEq] at taken
    obtain ⟨absent, rfl⟩ := taken
    exact placed.setSocket (fun _ impossible => (nomatch impossible))
      (.inr (placed.not_connected (by simp [absent])))
  | session id valid =>
    simp only [connectionStep, Option.ite_none_right_eq_some, Option.some.injEq] at taken
    obtain ⟨checking, rfl⟩ := taken
    exact placed.middlewareSession valid checking
  | answered id =>
    simp only [connectionStep] at taken
    split at taken
    next count acquired =>
      obtain rfl := Option.some.inj taken
      exact placed.middlewareAcquired acquired
    next released =>
      obtain rfl := Option.some.inj taken
      exact placed.setPhase .refused (by simp [released])
    next => cases taken
  | close id =>
    simp only [connectionStep] at taken
    split_ifs at taken with connected
    · obtain rfl := Option.some.inj taken
      exact placed.disconnect id
    · obtain rfl := Option.some.inj taken
      exact placed.setSocket (placed.lease id) (.inr (placed.not_connected connected))
  | execute name =>
    simp only [connectionStep] at taken
    split at taken
    next command rest queued =>
      obtain rfl := Option.some.inj taken
      exact placed.execute queued
    next => cases taken
  | tick name =>
    simp only [connectionStep, Option.ite_none_right_eq_some, Option.some.injEq] at taken
    obtain ⟨⟨running, -⟩, rfl⟩ := taken
    exact placed.setReplica (placed.connected name) fun stopped => by simp [running] at stopped
  | wake id =>
    simp only [connectionStep, Option.ite_none_right_eq_some, Option.some.injEq] at taken
    obtain ⟨waiting, rfl⟩ := taken
    split_ifs
    · exact placed.enter .checking (placed.going waiting)
    · exact placed.finish id
  | revalidated id valid =>
    simp only [connectionStep, Option.ite_none_right_eq_some, Option.some.injEq] at taken
    obtain ⟨checking, rfl⟩ := taken
    exact placed.revalidateSocket valid checking
  | settle id =>
    simp only [connectionStep, Option.ite_none_right_eq_some, Option.some.injEq] at taken
    obtain ⟨-, rfl⟩ := taken
    exact placed.finish id
  | shutdown name =>
    simp only [connectionStep, Option.ite_none_right_eq_some, Option.some.injEq] at taken
    obtain ⟨-, rfl⟩ := taken
    exact placed.setReplica (placed.connected name) fun stopped => by simp at stopped
  | releaseLeases name =>
    simp only [connectionStep, Option.ite_none_right_eq_some, Option.some.injEq] at taken
    obtain ⟨⟨-, idle⟩, rfl⟩ := taken
    have stopped := @Placed.setReplica _ _ placed name { world.replicas name with phase := .stopped }
      (placed.connected name) fun _ => idle
    refine stopped.send fun command member => ?_
    obtain ⟨id, connected, lease, own, rfl⟩ := by simpa [releaseConnectionLeases] using member
    exact (placed.connected name id connected).1 ▸ placed.owns_release own
  | elapse milliseconds =>
    obtain rfl := Option.some.inj taken
    exact ⟨fun name command member =>
        have owned := placed.command name command member
        ⟨owned.1, owned.2.1, fun sentAt sent => (owned.2.2 sentAt sent).trans (Nat.le_add_right _ _)⟩,
      placed.lease, placed.member, fun key => (placed.wellFormed key).later milliseconds,
      placed.connected, placed.stopped⟩

end Placed

theorem placed_of_run (run : (connectionSystem setup).Run history world) : Placed setup world := by
  induction run with
  | start initial =>
    obtain ⟨now, rfl⟩ := initial
    exact ⟨fun _ _ impossible => absurd impossible List.not_mem_nil,
      fun _ _ impossible => (nomatch impossible),
      fun _ _ impossible => absurd impossible List.not_mem_nil,
      fun _ => ⟨List.nodup_nil, fun _ impossible => absurd impossible List.not_mem_nil,
        Nat.zero_le _⟩,
      fun _ _ impossible => absurd impossible List.not_mem_nil, fun _ _ => rfl⟩
  | step run taken ih => exact ih.step taken

/-! ### Released members -/

/-- A release for the member is under way. -/
def ConnectionWorld.Releasing (world : ConnectionWorld) (id : Nat) : Prop :=
  ∃ name, ∃ command ∈ world.queues name, command.sentAt? = none ∧ command.lease.member = id

/-- A release for the member is under way or has been executed. -/
def ConnectionWorld.ReleaseSent (world : ConnectionWorld) (id : Nat) : Prop :=
  id ∈ world.released ∨ world.Releasing id

/-- The phase is one in which a release may have been sent. -/
def MayBeReleased (replica : ReplicaPhase) : SocketPhase → Prop
  | .releasingExcess => True
  | .excessReleased => True
  | .disconnected => True
  | .refused => True
  | .connected => replica = .stopped
  | _ => False

theorem mayBe_receive {script : LeaseScript} {count : Nat} {socket : WebSocket}
    {replica : ReplicaPhase} (mayBe : MayBeReleased replica socket.phase) :
    MayBeReleased replica (socket.receive script count).phase := by
  unfold WebSocket.receive
  split
  next waits => simp [waits, MayBeReleased] at mayBe
  next => trivial
  next => exact mayBe

theorem mayBe_execute {name id : Nat} {command : LeaseCommand} {rest : List LeaseCommand}
    (mayBe : MayBeReleased (home setup world id).phase (world.sockets id).phase) :
    MayBeReleased (home setup (world.execute name command rest) id).phase
      ((world.execute name command rest).sockets id).phase := by
  have same : (home setup (world.execute name command rest) id).phase =
      (home setup world id).phase := by
    simp only [home, ConnectionWorld.execute]
    by_cases here : setup.replicaOf id = name
    · rw [here, Function.update_self, phase_receive]
    · rw [Function.update_of_ne here]
  rw [same]
  simp only [ConnectionWorld.execute]
  rcases eq_or_ne id command.lease.member with rfl | different
  · rw [Function.update_self]
    exact mayBe_receive mayBe
  · rwa [Function.update_of_ne different]

/-- No script that adds a member is executed after one that removes it. -/
structure Ordered (setup : WsSetup) (world : ConnectionWorld) : Prop where
  queued : ∀ name, (world.queues name).Pairwise fun first second =>
    first.sentAt? = none → second.sentAt? ≠ none → first.lease.member ≠ second.lease.member
  mayBe : ∀ id, world.ReleaseSent id →
    MayBeReleased (home setup world id).phase (world.sockets id).phase
  awaited : ∀ id ∈ world.released, ∀ name, ∀ command ∈ world.queues name,
    command.sentAt? ≠ none → command.lease.member ≠ id
  absent : ∀ id ∈ world.released, ∀ key, id ∉ (world.leases key).members

section Ordered
variable (ordered : Ordered setup world)
include ordered

theorem Ordered.setSocket {id : Nat} {socket : WebSocket}
    (mayBe : world.ReleaseSent id → MayBeReleased (home setup world id).phase socket.phase) :
    Ordered setup (world.setSocket id socket) where
  queued := ordered.queued
  mayBe other sent := by
    change MayBeReleased (home setup world other).phase _
    rcases eq_or_ne other id with rfl | different
    · simpa [ConnectionWorld.setSocket] using mayBe sent
    · simpa [ConnectionWorld.setSocket, different] using ordered.mayBe other sent
  awaited := ordered.awaited
  absent := ordered.absent

theorem Ordered.setReplica {name : Nat} {replica : Replica}
    (stopped : (world.replicas name).phase = .stopped → replica.phase = .stopped) :
    Ordered setup (world.setReplica name replica) where
  queued := ordered.queued
  mayBe id sent := by
    have before := ordered.mayBe id sent
    change MayBeReleased _ (world.sockets id).phase
    cases phase : (world.sockets id).phase with
    | connected =>
      rw [phase] at before
      by_cases here : setup.replicaOf id = name
      · subst here
        simpa [MayBeReleased, home, ConnectionWorld.setReplica] using stopped before
      · simpa [MayBeReleased, home, ConnectionWorld.setReplica, here] using before
    | _ =>
      rw [phase] at before
      exact before
  awaited := ordered.awaited
  absent := ordered.absent

theorem Ordered.send {name : Nat} {commands : List LeaseCommand}
    (releases : ∀ command ∈ commands, command.sentAt? = none →
      MayBeReleased (home setup world command.lease.member).phase
        (world.sockets command.lease.member).phase)
    (adds : ∀ command ∈ commands, command.sentAt? ≠ none →
      ¬ world.ReleaseSent command.lease.member)
    (own : commands.Pairwise fun first second =>
      first.sentAt? = none → second.sentAt? ≠ none → first.lease.member ≠ second.lease.member) :
    Ordered setup (world.send name commands) where
  queued other := by
    rcases eq_or_ne other name with rfl | different
    · simp only [ConnectionWorld.send, Function.update_self]
      refine List.pairwise_append.mpr ⟨ordered.queued other, own, ?_⟩
      intro first old second new removes added same
      exact adds second new added (.inr ⟨other, first, old, removes, same⟩)
    · simpa [ConnectionWorld.send, different] using ordered.queued other
  mayBe id sent := by
    rcases sent with released | ⟨other, command, member, removes, rfl⟩
    · exact ordered.mayBe id (.inl released)
    · rcases eq_or_ne other name with rfl | different
      · simp only [ConnectionWorld.send, Function.update_self, List.mem_append] at member
        rcases member with old | new
        · exact ordered.mayBe _ (.inr ⟨other, command, old, removes, rfl⟩)
        · exact releases command new removes
      · simp only [ConnectionWorld.send, Function.update_of_ne different] at member
        exact ordered.mayBe _ (.inr ⟨other, command, member, removes, rfl⟩)
  awaited id released other command member added := by
    rcases eq_or_ne other name with rfl | different
    · simp only [ConnectionWorld.send, Function.update_self, List.mem_append] at member
      rcases member with old | new
      · exact ordered.awaited id released other command old added
      · rintro rfl
        exact adds command new added (.inl released)
    · simp only [ConnectionWorld.send, Function.update_of_ne different] at member
      exact ordered.awaited id released other command member added
  absent := ordered.absent

/-- A script that adds a member follows no release of it. -/
theorem Ordered.sendAdding {name : Nat} {command : LeaseCommand}
    (adds : command.sentAt? ≠ none) (unsent : ¬ world.ReleaseSent command.lease.member) :
    Ordered setup (world.send name [command]) := by
  refine ordered.send (fun other member removes => ?_) (fun other member _ => ?_)
    (List.pairwise_singleton _ _)
  · rw [List.mem_singleton.mp member] at removes
    exact absurd removes adds
  · rwa [List.mem_singleton.mp member]

theorem Ordered.sendReleases {name : Nat} {commands : List LeaseCommand}
    (removes : ∀ command ∈ commands, command.sentAt? = none)
    (mayBe : ∀ command ∈ commands, MayBeReleased (home setup world command.lease.member).phase
      (world.sockets command.lease.member).phase) :
    Ordered setup (world.send name commands) :=
  ordered.send (fun command member _ => mayBe command member)
    (fun command member adds => absurd (removes command member) adds)
    (List.pairwise_of_forall_mem_list fun _ _ second member _ adds =>
      absurd (removes second member) adds)

/-- A phase in which no release can have been sent. -/
theorem Ordered.unsent {id : Nat}
    (never : ¬ MayBeReleased (home setup world id).phase (world.sockets id).phase) :
    ¬ world.ReleaseSent id :=
  fun sent => never (ordered.mayBe id sent)

theorem Ordered.acceptSocket {id : Nat} {connectionLease : Option ConnectionLease}
    (unsent : ¬ world.ReleaseSent id) :
    Ordered setup (acceptSocket setup world id connectionLease) := by
  unfold WsConnections.acceptSocket
  split_ifs
  · exact (ordered.setSocket fun sent => absurd sent unsent).setReplica fun stopped => stopped
  · exact ordered.setSocket fun sent => absurd sent unsent

theorem Ordered.disconnect (placed : Placed setup world) (id : Nat) :
    Ordered setup (disconnect setup world id) := by
  refine Ordered.sendReleases (.setSocket (.setReplica ordered ?still) ?closed) ?removes ?mayBe
  case still => exact fun stopped => stopped
  case closed => exact fun _ => trivial
  case removes =>
    intro command member
    obtain ⟨lease, -, rfl⟩ := by simpa [releaseConnectionLeases] using member
    rfl
  case mayBe =>
    intro command member
    obtain ⟨lease, own, rfl⟩ := by simpa [releaseConnectionLeases] using member
    have same := member_of_leaseOf (placed.lease id lease own)
    simp [same, ConnectionWorld.setSocket, MayBeReleased]

theorem Ordered.middlewareSession {id : Nat} (valid : Bool)
    (checking : (world.sockets id).phase = .checkingSession) :
    Ordered setup (middlewareSession setup world id valid) := by
  have unsent : ¬ world.ReleaseSent id := ordered.unsent (by simp [checking, MayBeReleased])
  unfold WsConnections.middlewareSession
  split_ifs
  · split
    next lease leased =>
      refine (ordered.setSocket fun sent => absurd sent unsent).sendAdding ?_ ?_
      · exact Option.some_ne_none _
      · rw [member_of_leaseOf leased]
        exact unsent
    next => exact ordered.acceptSocket unsent
  · exact ordered.setSocket fun _ => trivial

theorem Ordered.middlewareAcquired {id count : Nat}
    (acquired : (world.sockets id).phase = .acquired count) :
    Ordered setup (middlewareAcquired setup world id count) := by
  unfold WsConnections.middlewareAcquired
  split_ifs
  · refine Ordered.sendReleases (.setSocket ordered ?excess) ?removes ?mayBe
    case excess => exact fun _ => trivial
    case removes =>
      intro command member
      obtain ⟨lease, -, rfl⟩ := by simpa using member
      rfl
    case mayBe =>
      intro command member
      obtain ⟨lease, leased, rfl⟩ := by simpa using member
      simp [member_of_leaseOf leased, ConnectionWorld.setSocket, MayBeReleased]
  · exact ordered.acceptSocket (ordered.unsent (by simp [acquired, MayBeReleased]))

/-- The renewal of a socket that is still connected. -/
theorem Ordered.revalidateSocket (placed : Placed setup world) {id : Nat} {valid : Bool}
    (checking : (id, .checking) ∈ (home setup world id).revalidation)
    (connected : valid = true → (world.sockets id).connectionLease ≠ none →
      (world.sockets id).phase = .connected) :
    Ordered setup (revalidateSocket setup world id valid) := by
  unfold WsConnections.revalidateSocket
  split_ifs with accepted
  · split
    next lease own =>
      refine Ordered.sendAdding (.setReplica ordered ?_) ?_ ?_
      · exact fun stopped => stopped
      · exact Option.some_ne_none _
      · rw [member_of_leaseOf (placed.lease id lease own)]
        have here := connected accepted (by simp [own])
        exact ordered.unsent (by rw [here]; exact placed.going checking)
    next => exact ordered.setReplica fun stopped => stopped
  · have finished : Ordered setup
        (world.setReplica (setup.replicaOf id) ((home setup world id).finish id)) :=
      ordered.setReplica fun stopped => stopped
    exact finished.disconnect (placed.finish id) id
  · exact ordered.setReplica fun stopped => stopped

theorem Ordered.execute (placed : Placed setup world) {name : Nat} {command : LeaseCommand}
    {rest : List LeaseCommand} (queued : world.queues name = command :: rest) :
    Ordered setup (world.execute name command rest) := by
  obtain ⟨here, leased, -⟩ := placed.command name command (queued ▸ List.mem_cons_self)
  have waits : ∀ other, ∀ later ∈ Function.update world.queues name rest other,
      later ∈ world.queues other := by
    intro other later member
    rcases eq_or_ne other name with rfl | different
    · rw [Function.update_self] at member
      exact queued ▸ List.mem_cons_of_mem _ member
    · rwa [Function.update_of_ne different] at member
  have front : ∀ second ∈ rest, command.sentAt? = none → second.sentAt? ≠ none →
      command.lease.member ≠ second.lease.member :=
    (List.pairwise_cons.mp (queued ▸ ordered.queued name)).1
  constructor
  case queued =>
    intro other
    rcases eq_or_ne other name with rfl | different
    · simp only [ConnectionWorld.execute, Function.update_self]
      exact (List.pairwise_cons.mp (queued ▸ ordered.queued other)).2
    · simpa [ConnectionWorld.execute, different] using ordered.queued other
  case mayBe =>
    intro id sent
    have before : world.ReleaseSent id := by
      rcases sent with released | ⟨other, later, member, removes, rfl⟩
      · simp only [ConnectionWorld.execute] at released
        split_ifs at released with removes
        · rcases List.mem_cons.mp released with rfl | old
          · exact .inr ⟨name, command, queued ▸ List.mem_cons_self, removes, rfl⟩
          · exact .inl old
        · exact .inl released
      · exact .inr ⟨other, later, waits other later member, removes, rfl⟩
    exact mayBe_execute (ordered.mayBe id before)
  case awaited =>
    intro id released other later member adds
    simp only [ConnectionWorld.execute] at released
    split_ifs at released with removes
    · rcases List.mem_cons.mp released with rfl | old
      · -- the scripts of the member are all behind this one, on one connection
        rintro same
        have there := (placed.command other later (waits other later member)).1
        rw [same, here] at there
        subst there
        simp only [ConnectionWorld.execute, Function.update_self] at member
        exact front later member removes adds same.symm
      · exact ordered.awaited id old other later (waits other later member) adds
    · exact ordered.awaited id released other later (waits other later member) adds
  case absent =>
    intro id released key member
    have gone : id ∈ world.released → id ∉ (world.leases key).members :=
      fun old => ordered.absent id old key
    simp only [ConnectionWorld.execute] at released
    rcases eq_or_ne key command.lease.key with rfl | different
    · simp only [ConnectionWorld.execute, Function.update_self] at member
      split_ifs at released with removes
      · obtain ⟨entry, own, rfl⟩ := List.mem_map.mp member
        rw [LeaseCommand.run, removes] at own
        obtain ⟨old, other⟩ := LeaseSet.mem_release.mp own
        exact gone ((List.mem_cons.mp released).resolve_left other)
          (List.mem_map_of_mem (LeaseSet.mem_current.mp old).1)
      · rcases mem_members_run member with old | rfl
        · exact gone released old
        · exact ordered.awaited _ released name command (queued ▸ List.mem_cons_self) removes rfl
    · simp only [ConnectionWorld.execute, Function.update_of_ne different] at member
      split_ifs at released with removes
      · rcases List.mem_cons.mp released with rfl | old
        · have own := placed.member key _ member
          rw [leased] at own
          exact different (congrArg ConnectionLease.key (Option.some.inj own)).symm
        · exact gone old member
      · exact gone released member

theorem Ordered.step (placed : Placed setup world) {after : ConnectionWorld}
    {event : ConnectionEvent} (renews : RenewsConnected world event)
    (taken : connectionStep setup world event = some after) : Ordered setup after := by
  cases event with
  | connect id =>
    simp only [connectionStep, Option.ite_none_right_eq_some, Option.some.injEq] at taken
    obtain ⟨absent, rfl⟩ := taken
    have unsent : ¬ world.ReleaseSent id := ordered.unsent (by simp [absent, MayBeReleased])
    exact ordered.setSocket fun sent => absurd sent unsent
  | session id valid =>
    simp only [connectionStep, Option.ite_none_right_eq_some, Option.some.injEq] at taken
    obtain ⟨checking, rfl⟩ := taken
    exact ordered.middlewareSession valid checking
  | answered id =>
    simp only [connectionStep] at taken
    split at taken
    next count acquired =>
      obtain rfl := Option.some.inj taken
      exact ordered.middlewareAcquired acquired
    next =>
      obtain rfl := Option.some.inj taken
      exact ordered.setSocket fun _ => trivial
    next => cases taken
  | close id =>
    simp only [connectionStep] at taken
    split_ifs at taken
    · obtain rfl := Option.some.inj taken
      exact ordered.disconnect placed id
    · obtain rfl := Option.some.inj taken
      exact ordered.setSocket (ordered.mayBe id)
  | execute name =>
    simp only [connectionStep] at taken
    split at taken
    next command rest queued =>
      obtain rfl := Option.some.inj taken
      exact ordered.execute placed queued
    next => cases taken
  | tick name =>
    simp only [connectionStep, Option.ite_none_right_eq_some, Option.some.injEq] at taken
    obtain ⟨-, rfl⟩ := taken
    exact ordered.setReplica fun stopped => stopped
  | wake id =>
    simp only [connectionStep, Option.ite_none_right_eq_some, Option.some.injEq] at taken
    obtain ⟨-, rfl⟩ := taken
    split_ifs <;> exact ordered.setReplica fun stopped => stopped
  | revalidated id valid =>
    simp only [connectionStep, Option.ite_none_right_eq_some, Option.some.injEq] at taken
    obtain ⟨checking, rfl⟩ := taken
    refine ordered.revalidateSocket placed checking ?_
    rintro rfl
    exact renews id rfl
  | settle id =>
    simp only [connectionStep, Option.ite_none_right_eq_some, Option.some.injEq] at taken
    obtain ⟨-, rfl⟩ := taken
    exact ordered.setReplica fun stopped => stopped
  | shutdown name =>
    simp only [connectionStep, Option.ite_none_right_eq_some, Option.some.injEq] at taken
    obtain ⟨running, rfl⟩ := taken
    exact ordered.setReplica fun stopped => by simp [running] at stopped
  | releaseLeases name =>
    simp only [connectionStep, Option.ite_none_right_eq_some, Option.some.injEq] at taken
    obtain ⟨-, rfl⟩ := taken
    refine Ordered.sendReleases (.setReplica ordered ?still) ?removes ?mayBe
    case still => exact fun _ => rfl
    case removes =>
      intro command member
      obtain ⟨id, -, lease, -, rfl⟩ := by simpa [releaseConnectionLeases] using member
      rfl
    case mayBe =>
      intro command member
      obtain ⟨id, listed, lease, own, rfl⟩ := by simpa [releaseConnectionLeases] using member
      obtain ⟨rfl, connected⟩ := placed.connected name id listed
      have same := member_of_leaseOf (placed.lease id lease own)
      simp [same, ConnectionWorld.setReplica, connected, MayBeReleased, home]
  | elapse milliseconds =>
    obtain rfl := Option.some.inj taken
    exact ⟨ordered.queued, ordered.mayBe, ordered.awaited, ordered.absent⟩

end Ordered

theorem ordered_of_run (run : (connectionSystem setup).Run history world)
    (renews : Guarded RenewsConnected history) : Ordered setup world := by
  induction run with
  | start initial =>
    obtain ⟨now, rfl⟩ := initial
    refine ⟨fun _ => List.Pairwise.nil, fun id sent => ?_,
      fun _ impossible => absurd impossible List.not_mem_nil,
      fun _ impossible => absurd impossible List.not_mem_nil⟩
    rcases sent with impossible | ⟨_, _, impossible, -⟩
    · exact absurd impossible List.not_mem_nil
    · exact absurd impossible List.not_mem_nil
  | step run taken ih =>
    exact (ih fun entry member => renews entry (List.mem_cons_of_mem _ member)).step
      (placed_of_run run) (renews _ List.mem_cons_self) taken

end NestjsFastify.WsConnections
