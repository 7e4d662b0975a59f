import NestjsFastify.TenantBinding

/-! # Statements see their own organization

A client that code can reach belongs to a transaction of its own request, and the connection of
this transaction is bound to the organization of the request as long as the transaction is open.
-/
namespace NestjsFastify.Prisma

/-! ## Where a call leads -/

/-- What the course of a call may be. -/
def Allowed (call : Call) (surroundings : Surroundings) (contexts : Contexts) :
    Course TransactionClient → Prop
  | .joined client organizationId =>
      (contexts.transaction = some client ∨ contexts.readTransaction = some client) ∧
        (∀ bound, organizationId = some bound → surroundings.tenant = some bound) ∧
          (call = .run false → contexts.transaction = some client)
  | .opened server organizationId =>
      organizationId = surroundings.tenant ∧ (call = .run false → server = .primary)
  | .direct server =>
      surroundings.organizationId = none ∧ (call = .run false → server = .primary)
  | .refused _ => True

section
variable {call : Call} {surroundings : Surroundings} {contexts : Contexts} {readOnly : Bool}

theorem active_cases {client : TransactionClient}
    (active : contexts.active readOnly = some client) :
    (contexts.transaction = some client ∨ contexts.readTransaction = some client) ∧
      (readOnly = false → contexts.transaction = some client) := by
  cases readOnly with
  | false => exact ⟨.inl active, fun _ => active⟩
  | true =>
    refine ⟨?_, nofun⟩
    cases opened : contexts.transaction with
    | some other =>
      simp only [TransactionContexts.active, if_pos, opened, Option.some_or] at active
      exact .inl active
    | none =>
      simp only [TransactionContexts.active, if_pos, opened, Option.none_or] at active
      exact .inr active

theorem allowed_transaction : Allowed call surroundings contexts
    (transaction surroundings contexts) := by
  unfold transaction
  split
  · trivial
  · exact ⟨rfl, fun _ => rfl⟩

theorem allowed_withTenantContext (writes : call = .run false → readOnly = false) :
    Allowed call surroundings contexts (withTenantContext surroundings contexts readOnly) := by
  unfold withTenantContext
  cases bound : surroundings.tenant with
  | none => trivial
  | some organizationId =>
    cases active : contexts.active readOnly with
    | some client =>
      obtain ⟨reached, writing⟩ := active_cases active
      exact ⟨reached, fun _ same => same ▸ bound, fun isRun => writing (writes isRun)⟩
    | none =>
      simp only
      split
      · exact allowed_transaction
      · rename_i replica
        refine ⟨bound.symm, fun isRun => absurd (writes isRun) ?_⟩
        rintro rfl
        exact replica rfl

theorem allowed_course (call : Call) (surroundings : Surroundings) (contexts : Contexts) :
    Allowed call surroundings contexts (call.course surroundings contexts) := by
  cases call with
  | transaction => exact allowed_transaction
  | withTenantContext readOnly => exact allowed_withTenantContext fun impossible => by cases impossible
  | run readOnly =>
    have writes : Call.run readOnly = .run false → readOnly = false := fun same => by
      injection same
    simp only [Call.course, run]
    cases active : contexts.active readOnly with
    | some client =>
      obtain ⟨reached, writing⟩ := active_cases active
      exact ⟨reached, fun _ impossible => (by cases impossible), fun isRun => writing (writes isRun)⟩
    | none =>
      simp only
      split
      · rename_i unbound
        refine ⟨by simpa [Surroundings.hasTenantContext] using unbound, fun isRun => ?_⟩
        rw [writes isRun]
        rfl
      · exact allowed_withTenantContext writes

end

variable {setup : Setup} {request : Nat}

theorem settingFor_of_tenant {organizationId : String}
    (bound : (setup.surroundings request).tenant = some organizationId) :
    setup.settingFor request = organizationId := by
  obtain ⟨carried, -⟩ := Option.filter_eq_some_iff.mp bound
  exact congrArg (·.getD "") carried

theorem settingFor_of_no_tenant (unbound : (setup.surroundings request).tenant = none) :
    setup.settingFor request = "" := by
  simp only [Surroundings.tenant, Setup.surroundings] at unbound
  cases carried : setup.organizationOf request with
  | none => simp [Setup.settingFor, carried]
  | some organizationId =>
    rw [carried] at unbound
    simpa [Setup.settingFor, carried, Option.filter] using unbound

/-! ## Clients within reach -/

/-- The transaction of the client is one of the request, while it is open. -/
def Owns (world : World) (request : Nat) (client : TransactionClient) : Prop :=
  client.number < world.nextTransaction ∧
    ∀ opened, (world.connections client.connection).transaction = some opened →
      opened.number = client.number → opened.request = request

/-- The request may use the client: while its transaction is open, it is bound. -/
def Exposed (setup : Setup) (world : World) (request : Nat) (client : TransactionClient) : Prop :=
  Owns world request client ∧
    ∀ opened, (world.connections client.connection).transaction = some opened →
      opened.number = client.number →
        (world.connections client.connection).setting = setup.settingFor request

structure ContextsSound (setup : Setup) (world : World) (request : Nat) (contexts : Contexts) :
    Prop where
  transaction : ∀ client, contexts.transaction = some client →
    Exposed setup world request client ∧ setup.serverOf client.connection = .primary
  readTransaction : ∀ client, contexts.readTransaction = some client →
    Exposed setup world request client

def TargetSound (setup : Setup) (world : World) (request : Nat) : Target → Prop
  | .client client => Exposed setup world request client
  | .direct _ => setup.settingFor request = ""

def Setup.phaseServer (setup : Setup) : Phase → Server
  | .connecting server _ => server
  | .binding client _ => setup.serverOf client.connection
  | .running (.client client) => setup.serverOf client.connection
  | .running (.direct server) => server

/-- A function runs on a client that it may use, and a client is not used before it is bound. -/
def PhaseSound (setup : Setup) (world : World) (request : Nat) (frame : Frame) : Prop :=
  match frame.phase with
  | .connecting _ organizationId => organizationId = (setup.surroundings request).tenant
  | .binding client organizationId =>
      setup.settingFor request = organizationId ∧ Owns world request client ∧
        (frame.inside = frame.outside ∨
          frame.inside = enterContexts frame.outside (setup.serverOf client.connection) client)
  | .running target =>
      ContextsSound setup world request frame.inside ∧ TargetSound setup world request target

structure FrameSound (setup : Setup) (world : World) (request : Nat) (frame : Frame) : Prop where
  outside : ContextsSound setup world request frame.outside
  phase : PhaseSound setup world request frame
  write : frame.call = .run false → setup.phaseServer frame.phase = .primary

/-- The caller of a call sees what the function around it sees. -/
def Linked (base : Contexts) : List Frame → Prop
  | [] => True
  | frame :: frames => frame.outside = contextsOf base frames ∧ Linked base frames

structure BranchSound (setup : Setup) (world : World) (branch : Branch) : Prop where
  base : ContextsSound setup world branch.request branch.base
  frames : ∀ frame ∈ branch.frames, FrameSound setup world branch.request frame
  linked : Linked branch.base branch.frames

structure WorldSound (setup : Setup) (world : World) : Prop where
  idle : ∀ name, (world.connections name).transaction = none →
    (world.connections name).setting = ""
  branches : ∀ name branch, world.branches name = some branch → BranchSound setup world branch
  bound : TenantBound setup world

/-! ## What every step keeps -/

/-- A transaction that goes on keeps its setting, or is bound to its own organization. -/
structure Keeps (setup : Setup) (before after : World) : Prop where
  next : before.nextTransaction ≤ after.nextTransaction
  connections : ∀ name opened, (after.connections name).transaction = some opened →
    before.nextTransaction ≤ opened.number ∨
      (before.connections name).transaction = some opened ∧
        ((after.connections name).setting = (before.connections name).setting ∨
          (after.connections name).setting = setup.settingFor opened.request)

section
variable {before after : World} {client : TransactionClient}

theorem keeps_setBranch (world : World) (name : Nat) (branch : Branch) :
    Keeps setup world (world.setBranch name branch) where
  next := Nat.le_refl _
  connections _ _ going := .inr ⟨going, .inl rfl⟩

theorem keeps_setConnection (world : World) {name : Nat} {connection : Connection}
    (change : ∀ opened, connection.transaction = some opened →
      world.nextTransaction ≤ opened.number ∨
        (world.connections name).transaction = some opened ∧
          connection.setting = setup.settingFor opened.request) :
    Keeps setup world (world.setConnection name connection) where
  next := Nat.le_refl _
  connections other opened going := by
    by_cases same : other = name
    · subst same
      simp only [World.setConnection, Function.update_self] at going ⊢
      exact (change opened going).imp_right fun ⟨kept, bound⟩ => ⟨kept, .inr bound⟩
    · simp only [World.setConnection, Function.update_of_ne same] at going ⊢
      exact .inr ⟨going, .inl trivial⟩

theorem Keeps.trans {middle : World} (first : Keeps setup before middle)
    (second : Keeps setup middle after) : Keeps setup before after where
  next := Nat.le_trans first.next second.next
  connections name opened going := by
    rcases second.connections name opened going with new | ⟨kept, setting⟩
    · exact .inl (Nat.le_trans first.next new)
    · rcases first.connections name opened kept with new | ⟨earlier, previous⟩
      · exact .inl new
      · refine .inr ⟨earlier, ?_⟩
        rcases setting with same | bound
        · rwa [same]
        · exact .inr bound

theorem Owns.keep (keeps : Keeps setup before after) (owns : Owns before request client) :
    Owns after request client := by
  obtain ⟨old, request⟩ := owns
  refine ⟨Nat.lt_of_lt_of_le old keeps.next, fun opened going same => ?_⟩
  rcases keeps.connections _ opened going with new | ⟨kept, -⟩
  · omega
  · exact request opened kept same

theorem Exposed.keep (keeps : Keeps setup before after)
    (exposed : Exposed setup before request client) : Exposed setup after request client := by
  obtain ⟨owns, bound⟩ := exposed
  refine ⟨owns.keep keeps, fun opened going same => ?_⟩
  rcases keeps.connections _ opened going with new | ⟨kept, setting⟩
  · have old := owns.1
    omega
  · rcases setting with equal | own
    · rw [equal, bound opened kept same]
    · rw [own, owns.2 opened kept same]

theorem ContextsSound.keep (keeps : Keeps setup before after) {contexts : Contexts}
    (sound : ContextsSound setup before request contexts) :
    ContextsSound setup after request contexts where
  transaction client opened :=
    ⟨(sound.transaction client opened).1.keep keeps, (sound.transaction client opened).2⟩
  readTransaction client opened := (sound.readTransaction client opened).keep keeps

theorem FrameSound.keep (keeps : Keeps setup before after) {frame : Frame}
    (sound : FrameSound setup before request frame) : FrameSound setup after request frame where
  outside := sound.outside.keep keeps
  write := sound.write
  phase := by
    obtain ⟨call, outside, inside, phase, opened⟩ := frame
    have phaseSound := sound.phase
    cases phase with
    | connecting server organizationId => exact phaseSound
    | binding client organizationId =>
      obtain ⟨bound, owns, contexts⟩ := phaseSound
      exact ⟨bound, owns.keep keeps, contexts⟩
    | running target =>
      refine ⟨phaseSound.1.keep keeps, ?_⟩
      cases target with
      | client client => exact Exposed.keep keeps phaseSound.2
      | direct server => exact phaseSound.2

theorem BranchSound.keep (keeps : Keeps setup before after) {branch : Branch}
    (sound : BranchSound setup before branch) : BranchSound setup after branch where
  base := sound.base.keep keeps
  frames frame member := (sound.frames frame member).keep keeps
  linked := sound.linked

end

/-! ## The steps -/

/-- What a step can do. -/
inductive Stepped (setup : Setup) (before : World) : World → Prop
  | started {name request : Nat} :
      Stepped setup before (before.setBranch name { request, base := {}, frames := [] })
  | forked {name child : Nat} {branch : Branch} {contexts : Contexts}
      (found : before.branches name = some branch) (active : branch.contexts? = some contexts) :
      Stepped setup before
        (before.setBranch child { request := branch.request, base := contexts, frames := [] })
  | called {name : Nat} {branch : Branch} {contexts : Contexts} {call : Call}
      (found : before.branches name = some branch) (active : branch.contexts? = some contexts) :
      Stepped setup before (before.enter name branch call contexts
        (call.course (setup.surroundings branch.request) contexts))
  | connected {name connection : Nat} {branch : Branch} {frame : Frame} {frames : List Frame}
      {server : Server} {organizationId : Option String}
      (found : before.branches name = some branch) (top : branch.frames = frame :: frames)
      (waits : frame.phase = .connecting server organizationId)
      (pool : setup.serverOf connection = server)
      (free : (before.connections connection).transaction = none) :
      Stepped setup before
        (before.begin name branch frame frames server organizationId connection)
  | bound {name : Nat} {branch : Branch} {frame : Frame} {frames : List Frame}
      {client : TransactionClient} {organizationId : String}
      (found : before.branches name = some branch) (top : branch.frames = frame :: frames)
      (waits : frame.phase = .binding client organizationId)
      (opened : before.isOpen client = true) :
      Stepped setup before ((before.setConnection client.connection
        { before.connections client.connection with setting := organizationId }).setBranch name
          { branch with frames := { frame with phase := .running (.client client) } :: frames })
  | issued {name connection : Nat} {branch : Branch} {frame : Frame} {frames : List Frame}
      {readOnly : Bool} {target : Target}
      (found : before.branches name = some branch) (top : branch.frames = frame :: frames)
      (runs : frame.call = .run readOnly) (running : frame.phase = .running target)
      (serves : before.serves setup connection target = true) :
      Stepped setup before { before with
        statements := {
          request := branch.request, write := !readOnly
          server := setup.serverOf connection
          setting := (before.connections connection).setting } :: before.statements }
  | left {name : Nat} {branch : Branch} {frame : Frame} {frames : List Frame}
      (found : before.branches name = some branch) (top : branch.frames = frame :: frames) :
      Stepped setup before { (before.close frame.opened).setBranch name { branch with frames } with
        returned := (frame.outside, contextsOf branch.base frames) :: before.returned }
  | aborted {connection : Nat} : Stepped setup before (before.setConnection connection {})

theorem stepped_of_step {before after : World} {action : Action}
    (taken : tenantStep setup before action = some after) : Stepped setup before after := by
  cases action with
  | start name request =>
    simp only [tenantStep] at taken
    split at taken
    · obtain rfl := Option.some.inj taken
      exact .started
    · simp at taken
  | fork name child =>
    simp only [tenantStep, Option.bind_eq_bind, Option.bind_eq_some_iff] at taken
    obtain ⟨branch, found, contexts, active, taken⟩ := taken
    split at taken
    · obtain rfl := Option.some.inj taken
      exact .forked found active
    · simp at taken
  | call name call =>
    simp only [tenantStep, Option.bind_eq_bind, Option.bind_eq_some_iff] at taken
    obtain ⟨branch, found, contexts, active, taken⟩ := taken
    obtain rfl := Option.some.inj taken
    exact .called found active
  | connect name connection =>
    simp only [tenantStep, Option.bind_eq_bind, Option.bind_eq_some_iff] at taken
    obtain ⟨branch, found, taken⟩ := taken
    split at taken
    · rename_i frame frames top
      split at taken
      · rename_i server organizationId waits
        split at taken
        · rename_i free
          obtain rfl := Option.some.inj taken
          exact .connected found top waits free.1 free.2
        · simp at taken
      · simp at taken
    · simp at taken
  | bind name =>
    simp only [tenantStep, Option.bind_eq_bind, Option.bind_eq_some_iff] at taken
    obtain ⟨branch, found, taken⟩ := taken
    split at taken
    · rename_i frame frames top
      split at taken
      · rename_i client organizationId waits
        split at taken
        · rename_i opened
          obtain rfl := Option.some.inj taken
          exact .bound found top waits opened
        · simp at taken
      · simp at taken
    · simp at taken
  | statement name connection =>
    simp only [tenantStep, Option.bind_eq_bind, Option.bind_eq_some_iff] at taken
    obtain ⟨branch, found, taken⟩ := taken
    split at taken
    · rename_i top
      split at taken
      · rename_i serves
        obtain rfl := Option.some.inj taken
        exact .issued found top rfl rfl serves
      · simp at taken
    · simp at taken
  | leave name =>
    simp only [tenantStep, Option.bind_eq_bind, Option.bind_eq_some_iff] at taken
    obtain ⟨branch, found, taken⟩ := taken
    split at taken
    · rename_i frame frames top
      obtain rfl := Option.some.inj taken
      exact .left found top
    · simp at taken
  | abort connection =>
    simp only [tenantStep] at taken
    split at taken
    · simp at taken
    · obtain rfl := Option.some.inj taken
      exact .aborted

/-! ## Every step keeps the world sound -/

theorem BranchSound.contexts {world : World} {branch : Branch} {contexts : Contexts}
    (sound : BranchSound setup world branch) (active : branch.contexts? = some contexts) :
    ContextsSound setup world branch.request contexts ∧
      contexts = contextsOf branch.base branch.frames := by
  obtain ⟨request, base, frames⟩ := branch
  cases frames with
  | nil =>
    obtain rfl : base = contexts := Option.some.inj active
    exact ⟨sound.base, rfl⟩
  | cons frame frames =>
    obtain ⟨call, outside, inside, phase, opened⟩ := frame
    cases phase with
    | connecting server organizationId => simp [Branch.contexts?] at active
    | binding client organizationId => simp [Branch.contexts?] at active
    | running target =>
      obtain rfl : inside = contexts := Option.some.inj active
      exact ⟨(sound.frames _ List.mem_cons_self).phase.1, rfl⟩

/-- A transaction that is bound may be used inside its function. -/
theorem ContextsSound.enter {world : World} {request : Nat} {contexts : Contexts}
    {client : TransactionClient} (sound : ContextsSound setup world request contexts)
    (exposed : Exposed setup world request client) :
    ContextsSound setup world request
      (enterContexts contexts (setup.serverOf client.connection) client) := by
  cases server : setup.serverOf client.connection with
  | primary =>
    refine ⟨fun other same => ?_, sound.readTransaction⟩
    obtain rfl := Option.some.inj same
    exact ⟨exposed, server⟩
  | replica =>
    refine ⟨sound.transaction, fun other same => ?_⟩
    obtain rfl := Option.some.inj same
    exact exposed

theorem isOpen_iff {world : World} {client : TransactionClient} :
    world.isOpen client = true ↔
      ∃ opened, (world.connections client.connection).transaction = some opened ∧
        opened.number = client.number := by
  simp only [World.isOpen, Option.any_eq_true, beq_iff_eq]

theorem branches_close (world : World) (client : Option TransactionClient) :
    (world.close client).branches = world.branches := by
  cases client with
  | none => rfl
  | some client =>
    simp only [World.close]
    split <;> rfl

/-- A branch stays sound when a call is put on it or its innermost call goes on. -/
theorem BranchSound.push {world : World} {request : Nat} {base : Contexts} {frame : Frame}
    {frames : List Frame} (baseSound : ContextsSound setup world request base)
    (rest : ∀ other ∈ frames, FrameSound setup world request other) (linked : Linked base frames)
    (top : FrameSound setup world request frame)
    (outside : frame.outside = contextsOf base frames) :
    BranchSound setup world { request, base, frames := frame :: frames } where
  base := baseSound
  frames := List.forall_mem_cons.mpr ⟨top, rest⟩
  linked := ⟨outside, linked⟩

theorem branches_setBranch {world : World} {name other : Nat} {branch found : Branch}
    (present : (world.setBranch name branch).branches other = some found) :
    found = branch ∨ world.branches other = some found := by
  by_cases same : other = name
  · subst same
    simp only [World.setBranch, Function.update_self] at present
    exact .inl (Option.some.inj present).symm
  · simp only [World.setBranch, Function.update_of_ne same] at present
    exact .inr present

section
variable {before after : World}

/-- A step that changes one branch at most keeps the world sound if that branch is sound after. -/
theorem WorldSound.keep (sound : WorldSound setup before) (keeps : Keeps setup before after)
    (idle : ∀ name, (after.connections name).transaction = none →
      (after.connections name).setting = "")
    (branches : ∀ name branch, after.branches name = some branch →
      before.branches name = some branch ∨ BranchSound setup after branch)
    (bound : TenantBound setup after) : WorldSound setup after where
  idle := idle
  branches name branch found :=
    (branches name branch found).elim (fun old => (sound.branches name branch old).keep keeps) id
  bound := bound

theorem WorldSound.setBranch (sound : WorldSound setup before) {name : Nat} {branch : Branch}
    (branchSound : BranchSound setup before branch) :
    WorldSound setup (before.setBranch name branch) := by
  have keeps := @keeps_setBranch setup before name branch
  refine sound.keep keeps sound.idle (fun other found present => ?_) ⟨sound.bound.settings,
    sound.bound.writes, sound.bound.contexts⟩
  rcases branches_setBranch present with rfl | old
  · exact .inr (branchSound.keep keeps)
  · exact .inl old

theorem WorldSound.setConnection (sound : WorldSound setup before) {name : Nat}
    {connection : Connection} (keeps : Keeps setup before (before.setConnection name connection))
    (idle : connection.transaction = none → connection.setting = "") :
    WorldSound setup (before.setConnection name connection) := by
  refine sound.keep keeps (fun other free => ?_) (fun _ _ => .inl) ⟨sound.bound.settings,
    sound.bound.writes, sound.bound.contexts⟩
  by_cases same : other = name
  · subst same
    simp only [World.setConnection, Function.update_self] at free ⊢
    exact idle free
  · simp only [World.setConnection, Function.update_of_ne same] at free ⊢
    exact sound.idle other free

theorem WorldSound.reset (sound : WorldSound setup before) (name : Nat) :
    WorldSound setup (before.setConnection name {}) :=
  sound.setConnection (keeps_setConnection before nofun) fun _ => rfl

theorem WorldSound.close (sound : WorldSound setup before) (client : Option TransactionClient) :
    WorldSound setup (before.close client) := by
  cases client with
  | none => exact sound
  | some client =>
    simp only [World.close]
    split
    · exact sound.reset client.connection
    · exact sound

/-- The branch after a call has begun. -/
theorem WorldSound.enter (sound : WorldSound setup before) {name : Nat} {branch : Branch}
    {call : Call} {contexts : Contexts} (found : before.branches name = some branch)
    (active : branch.contexts? = some contexts) {course : Course TransactionClient}
    (allowed : Allowed call (setup.surroundings branch.request) contexts course) :
    WorldSound setup (before.enter name branch call contexts course) := by
  have branchSound := sound.branches name branch found
  obtain ⟨reached, around⟩ := branchSound.contexts active
  have push : ∀ phase, PhaseSound setup before branch.request
      { call, outside := contexts, inside := contexts, phase } →
        (call = .run false → setup.phaseServer phase = .primary) →
          WorldSound setup (before.setBranch name { branch with
            frames := { call, outside := contexts, inside := contexts, phase } ::
              branch.frames }) :=
    fun phase phaseSound write => sound.setBranch
      (BranchSound.push branchSound.base branchSound.frames branchSound.linked
        ⟨reached, phaseSound, write⟩ around)
  cases course with
  | refused failure =>
    exact sound.keep ⟨Nat.le_refl _, fun _ _ going => .inr ⟨going, .inl rfl⟩⟩ sound.idle
      (fun _ _ => .inl) ⟨sound.bound.settings, sound.bound.writes,
        List.forall_mem_cons.mpr ⟨rfl, sound.bound.contexts⟩⟩
  | direct server =>
    obtain ⟨unbound, write⟩ := allowed
    exact push (.running (.direct server)) ⟨reached, by
      exact congrArg (·.getD "") unbound⟩ write
  | opened server organizationId =>
    exact push (.connecting server organizationId) allowed.1 allowed.2
  | joined client organizationId =>
    obtain ⟨own, bound, write⟩ := allowed
    have exposed : Exposed setup before branch.request client :=
      own.elim (fun opened => (reached.transaction client opened).1)
        (fun opened => reached.readTransaction client opened)
    have primary : call = .run false → setup.serverOf client.connection = .primary :=
      fun isRun => (reached.transaction client (write isRun)).2
    cases organizationId with
    | none => exact push (.running (.client client)) ⟨reached, exposed⟩ primary
    | some organizationId =>
      exact push (.binding client organizationId)
        ⟨settingFor_of_tenant (bound organizationId rfl), exposed.1, .inl rfl⟩ primary

/-- A connection that was free is unset, so that a transaction without an organization may use it
at once. -/
theorem WorldSound.begin (sound : WorldSound setup before) {name connection : Nat}
    {branch : Branch} {frame : Frame} {frames : List Frame} {server : Server}
    {organizationId : Option String} (found : before.branches name = some branch)
    (top : branch.frames = frame :: frames)
    (waits : frame.phase = .connecting server organizationId)
    (pool : setup.serverOf connection = server)
    (free : (before.connections connection).transaction = none) :
    WorldSound setup (before.begin name branch frame frames server organizationId connection) := by
  have branchSound := sound.branches name branch found
  obtain ⟨topSound, rest⟩ := List.forall_mem_cons.mp (top ▸ branchSound.frames)
  have linked := branchSound.linked
  rw [top] at linked
  have phase : organizationId = (setup.surroundings branch.request).tenant := by
    have phaseSound := topSound.phase
    rw [PhaseSound, waits] at phaseSound
    exact phaseSound
  have write : frame.call = .run false → server = .primary := by
    have writes := topSound.write
    rwa [waits] at writes
  -- the world with the new transaction, before the branch goes on
  generalize connectedEq : ({ before.setConnection connection { before.connections connection with
    transaction := some { number := before.nextTransaction, request := branch.request } } with
      nextTransaction := before.nextTransaction + 1 } : World) = connected
  have keeps : Keeps setup before connected := by
    subst connectedEq
    refine ⟨Nat.le_succ _, fun other opened going => ?_⟩
    by_cases same : other = connection
    · subst same
      simp only [World.setConnection, Function.update_self, Option.some.injEq] at going
      exact .inl (going ▸ Nat.le_refl _)
    · simp only [World.setConnection, Function.update_of_ne same] at going ⊢
      exact .inr ⟨going, .inl trivial⟩
  have connectedSound : WorldSound setup connected := by
    refine sound.keep keeps (fun other idle => ?_) ?_ ?_
    · subst connectedEq
      by_cases same : other = connection
      · subst same
        simp [World.setConnection] at idle
      · simp only [World.setConnection, Function.update_of_ne same] at idle ⊢
        exact sound.idle other idle
    · subst connectedEq
      exact fun _ _ => .inl
    · subst connectedEq
      exact ⟨sound.bound.settings, sound.bound.writes, sound.bound.contexts⟩
  have own : Owns connected branch.request { number := before.nextTransaction, connection } ∧
      (connected.connections connection).setting = "" := by
    subst connectedEq
    refine ⟨⟨Nat.lt_succ_self _, fun opened going _ => ?_⟩, ?_⟩
    · simp only [World.setConnection, Function.update_self, Option.some.injEq] at going
      exact going ▸ rfl
    · simpa [World.setConnection] using sound.idle connection free
  simp only [World.begin, connectedEq]
  refine connectedSound.setBranch (BranchSound.push (branchSound.base.keep keeps)
    (fun other member => (rest other member).keep keeps) linked.2
    ⟨topSound.outside.keep keeps, ?_, ?_⟩ linked.1)
  · cases organizationId with
    | some organizationId =>
      exact ⟨settingFor_of_tenant phase.symm, own.1, .inr (by rw [pool])⟩
    | none =>
      have exposed : Exposed setup connected branch.request
          { number := before.nextTransaction, connection } :=
        ⟨own.1, fun _ _ _ => own.2.trans (settingFor_of_no_tenant phase.symm).symm⟩
      have inside := (topSound.outside.keep keeps).enter exposed
      rw [pool] at inside
      exact ⟨inside, exposed⟩
  · intro isRun
    cases organizationId <;> exact pool.trans (write isRun)

/-- An organization is bound in a transaction of its own request. -/
theorem WorldSound.bind (sound : WorldSound setup before) {name : Nat} {branch : Branch}
    {frame : Frame} {frames : List Frame} {client : TransactionClient} {organizationId : String}
    (found : before.branches name = some branch) (top : branch.frames = frame :: frames)
    (waits : frame.phase = .binding client organizationId)
    (opened : before.isOpen client = true) :
    WorldSound setup ((before.setConnection client.connection
      { before.connections client.connection with setting := organizationId }).setBranch name
        { branch with frames := { frame with phase := .running (.client client) } :: frames }) := by
  have branchSound := sound.branches name branch found
  obtain ⟨topSound, rest⟩ := List.forall_mem_cons.mp (top ▸ branchSound.frames)
  have linked := branchSound.linked
  rw [top] at linked
  obtain ⟨setting, owns, contexts⟩ : setup.settingFor branch.request = organizationId ∧
      Owns before branch.request client ∧ (frame.inside = frame.outside ∨
        frame.inside = enterContexts frame.outside (setup.serverOf client.connection) client) := by
    have phaseSound := topSound.phase
    rw [PhaseSound, waits] at phaseSound
    exact phaseSound
  obtain ⟨current, going, same⟩ := isOpen_iff.mp opened
  have keeps : Keeps setup before (before.setConnection client.connection
      { before.connections client.connection with setting := organizationId }) := by
    refine keeps_setConnection before fun other kept => .inr ⟨kept, ?_⟩
    obtain rfl : current = other := Option.some.inj (going.symm.trans kept)
    rw [owns.2 current going same, setting]
  have exposed : Exposed setup (before.setConnection client.connection
      { before.connections client.connection with setting := organizationId }) branch.request
        client := by
    refine ⟨owns.keep keeps, fun _ _ _ => ?_⟩
    simp [World.setConnection, setting]
  have outside := topSound.outside.keep keeps
  refine WorldSound.setBranch (sound.setConnection keeps fun free => ?_)
    (BranchSound.push (branchSound.base.keep keeps) (fun other member => (rest other member).keep
      keeps) linked.2 ⟨outside, ⟨?_, exposed⟩, ?_⟩ linked.1)
  · rw [going] at free
    simp at free
  · rcases contexts with unchanged | entered
    · exact unchanged ▸ outside
    · exact entered ▸ outside.enter exposed
  · have writes := topSound.write
    rwa [waits] at writes

theorem WorldSound.issue (sound : WorldSound setup before) {name connection : Nat}
    {branch : Branch} {frame : Frame} {frames : List Frame} {readOnly : Bool} {target : Target}
    (found : before.branches name = some branch) (top : branch.frames = frame :: frames)
    (runs : frame.call = .run readOnly) (running : frame.phase = .running target)
    (serves : before.serves setup connection target = true) :
    WorldSound setup { before with
      statements := {
        request := branch.request, write := !readOnly
        server := setup.serverOf connection
        setting := (before.connections connection).setting } :: before.statements } := by
  have topSound := (sound.branches name branch found).frames frame (top ▸ List.mem_cons_self)
  have targetSound : TargetSound setup before branch.request target := by
    have phaseSound := topSound.phase
    rw [PhaseSound, running] at phaseSound
    exact phaseSound.2
  have write := topSound.write
  rw [running, runs] at write
  have here : (before.connections connection).setting = setup.settingFor branch.request ∧
      setup.serverOf connection = setup.phaseServer (.running target) := by
    cases target with
    | client client =>
      obtain ⟨same, opened⟩ := Bool.and_eq_true_iff.mp serves
      obtain rfl : connection = client.connection := of_decide_eq_true same
      obtain ⟨current, going, number⟩ := isOpen_iff.mp opened
      exact ⟨targetSound.2 current going number, rfl⟩
    | direct server =>
      obtain ⟨pool, free⟩ := Bool.and_eq_true_iff.mp serves
      exact ⟨(sound.idle connection (Option.isNone_iff_eq_none.mp free)).trans targetSound.symm,
        of_decide_eq_true pool⟩
  refine sound.keep ⟨Nat.le_refl _, fun _ _ going => .inr ⟨going, .inl rfl⟩⟩ sound.idle
    (fun _ _ => .inl) ⟨List.forall_mem_cons.mpr ⟨here.1, sound.bound.settings⟩,
      List.forall_mem_cons.mpr ⟨fun writing => here.2.trans (write ?_), sound.bound.writes⟩,
        sound.bound.contexts⟩
  have writes : readOnly = false := by simpa using writing
  rw [writes]

theorem WorldSound.leave (sound : WorldSound setup before) {name : Nat} {branch : Branch}
    {frame : Frame} {frames : List Frame} (found : before.branches name = some branch)
    (top : branch.frames = frame :: frames) :
    WorldSound setup { (before.close frame.opened).setBranch name { branch with frames } with
      returned := (frame.outside, contextsOf branch.base frames) :: before.returned } := by
  have closedSound := sound.close frame.opened
  have branchSound := closedSound.branches name branch ((branches_close before _).symm ▸ found)
  have linked := branchSound.linked
  rw [top] at linked
  have left : WorldSound setup
      ((before.close frame.opened).setBranch name { branch with frames }) :=
    closedSound.setBranch ⟨branchSound.base,
      fun other member => branchSound.frames other (top ▸ List.mem_cons_of_mem _ member), linked.2⟩
  exact left.keep ⟨Nat.le_refl _, fun _ _ going => .inr ⟨going, .inl rfl⟩⟩ left.idle
    (fun _ _ => .inl) ⟨left.bound.settings, left.bound.writes,
      List.forall_mem_cons.mpr ⟨linked.1.symm, sound.bound.contexts⟩⟩

theorem WorldSound.step (sound : WorldSound setup before) (stepped : Stepped setup before after) :
    WorldSound setup after := by
  cases stepped with
  | started => exact sound.setBranch ⟨⟨nofun, nofun⟩, List.forall_mem_nil _, trivial⟩
  | forked found active =>
    exact sound.setBranch
      ⟨((sound.branches _ _ found).contexts active).1, List.forall_mem_nil _, trivial⟩
  | called found active => exact sound.enter found active (allowed_course _ _ _)
  | connected found top waits pool free => exact sound.begin found top waits pool free
  | bound found top waits opened => exact sound.bind found top waits opened
  | issued found top runs running serves => exact sound.issue found top runs running serves
  | left found top => exact sound.leave found top
  | aborted => exact sound.reset _

end

theorem sound_of_initial {world : World} (initial : (tenantSystem setup).initial world) :
    WorldSound setup world := by
  obtain ⟨connections, branches, statements, returned⟩ := initial
  refine ⟨fun name _ => ?_, fun name branch found => ?_, ⟨?_, ?_, ?_⟩⟩
  · rw [connections]
  · simp [branches] at found
  · simp [statements]
  · simp [statements]
  · simp [returned]

theorem sound_of_run {history : List (World × Action)} {world : World}
    (run : (tenantSystem setup).Run history world) : WorldSound setup world :=
  run.invariant (fun _ => sound_of_initial) fun _ _ _ sound taken =>
    sound.step (stepped_of_step taken)

/-- In every run each statement of a request runs with the setting of the request's organization,
or with none if it has none, writes run on the primary, and calls leave the contexts as they
were. -/
theorem tenantBound_of_run (setup : Setup) {history : List (World × Action)} {world : World}
    (run : (tenantSystem setup).Run history world) : TenantBound setup world :=
  (sound_of_run run).bound

/-! ## Three requests -/

/-- Two requests with an organization and others without, and connections to both servers. -/
def sharedPools : Setup where
  organizationOf request := if request = 0 then some "org-a" else if request = 1 then some "org-b"
    else none
  hasReplica := true
  serverOf connection := if connection < 10 then .primary else .replica

def idleWorld : World where
  connections _ := {}
  branches _ := none
  nextTransaction := 0
  statements := []
  returned := []

/-- One request writes in a transaction while another one reads from the replica; a third one then
uses the connection of the first. -/
def interleaved : List Action :=
  [.start 0 0, .start 1 1, .call 0 .transaction, .call 1 (.run true), .connect 0 4, .connect 1 12,
   .bind 1, .bind 0, .call 0 (.run false), .statement 1 12, .statement 0 4, .leave 0, .leave 1,
   .leave 0, .start 2 2, .call 2 (.run false), .statement 2 4, .leave 2]

theorem interleaved_bound :
    ∃ history world, (tenantSystem sharedPools).Run history world ∧
      world.statements =
        [{ request := 2, write := true, server := .primary, setting := "" },
         { request := 0, write := true, server := .primary, setting := "org-a" },
         { request := 1, write := false, server := .replica, setting := "org-b" }] ∧
      TenantBound sharedPools world := by
  obtain ⟨history, world, run, -, -, found⟩ := @TransitionSystem.run_of_execute _ _
    (tenantSystem sharedPools) (fun _ _ => true) (fun _ _ => True) (fun _ _ _ => trivial) idleWorld
    interleaved
    (fun world => world.statements =
        [{ request := 2, write := true, server := .primary, setting := "" },
         { request := 0, write := true, server := .primary, setting := "org-a" },
         { request := 1, write := false, server := .replica, setting := "org-b" }])
    ⟨rfl, rfl, rfl, rfl⟩ (by decide +kernel)
  exact ⟨history, world, run, of_decide_eq_true found, tenantBound_of_run sharedPools run⟩

end NestjsFastify.Prisma
