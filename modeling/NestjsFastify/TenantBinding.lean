import Mathlib.Logic.Function.Basic
import NestjsFastify.TransactionCourse
import NestjsFastify.TransitionSystem

/-! # Tenant binding

Requests share pools of connections.  Each runs any number of branches, which call the database
service and the repository in any nesting, and whose calls return or throw.  A setting that a
transaction has made lasts until its end, and the statements of a request are to see the setting
of its own organization.
-/
namespace NestjsFastify.Prisma

/-! ## Connections and calls -/

/-- The transaction that a connection is in, and the request that has opened it. -/
structure OpenTransaction where
  number : Nat
  request : Nat
  deriving DecidableEq, Repr

/-- A connection of a pool.  The setting is `app.current_org_id`, empty while it is unset. -/
structure Connection where
  setting : String := ""
  transaction : Option OpenTransaction := none
  deriving DecidableEq, Repr

/-- The client of a transaction, of no use once the transaction has ended. -/
structure TransactionClient where
  number : Nat
  connection : Nat
  deriving DecidableEq, Repr

abbrev Contexts : Type := TransactionContexts TransactionClient

inductive Call where
  | transaction
  | withTenantContext (readOnly : Bool)
  | run (readOnly : Bool)
  deriving DecidableEq, Repr

def Call.course (call : Call) (surroundings : Surroundings) (contexts : Contexts) :
    Course TransactionClient :=
  match call with
  | .transaction => Prisma.transaction surroundings contexts
  | .withTenantContext readOnly => Prisma.withTenantContext surroundings contexts readOnly
  | .run readOnly => Prisma.run surroundings contexts readOnly

/-- What the function of a call is run on. -/
inductive Target where
  | client (client : TransactionClient)
  | direct (server : Server)
  deriving DecidableEq, Repr

/-- A call waits for a connection, its client has yet to be bound, or its function runs. -/
inductive Phase where
  | connecting (server : Server) (organizationId : Option String)
  | binding (client : TransactionClient) (organizationId : String)
  | running (target : Target)
  deriving DecidableEq, Repr

/-- A call in progress: the contexts that its caller sees and those that its function sees, and
the transaction that ends with it. -/
structure Frame where
  call : Call
  outside : Contexts
  inside : Contexts
  phase : Phase
  opened : Option TransactionClient := none
  deriving DecidableEq, Repr

/-- Code of a request that runs beside other code of it, with its calls, the innermost first. -/
structure Branch where
  request : Nat
  base : Contexts
  frames : List Frame
  deriving DecidableEq, Repr

def contextsOf (base : Contexts) : List Frame → Contexts
  | [] => base
  | frame :: _ => frame.inside

/-- The contexts that code of the branch sees, if it is not waiting. -/
def Branch.contexts? (branch : Branch) : Option Contexts :=
  match branch.frames with
  | [] => some branch.base
  | { phase := .running _, inside, .. } :: _ => some inside
  | _ => none

/-- The contexts in a function that runs in a new transaction. -/
def enterContexts (contexts : Contexts) (server : Server) (client : TransactionClient) : Contexts :=
  match server with
  | .primary => { contexts with transaction := some client }
  | .replica => { contexts with readTransaction := some client }

/-! ## Runs -/

/-- A statement on `stored_files` through the repository. -/
structure Statement where
  request : Nat
  write : Bool
  server : Server
  setting : String
  deriving DecidableEq, Repr

structure World where
  connections : Nat → Connection
  branches : Nat → Option Branch
  nextTransaction : Nat
  statements : List Statement
  returned : List (Contexts × Contexts)

/-- The organizations of the requests, whether there is a replica, and which pool each connection
belongs to. -/
structure Setup where
  organizationOf : Nat → Option String
  hasReplica : Bool
  serverOf : Nat → Server

def Setup.surroundings (setup : Setup) (request : Nat) : Surroundings :=
  { organizationId := setup.organizationOf request, hasReplica := setup.hasReplica }

/-- What the statements of a request are to see, empty for a request without an organization. -/
def Setup.settingFor (setup : Setup) (request : Nat) : String :=
  (setup.organizationOf request).getD ""

/-- Every branch goes on by itself, and a transaction may be aborted at any time. -/
inductive Action where
  | start (branch request : Nat)
  | fork (branch child : Nat)
  | call (branch : Nat) (call : Call)
  | connect (branch connection : Nat)
  | bind (branch : Nat)
  | statement (branch connection : Nat)
  | leave (branch : Nat)
  | abort (connection : Nat)
  deriving DecidableEq, Repr

def World.setBranch (world : World) (name : Nat) (branch : Branch) : World :=
  { world with branches := Function.update world.branches name (some branch) }

def World.setConnection (world : World) (name : Nat) (connection : Connection) : World :=
  { world with connections := Function.update world.connections name connection }

def World.isOpen (world : World) (client : TransactionClient) : Bool :=
  (world.connections client.connection).transaction.any (·.number == client.number)

/-- Commit or roll back, whatever is left of the transaction. -/
def World.close (world : World) : Option TransactionClient → World
  | some client => if world.isOpen client then world.setConnection client.connection {} else world
  | none => world

/-- A call begins, or is refused at once. -/
def World.enter (world : World) (name : Nat) (branch : Branch) (call : Call) (contexts : Contexts) :
    Course TransactionClient → World
  | .joined client none =>
      world.setBranch name { branch with
        frames := { call, outside := contexts, inside := contexts
                    phase := .running (.client client) } :: branch.frames }
  | .joined client (some organizationId) =>
      world.setBranch name { branch with
        frames := { call, outside := contexts, inside := contexts
                    phase := .binding client organizationId } :: branch.frames }
  | .opened server organizationId =>
      world.setBranch name { branch with
        frames := { call, outside := contexts, inside := contexts
                    phase := .connecting server organizationId } :: branch.frames }
  | .direct server =>
      world.setBranch name { branch with
        frames := { call, outside := contexts, inside := contexts
                    phase := .running (.direct server) } :: branch.frames }
  | .refused _ => { world with returned := (contexts, contexts) :: world.returned }

/-- `$transaction` gets a connection; the function runs once an organization is bound. -/
def World.begin (world : World) (name : Nat) (branch : Branch) (frame : Frame)
    (frames : List Frame) (server : Server) (organizationId : Option String) (connection : Nat) :
    World :=
  let client : TransactionClient := { number := world.nextTransaction, connection }
  let connected := { world.setConnection connection { world.connections connection with
    transaction := some { number := world.nextTransaction, request := branch.request } } with
    nextTransaction := world.nextTransaction + 1 }
  connected.setBranch name { branch with
    frames := { frame with
      inside := enterContexts frame.outside server client
      phase := match organizationId with
        | some organizationId => .binding client organizationId
        | none => .running (.client client)
      opened := some client } :: frames }

/-- A connection can serve a statement: that of the client, as long as its transaction is open, or
one of the pool that is free. -/
def World.serves (world : World) (setup : Setup) (connection : Nat) : Target → Bool
  | .client client => connection = client.connection && world.isOpen client
  | .direct server =>
      setup.serverOf connection = server && (world.connections connection).transaction.isNone

def tenantStep (setup : Setup) (world : World) : Action → Option World
  | .start name request =>
      if world.branches name = none then
        some (world.setBranch name { request, base := {}, frames := [] })
      else none
  | .fork name child => do
      let branch ← world.branches name
      let contexts ← branch.contexts?
      if world.branches child = none then
        some (world.setBranch child { request := branch.request, base := contexts, frames := [] })
      else none
  | .call name call => do
      let branch ← world.branches name
      let contexts ← branch.contexts?
      some (world.enter name branch call contexts
        (call.course (setup.surroundings branch.request) contexts))
  | .connect name connection => do
      let branch ← world.branches name
      match branch.frames with
      | frame :: frames =>
          match frame.phase with
          | .connecting server organizationId =>
              if setup.serverOf connection = server ∧
                  (world.connections connection).transaction = none then
                some (world.begin name branch frame frames server organizationId connection)
              else none
          | _ => none
      | [] => none
  | .bind name => do
      let branch ← world.branches name
      match branch.frames with
      | frame :: frames =>
          match frame.phase with
          | .binding client organizationId =>
              if world.isOpen client then
                some ((world.setConnection client.connection
                  { world.connections client.connection with setting := organizationId }).setBranch
                    name { branch with
                      frames := { frame with phase := .running (.client client) } :: frames })
              else none
          | _ => none
      | [] => none
  | .statement name connection => do
      let branch ← world.branches name
      match branch.frames with
      | { call := .run readOnly, phase := .running target, .. } :: _ =>
          if world.serves setup connection target then
            some { world with
              statements := {
                request := branch.request, write := !readOnly
                server := setup.serverOf connection
                setting := (world.connections connection).setting } :: world.statements }
          else none
      | _ => none
  | .leave name => do
      let branch ← world.branches name
      match branch.frames with
      | frame :: frames =>
          let closed := (world.close frame.opened).setBranch name { branch with frames }
          some { closed with
            returned := (frame.outside, contextsOf branch.base frames) :: world.returned }
      | [] => none
  | .abort connection =>
      if (world.connections connection).transaction = none then none
      else some (world.setConnection connection {})

def tenantSystem (setup : Setup) : TransitionSystem World Action where
  initial world :=
    world.connections = (fun _ => {}) ∧ world.branches = (fun _ => none) ∧
      world.statements = [] ∧ world.returned = []
  step := tenantStep setup

/-- Statements see the organization of their request and writes go to the primary, and a call
leaves the contexts as they were. -/
structure TenantBound (setup : Setup) (world : World) : Prop where
  settings : ∀ statement ∈ world.statements, statement.setting = setup.settingFor statement.request
  writes : ∀ statement ∈ world.statements, statement.write = true → statement.server = .primary
  contexts : ∀ call ∈ world.returned, call.2 = call.1

end NestjsFastify.Prisma
