import Mathlib.Logic.Function.Basic
import NestjsFastify.TransitionSystem

/-! # The leader lease

Replicas compete for one Redis key.  A replica's flag says whether it is the leader; it follows the
answers to the commands that its ticks and its stop have sent.  An answer may come arbitrarily
late, and a command that the client gave up may still be carried out.
-/
namespace NestjsFastify.LeaderLease

def leaseTtlMs : Nat := 30000

/-! ### The key -/

/-- The value of the key, the token of some replica, and when it expires. -/
structure LeaseKey where
  token : Nat
  expiresAt : Nat
  deriving DecidableEq, Repr

inductive LeaseCommand where
  | renew
  | acquire
  | release
  deriving DecidableEq, Repr

/-- What Redis makes of a command: `RENEW_SCRIPT`, `SET key token PX ttl NX` and `RELEASE_SCRIPT`. -/
def runCommand (now : Nat) (key : Option LeaseKey) (token : Nat) :
    LeaseCommand → Option LeaseKey × Bool
  | .renew =>
      match key with
      | some held =>
          if held.token = token then (some { held with expiresAt := now + leaseTtlMs }, true)
          else (key, false)
      | none => (none, false)
  | .acquire =>
      match key with
      | some _ => (key, false)
      | none => (some ⟨token, now + leaseTtlMs⟩, true)
  | .release =>
      match key with
      | some held => if held.token = token then (none, true) else (key, false)
      | none => (none, false)

/-- Neither a renewal nor a release touches a key with another token, and no command takes it
over. -/
theorem runCommand_other {now token : Nat} {held : LeaseKey} (other : held.token ≠ token)
    (command : LeaseCommand) : runCommand now (some held) token command = (some held, false) := by
  cases command with
  | acquire => rfl
  | renew | release => simp [runCommand, other]

/-! ### A replica -/

/-- A tick or a stop in progress, with the answer on its way if its command has been carried
out. -/
inductive LeaseTask where
  | renewing (reply : Option Bool)
  | acquiring (reply : Option Bool)
  | releasing (reply : Option Bool)
  | settling
  | stopping (reply : Option Bool)
  deriving DecidableEq, Repr

/-- `inFlightTicks` has the task. -/
def LeaseTask.isTick : LeaseTask → Bool
  | renewing _ => true
  | acquiring _ => true
  | releasing _ => true
  | _ => false

/-- The command has won the key and the answer is on its way. -/
def LeaseTask.isWon : LeaseTask → Bool
  | acquiring (some true) => true
  | _ => false

def LeaseTask.isReleasing : LeaseTask → Bool
  | releasing _ => true
  | _ => false

def LeaseTask.isStopping : LeaseTask → Bool
  | stopping _ => true
  | _ => false

/-- The stop's release has been carried out and the answer is on its way. -/
def LeaseTask.isReleased : LeaseTask → Bool
  | stopping (some _) => true
  | _ => false

def LeaseTask.isSettling : LeaseTask → Bool
  | settling => true
  | _ => false

def LeaseTask.command : LeaseTask → Option LeaseCommand
  | renewing _ => some .renew
  | acquiring _ => some .acquire
  | releasing _ => some .release
  | settling => none
  | stopping _ => some .release

def LeaseTask.answered (task : LeaseTask) (reply : Bool) : LeaseTask :=
  match task with
  | renewing _ => .renewing (some reply)
  | acquiring _ => .acquiring (some reply)
  | releasing _ => .releasing (some reply)
  | settling => .settling
  | stopping _ => .stopping (some reply)

/-- The replica's flags, how often `onLeadershipLost` was called, and what is in progress. -/
structure Replica where
  leader : Bool := false
  stopped : Bool := false
  losses : Nat := 0
  tasks : List LeaseTask := []
  deriving DecidableEq, Repr

def Replica.setLeader (replica : Replica) (next : Bool) : Replica :=
  { replica with
    leader := next
    losses := if replica.leader && !next then replica.losses + 1 else replica.losses }

/-- The answer to a command arrives, or its promise is rejected. -/
inductive ReplyOutcome where
  | answered
  | failed
  deriving DecidableEq, Repr

/-- The replica goes on with one of its tasks: what becomes of it and of the task. -/
def Replica.resume (replica : Replica) : LeaseTask → ReplyOutcome →
    Option (Replica × Option LeaseTask)
  | .renewing (some renewed), .answered =>
      if replica.stopped || renewed then some (replica, none)
      else some (replica.setLeader false, some (.acquiring none))
  | .acquiring (some acquired), .answered =>
      if replica.stopped then some (replica, if acquired then some (.releasing none) else none)
      else some (replica.setLeader acquired, none)
  | .releasing (some _), .answered => some (replica, none)
  -- `stop` has waited for the ticks in flight, and no tick starts once `stopped` is set
  | .settling, .answered =>
      if replica.tasks.any LeaseTask.isTick then none
      else if replica.leader then some (replica, some (.stopping none))
      else some (replica.setLeader false, none)
  | .stopping (some _), .answered => some (replica.setLeader false, none)
  | .renewing _, .failed => some (replica.setLeader false, none)
  | .acquiring _, .failed => some (replica.setLeader false, none)
  | .releasing _, .failed => some (replica.setLeader false, none)
  | .stopping _, .failed => some (replica.setLeader false, none)
  | _, _ => none

/-! ### The replicas and Redis -/

/-- The key, the clock of Redis, the replicas (the token of a replica is its number), and the
commands that clients gave up. -/
structure LeaseWorld where
  key : Option LeaseKey := none
  now : Nat := 0
  replicas : Nat → Replica := fun _ => {}
  strays : List (Nat × LeaseCommand) := []

/-- The key as commands find it. -/
def LeaseWorld.held (world : LeaseWorld) : Option LeaseKey :=
  world.key.filter fun key => world.now < key.expiresAt

inductive LeaseAction where
  | elapse (milliseconds : Nat)
  | tick (replica : Nat)
  | stop (replica : Nat)
  | execute (replica task : Nat)
  | executeStray (index : Nat)
  | resume (replica task : Nat) (outcome : ReplyOutcome)
  deriving DecidableEq, Repr

/-- The tasks after one of them has gone on, or has ended. -/
def updateTask (tasks : List LeaseTask) (index : Nat) : Option LeaseTask → List LeaseTask
  | some next => tasks.set index next
  | none => tasks.eraseIdx index

/-- A command whose promise was rejected may still reach Redis. -/
def leftBehind (name : Nat) (task : LeaseTask) : ReplyOutcome → List (Nat × LeaseCommand)
  | .answered => []
  | .failed => task.command.toList.map fun command => (name, command)

def LeaseWorld.setReplica (world : LeaseWorld) (name : Nat) (replica : Replica) : LeaseWorld :=
  { world with replicas := Function.update world.replicas name replica }

@[simp] theorem LeaseWorld.replicas_setReplica (world : LeaseWorld) (name : Nat)
    (replica : Replica) : (world.setReplica name replica).replicas name = replica :=
  Function.update_self _ _ _

theorem LeaseWorld.replicas_setReplica_ne (world : LeaseWorld) {name other : Nat}
    (replica : Replica) (different : other ≠ name) :
    (world.setReplica name replica).replicas other = world.replicas other :=
  Function.update_of_ne different _ _

@[simp] theorem LeaseWorld.held_setReplica (world : LeaseWorld) (name : Nat)
    (replica : Replica) : (world.setReplica name replica).held = world.held := rfl

@[simp] theorem LeaseWorld.strays_setReplica (world : LeaseWorld) (name : Nat)
    (replica : Replica) : (world.setReplica name replica).strays = world.strays := rfl

def LeaseWorld.step (world : LeaseWorld) : LeaseAction → Option LeaseWorld
  | .elapse milliseconds => some { world with now := world.now + milliseconds }
  | .tick name =>
      let replica := world.replicas name
      if replica.stopped then some world
      else
        some (world.setReplica name { replica with
          tasks := replica.tasks ++ [if replica.leader then .renewing none else .acquiring none] })
  | .stop name =>
      let replica := world.replicas name
      some (world.setReplica name
        { replica with stopped := true, tasks := replica.tasks ++ [.settling] })
  -- a command is sent again when the connection broke before its answer
  | .execute name index => do
      let task ← (world.replicas name).tasks[index]?
      let command ← task.command
      let (key, reply) := runCommand world.now world.held name command
      pure ({ world with key }.setReplica name { world.replicas name with
        tasks := (world.replicas name).tasks.set index (task.answered reply) })
  | .executeStray index => do
      let (name, command) ← world.strays[index]?
      pure { world with key := (runCommand world.now world.held name command).1 }
  | .resume name index outcome => do
      let task ← (world.replicas name).tasks[index]?
      let (replica, next) ← (world.replicas name).resume task outcome
      let strays := world.strays ++ leftBehind name task outcome
      pure ({ world with strays }.setReplica name { replica with
        tasks := updateTask replica.tasks index next })

def leaseSystem : TransitionSystem LeaseWorld LeaseAction where
  initial world := (∀ name, world.replicas name = {}) ∧ world.strays = []
  step := LeaseWorld.step

/-! ### What is to hold -/

def LeaseWorld.isLeader (world : LeaseWorld) (name : Nat) : Prop :=
  (world.replicas name).leader = true

/-- The key that holds the replica's token is not past its time. -/
def LeaseWorld.HeldBy (world : LeaseWorld) (name : Nat) : Prop :=
  ∃ key, world.held = some key ∧ key.token = name

/-- The replica has won the key and the answer is on its way. -/
def LeaseWorld.Winning (world : LeaseWorld) (name : Nat) : Prop :=
  (world.replicas name).tasks.any LeaseTask.isWon = true

/-- Redis has carried out the release of the replica's stop, and the answer is on its way. -/
def LeaseWorld.Released (world : LeaseWorld) (name : Nat) : Prop :=
  (world.replicas name).tasks.any LeaseTask.isReleased = true

/-- Redis carries out a command of the replica in the step. -/
def LeaseWorld.Sends (world : LeaseWorld) (action : LeaseAction) (name : Nat)
    (command : LeaseCommand) : Prop :=
  match action with
  | .execute replica index => replica = name ∧
      ((world.replicas replica).tasks[index]? >>= LeaseTask.command) = some command
  | .executeStray index => world.strays[index]? = some (name, command)
  | _ => False

/-- The key does not expire under a replica that needs it. -/
def Sustained (needs : LeaseWorld → Nat → Prop) (world : LeaseWorld) : LeaseAction → Prop
  | .elapse milliseconds => ∀ key, world.held = some key → needs world key.token →
      world.now + milliseconds < key.expiresAt
  | _ => True

end NestjsFastify.LeaderLease
