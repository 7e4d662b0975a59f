import Mathlib.Data.Rat.Defs
import NestjsFastify.LeaseQuiescence

/-! # Metrics of the collector leader

Queue depth and outbox lag are one truth for all replicas, so only the leader records them.  A
collector asks for the leadership before its query and writes the gauge after it; a replica that
loses the lease resets its gauges, and a query that is answered later writes them once more.
-/
namespace NestjsFastify.CollectorMetrics
open LeaderLease (LeaseWorld LeaseAction leaseSystem losses_of_step leaseStep_of_step)
open TransitionSystem (Guarded)

/-! ### Gauges -/

/-- A value of a gauge, and how often the replica had lost the lease when the value was asked
for. -/
structure Sample (Value : Type*) where
  value : Value
  readAt : Nat
  deriving DecidableEq, Repr

/-- The series of a gauge.  A gauge without labels shows 0 where it has no sample. -/
structure Gauge (Labels Value : Type*) where
  series : Labels → Option (Sample Value)

namespace Gauge
variable {Labels Value : Type*}

def reset : Gauge Labels Value := ⟨fun _ => none⟩

def set [DecidableEq Labels] (gauge : Gauge Labels Value) (labels : Labels)
    (sample : Sample Value) : Gauge Labels Value :=
  ⟨Function.update gauge.series labels (some sample)⟩

/-- All samples have been asked for since the last loss. -/
def Since (gauge : Gauge Labels Value) (losses : Nat) : Prop :=
  ∀ labels, ∀ sample ∈ gauge.series labels, sample.readAt = losses

theorem since_reset (losses : Nat) : (reset : Gauge Labels Value).Since losses :=
  fun _ _ none => nomatch none

theorem Since.set [DecidableEq Labels] {gauge : Gauge Labels Value} {losses : Nat}
    (since : gauge.Since losses) (labels : Labels) {sample : Sample Value}
    (now : sample.readAt = losses) : (gauge.set labels sample).Since losses := by
  intro other written member
  by_cases same : other = labels
  · subst same
    simp only [Gauge.set, Function.update_self, Option.mem_some_iff] at member
    exact member ▸ now
  · simp only [Gauge.set, Function.update_of_ne same] at member
    exact since other written member

end Gauge

/-- The gauges of the global state: queue and state of the jobs label the queue depth. -/
structure Metrics where
  bullmqQueueDepth : Gauge (String × String) Nat := Gauge.reset
  outboxLagSeconds : Gauge Unit Rat := Gauge.reset

inductive Collector where
  | queueDepth
  | outboxLag
  deriving DecidableEq, Repr

/-- What the collector has registered with `onLeadershipLost`. -/
def Collector.clear : Collector → Metrics → Metrics
  | queueDepth, metrics => { metrics with bullmqQueueDepth := Gauge.reset }
  | outboxLag, metrics => { metrics with outboxLagSeconds := Gauge.reset }

def notifyLeadershipLost (handlers : List Collector) (metrics : Metrics) : Metrics :=
  handlers.foldl (fun metrics handler => handler.clear metrics) metrics

/-- Once both collectors have registered, the loss of the lease clears every gauge. -/
theorem notifyLeadershipLost_eq {handlers : List Collector}
    (registered : ∀ collector, collector ∈ handlers) (metrics : Metrics) :
    notifyLeadershipLost handlers metrics = {} := by
  have depth : ∀ (handlers : List Collector) (metrics : Metrics),
      .queueDepth ∈ handlers ∨ metrics.bullmqQueueDepth = Gauge.reset →
        (notifyLeadershipLost handlers metrics).bullmqQueueDepth = Gauge.reset := by
    intro handlers
    induction handlers with
    | nil => exact fun metrics cleared => cleared.resolve_left List.not_mem_nil
    | cons handler handlers ih =>
      refine fun metrics cleared => ih _ ?_
      cases handler with
      | queueDepth => exact .inr rfl
      | outboxLag => exact cleared.imp_left (by simp)
  have lag : ∀ (handlers : List Collector) (metrics : Metrics),
      .outboxLag ∈ handlers ∨ metrics.outboxLagSeconds = Gauge.reset →
        (notifyLeadershipLost handlers metrics).outboxLagSeconds = Gauge.reset := by
    intro handlers
    induction handlers with
    | nil => exact fun metrics cleared => cleared.resolve_left List.not_mem_nil
    | cons handler handlers ih =>
      refine fun metrics cleared => ih _ ?_
      cases handler with
      | queueDepth => exact cleared.imp_left (by simp)
      | outboxLag => exact .inr rfl
  have cleared := depth handlers metrics (.inl (registered _))
  have cleared' := lag handlers metrics (.inl (registered _))
  cases after : notifyLeadershipLost handlers metrics
  simp_all

/-! ### Collecting -/

def emailQueue : String := "email-notification"
def uploadQueue : String := "upload-verification"

/-- A run of the queue depth collector: the queue it waits for, and those that are left. -/
structure DepthRun where
  queue : String
  remaining : List String
  readAt : Nat
  deriving DecidableEq, Repr

/-- The lease, the gauges of one replica, and its `collect` runs in flight. -/
structure MetricsWorld where
  lease : LeaseWorld
  leadershipLostHandlers : List Collector
  metrics : Metrics := {}
  depthRuns : List DepthRun := []
  lagRuns : List Nat := []

/-- Something happens to the lease, an interval fires, or a query is answered: with the counts by
state, with the rows, or with an error. -/
inductive MetricsAction where
  | lease (action : LeaseAction)
  | collectDepth
  | collectLag
  | depthRead (run : Nat) (counts : Option (List (String × Nat)))
  | lagRead (run : Nat) (rows : Option (List (Option Rat)))

namespace MetricsWorld

def isLeader (world : MetricsWorld) (name : Nat) : Bool := (world.lease.replicas name).leader

/-- How often the replica has lost the lease. -/
def losses (world : MetricsWorld) (name : Nat) : Nat := (world.lease.replicas name).losses

/-- `for (const [state, n] of Object.entries(counts))` -/
def writeCounts (gauge : Gauge (String × String) Nat) (run : DepthRun)
    (counts : List (String × Nat)) : Gauge (String × String) Nat :=
  counts.foldl (fun gauge entry => gauge.set (run.queue, entry.1) ⟨entry.2, run.readAt⟩) gauge

def step (name : Nat) (world : MetricsWorld) : MetricsAction → Option MetricsWorld
  -- `setLeader` runs the handlers before it returns
  | .lease action => do
      let lease ← world.lease.step action
      let lost := (lease.replicas name).losses ≠ world.losses name
      pure { world with
        lease
        metrics :=
          if lost then notifyLeadershipLost world.leadershipLostHandlers world.metrics
          else world.metrics }
  | .collectDepth =>
      if world.isLeader name then
        some { world with
          depthRuns := world.depthRuns ++ [⟨emailQueue, [uploadQueue], world.losses name⟩] }
      else some world
  | .collectLag =>
      if world.isLeader name then
        some { world with lagRuns := world.lagRuns ++ [world.losses name] }
      else some world
  | .depthRead index counts => do
      let run ← world.depthRuns[index]?
      pure { world with
        metrics := { world.metrics with
          bullmqQueueDepth := writeCounts world.metrics.bullmqQueueDepth run (counts.getD []) }
        depthRuns :=
          match run.remaining with
          | [] => world.depthRuns.eraseIdx index
          | queue :: remaining =>
              world.depthRuns.set index ⟨queue, remaining, world.losses name⟩ }
  -- `rows[0]?.lag_seconds ?? 0`
  | .lagRead index rows => do
      let readAt ← world.lagRuns[index]?
      pure { world with
        metrics :=
          match rows with
          | none => world.metrics
          | some rows => { world.metrics with
              outboxLagSeconds := world.metrics.outboxLagSeconds.set ()
                ⟨rows.head?.join.getD 0, readAt⟩ }
        lagRuns := world.lagRuns.eraseIdx index }

end MetricsWorld

/-- No interval fires before the modules are set up, so both collectors have registered. -/
def metricsSystem (name : Nat) : TransitionSystem MetricsWorld MetricsAction where
  initial world := leaseSystem.initial world.lease ∧
    (∀ collector, collector ∈ world.leadershipLostHandlers) ∧
      world.metrics = {} ∧ world.depthRuns = [] ∧ world.lagRuns = []
  step := MetricsWorld.step name

/-! ### What is to hold -/

/-- The laws of the gauges: a replica that is not the leader and collects nothing exports nothing,
and no value outlives the leadership under which it was asked for. -/
structure ExLeaderSilent (name : Nat) (world : MetricsWorld) : Prop where
  silent : world.isLeader name = false → world.depthRuns = [] → world.lagRuns = [] →
    world.metrics = {}
  current : world.metrics.bullmqQueueDepth.Since (world.losses name) ∧
    world.metrics.outboxLagSeconds.Since (world.losses name)

/-- What a query yields is written by the leader that has asked for it: it has not lost the lease
meanwhile. -/
def AnsweredInTime (name : Nat) (world : MetricsWorld) : MetricsAction → Prop
  | .depthRead index (some (_ :: _)) => ∀ run ∈ world.depthRuns[index]?,
      world.isLeader name = true ∧ run.readAt = world.losses name
  | .lagRead index (some _) => ∀ readAt ∈ world.lagRuns[index]?,
      world.isLeader name = true ∧ readAt = world.losses name
  | _ => True

variable {name : Nat} {world after : MetricsWorld}

theorem since_writeCounts {gauge : Gauge (String × String) Nat} {run : DepthRun} {losses : Nat}
    (counts : List (String × Nat)) (since : gauge.Since losses) (now : run.readAt = losses) :
    (MetricsWorld.writeCounts gauge run counts).Since losses := by
  induction counts generalizing gauge with
  | nil => exact since
  | cons entry counts ih => exact ih (since.set _ now)

/-- The invariant: a replica that is not the leader exports nothing, whatever it collects. -/
structure MetricsWorld.Held (name : Nat) (world : MetricsWorld) : Prop where
  registered : ∀ collector, collector ∈ world.leadershipLostHandlers
  silent : world.isLeader name = false → world.metrics = {}
  depth : world.metrics.bullmqQueueDepth.Since (world.losses name)
  lag : world.metrics.outboxLagSeconds.Since (world.losses name)

theorem held_of_lease (held : world.Held name) {action : LeaseAction}
    (taken : world.step name (.lease action) = some after) : after.Held name := by
  simp only [MetricsWorld.step, Option.bind_eq_bind, Option.pure_def,
    Option.bind_eq_some_iff] at taken
  obtain ⟨lease, leaseTaken, same⟩ := taken
  obtain rfl := Option.some.inj same
  have losses : (lease.replicas name).losses = world.losses name +
      if world.isLeader name && !(lease.replicas name).leader then 1 else 0 :=
    losses_of_step (leaseStep_of_step leaseTaken)
  by_cases falls : (world.isLeader name && !(lease.replicas name).leader) = true
  · have lost : (lease.replicas name).losses ≠ world.losses name := by
      rw [losses, if_pos falls]
      omega
    simp only [lost, not_false_eq_true, ne_eq, if_true, notifyLeadershipLost_eq held.registered]
    exact ⟨held.registered, fun _ => rfl, Gauge.since_reset _, Gauge.since_reset _⟩
  · have kept : (lease.replicas name).losses = world.losses name := by
      rw [losses, if_neg falls]
      omega
    simp only [kept, ne_eq, not_true_eq_false, if_false]
    refine ⟨held.registered, fun follower => held.silent ?_, ?_, ?_⟩
    · have follower' : (lease.replicas name).leader = false := follower
      simpa [follower'] using falls
    · exact (congrArg world.metrics.bullmqQueueDepth.Since kept).mpr held.depth
    · exact (congrArg world.metrics.outboxLagSeconds.Since kept).mpr held.lag

theorem held_of_depthRead (held : world.Held name) {index : Nat}
    {counts : Option (List (String × Nat))}
    (answered : AnsweredInTime name world (.depthRead index counts))
    (taken : world.step name (.depthRead index counts) = some after) : after.Held name := by
  simp only [MetricsWorld.step, Option.bind_eq_bind, Option.pure_def,
    Option.bind_eq_some_iff] at taken
  obtain ⟨run, found, same⟩ := taken
  obtain rfl := Option.some.inj same
  match counts, answered with
  | none, _ => exact ⟨held.registered, held.silent, held.depth, held.lag⟩
  | some [], _ => exact ⟨held.registered, held.silent, held.depth, held.lag⟩
  | some (entry :: counts), answered =>
    obtain ⟨leads, now⟩ := answered run found
    refine ⟨held.registered, fun follower => ?_, since_writeCounts _ held.depth now, held.lag⟩
    exact Bool.noConfusion (leads.symm.trans follower)

theorem held_of_lagRead (held : world.Held name) {index : Nat}
    {rows : Option (List (Option Rat))}
    (answered : AnsweredInTime name world (.lagRead index rows))
    (taken : world.step name (.lagRead index rows) = some after) : after.Held name := by
  simp only [MetricsWorld.step, Option.bind_eq_bind, Option.pure_def,
    Option.bind_eq_some_iff] at taken
  obtain ⟨readAt, found, same⟩ := taken
  obtain rfl := Option.some.inj same
  cases rows with
  | none => exact ⟨held.registered, held.silent, held.depth, held.lag⟩
  | some rows =>
    obtain ⟨leads, now⟩ := answered readAt found
    refine ⟨held.registered, fun follower => ?_, held.depth, held.lag.set _ now⟩
    exact Bool.noConfusion (leads.symm.trans follower)

theorem held_of_step {action : MetricsAction} (held : world.Held name)
    (answered : AnsweredInTime name world action)
    (taken : world.step name action = some after) : after.Held name := by
  cases action with
  | lease action => exact held_of_lease held taken
  | collectDepth | collectLag =>
    simp only [MetricsWorld.step] at taken
    split at taken <;> obtain rfl := Option.some.inj taken
    · exact ⟨held.registered, held.silent, held.depth, held.lag⟩
    · exact held
  | depthRead index counts => exact held_of_depthRead held answered taken
  | lagRead index rows => exact held_of_lagRead held answered taken

/-- Neither an idle replica without the lease nor the gauge of a leader shows a value from before
the loss of the lease. -/
theorem exLeaderSilent_of_run {history : List (MetricsWorld × MetricsAction)}
    (run : (metricsSystem name).Run history world)
    (answered : Guarded (AnsweredInTime name) history) : ExLeaderSilent name world := by
  have held : world.Held name := by
    refine run.guardedInvariant (AnsweredInTime name) ?_ ?_ answered
    · rintro state ⟨-, registered, clear, -, -⟩
      exact ⟨registered, fun _ => clear, clear ▸ Gauge.since_reset _, clear ▸ Gauge.since_reset _⟩
    · intro before action after answered held taken
      exact held_of_step held answered taken
  exact ⟨fun follower _ _ => held.silent follower, held.depth, held.lag⟩

/-! ### A query under way -/

/-- A replica that has been elected, with both collectors set up. -/
def collectors : MetricsWorld where
  lease := {}
  leadershipLostHandlers := [.queueDepth, .outboxLag]

theorem collectors_initial : (metricsSystem 0).initial collectors :=
  ⟨⟨fun _ => rfl, rfl⟩, fun collector => by cases collector <;> decide, rfl, rfl, rfl⟩

/-- The lag is asked for by the leader, and the answer comes after `meanwhile`. -/
def lagCollected (meanwhile : List MetricsAction) : List MetricsAction :=
  (LeaderLease.election 0).map .lease ++ [.collectLag] ++ meanwhile ++ [.lagRead 0 (some [some 7])]

def answersInTime (name : Nat) (world : MetricsWorld) : MetricsAction → Bool
  | .depthRead index (some (_ :: _)) => (world.depthRuns[index]?).all fun run =>
      world.isLeader name && run.readAt = world.losses name
  | .lagRead index (some _) => (world.lagRuns[index]?).all fun readAt =>
      world.isLeader name && readAt = world.losses name
  | _ => true

theorem answeredInTime_of_answersInTime {action : MetricsAction}
    (passes : answersInTime name world action = true) : AnsweredInTime name world action := by
  unfold AnsweredInTime
  split
  · intro run found
    simpa [answersInTime, Option.mem_def.mp found] using passes
  · intro readAt found
    simpa [answersInTime, Option.mem_def.mp found] using passes
  · trivial

/-- The leader records the lag, and the loss of the lease clears it. -/
theorem exLeaderSilent_example : ∃ history world, (metricsSystem 0).Run history world ∧
    ExLeaderSilent 0 world ∧ world.isLeader 0 = false ∧ world.losses 0 = 1 := by
  obtain ⟨history, world, run, answered, -, passed⟩ :=
    @TransitionSystem.run_of_execute _ _ (metricsSystem 0) (answersInTime 0) (AnsweredInTime 0)
      (fun _ _ => answeredInTime_of_answersInTime) collectors
      (lagCollected [] ++ [.lease (.tick 0), .lease (.resume 0 0 .failed)])
      (fun world => !world.isLeader 0 && world.losses 0 == 1)
      collectors_initial (by decide)
  simp only [Bool.and_eq_true, Bool.not_eq_true', beq_iff_eq] at passed
  exact ⟨history, world, run, exLeaderSilent_of_run run answered, passed⟩

/-- The lease is lost while the query for the lag is under way: the answer is written all the
same, and stays. -/
theorem lag_outlives_lease : ∃ history world, (metricsSystem 0).Run history world ∧
    world.isLeader 0 = false ∧ world.depthRuns = [] ∧ world.lagRuns = [] ∧
      world.metrics.outboxLagSeconds.series () = some ⟨7, 0⟩ ∧ world.losses 0 = 1 := by
  obtain ⟨history, world, run, -, -, passed⟩ :=
    @TransitionSystem.run_of_execute _ _ (metricsSystem 0) (fun _ _ => true) (fun _ _ => True)
      (fun _ _ _ => trivial) collectors
      (lagCollected [.lease (.tick 0), .lease (.resume 0 0 .failed)])
      (fun world => decide (world.isLeader 0 = false ∧ world.depthRuns = [] ∧
        world.lagRuns = [] ∧ world.metrics.outboxLagSeconds.series () = some ⟨7, 0⟩ ∧
          world.losses 0 = 1))
      collectors_initial (by decide)
  exact ⟨history, world, run, of_decide_eq_true passed⟩

end NestjsFastify.CollectorMetrics
