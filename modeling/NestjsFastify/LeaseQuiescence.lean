import NestjsFastify.LeaderLeaseRuns

/-! # The lease between its ticks

The interval timer does not wait for the previous tick, so several ticks of a replica may have their
commands under way.  A tick that finds the key taken clears the flag, whoever holds the key: the
refusal of one tick may undo the election that another one has won.
-/
namespace NestjsFastify.LeaderLease
open LeaseTask (isTick isWon isReleasing isStopping isSettling)
open TransitionSystem (Guarded)

variable {world after : LeaseWorld} {name : Nat}

/-! ### What is to hold -/

/-- The tick has won the lease, or leaves the flag as it is. -/
def LeaseTask.isGranted : LeaseTask → Bool
  | renewing (some granted) => granted
  | acquiring (some granted) => granted
  | _ => false

/-- The tick clears the flag. -/
def LeaseTask.isRefused : LeaseTask → Bool
  | renewing (some granted) => !granted
  | acquiring (some granted) => !granted
  | _ => false

/-- The command of the task has not been carried out. -/
def LeaseTask.isUnanswered : LeaseTask → Bool
  | renewing answer => answer.isNone
  | acquiring answer => answer.isNone
  | releasing answer => answer.isNone
  | settling => true
  | stopping answer => answer.isNone

/-- The replica has a task of the kind. -/
def Replica.Has (replica : Replica) (kind : LeaseTask → Bool) : Prop :=
  ∃ task ∈ replica.tasks, kind task = true

/-- No tick of the replica is in flight, and it has not been stopped. -/
def LeaseWorld.Quiet (world : LeaseWorld) (name : Nat) : Prop :=
  (world.replicas name).stopped = false ∧ ¬ (world.replicas name).Has isTick

/-- All commands of the replica succeed: each one is carried out once, and its answer arrives. -/
def CommandsSucceed (name : Nat) (world : LeaseWorld) : LeaseAction → Prop
  | .execute replica index => replica = name →
      ∀ task ∈ (world.replicas name).tasks[index]?, task.isUnanswered = true
  | .resume replica _ outcome => replica = name → outcome = .answered
  | _ => True

/-- A stop of the replica comes to its end in the step. -/
def LeaseWorld.ResolvesStop (world : LeaseWorld) (name : Nat) : LeaseAction → Prop
  | .resume replica index outcome => replica = name ∧ ∃ task revised,
      (world.replicas name).tasks[index]? = some task ∧
        (isSettling task = true ∨ isStopping task = true) ∧
          (world.replicas name).resume task outcome = some (revised, none)
  | _ => False

def StopResolved (name : Nat) (history : List (LeaseWorld × LeaseAction)) : Prop :=
  ∃ entry ∈ history, entry.1.ResolvesStop name entry.2

/-- How often the flag has changed from true to false. -/
def falls (name : Nat) : List (LeaseWorld × LeaseAction) → LeaseWorld → Nat
  | [], _ => 0
  | (before, _) :: history, after => falls name history before +
      if (before.replicas name).leader && !(after.replicas name).leader then 1 else 0

/-- The laws of the lease of one replica along a run. -/
structure LeaseQuiescence (name : Nat) (history : List (LeaseWorld × LeaseAction))
    (world : LeaseWorld) : Prop where
  quiet : world.Quiet name → (world.isLeader name ↔ world.HeldBy name)
  retired : StopResolved name history → ¬ world.HeldBy name ∧ ¬ world.isLeader name
  losses : (world.replicas name).losses = falls name history world

/-- The token of the replica is a new one. -/
def freshLease (name : Nat) : TransitionSystem LeaseWorld LeaseAction where
  initial world := leaseSystem.initial world ∧ ¬ world.HeldBy name
  step := LeaseWorld.step

/-- While the replica has not been stopped, an answer still tells of the key when it is handled.
A refusal is handled when the replica has no key, unless the answer that it has won the key is
still to come; the last tick in flight is done, and the next one starts, before the key of a leader
runs out. -/
def AnswersFit (name : Nat) (world : LeaseWorld) : LeaseAction → Prop
  | .elapse milliseconds => world.Quiet name → world.isLeader name →
      ∀ key ∈ world.held, key.token = name → world.now + milliseconds < key.expiresAt
  | .resume replica index _ => replica = name → (world.replicas name).stopped = false →
      ∀ task ∈ (world.replicas name).tasks[index]?,
        (task.isRefused = true → world.HeldBy name → (world.replicas name).Has isWon) ∧
          (task.isGranted = true → world.isLeader name ∨ isWon task = true →
            ((world.replicas name).tasks.eraseIdx index).any isTick = false → world.HeldBy name)
  | _ => True

/-! ### The invariant -/

/-- The release of a tick that won the key too late is still to be carried out. -/
def LeaseTask.isFreeing : LeaseTask → Bool
  | releasing answer => answer.isNone
  | _ => false

/-- The release of a stop has been carried out. -/
def LeaseTask.isFreed : LeaseTask → Bool
  | stopping answer => answer.isSome
  | _ => false

open LeaseTask (isFreeing isFreed)

/-- What is known of a replica all of whose commands succeed: `holding` says that it has the
key. -/
structure Replica.Settled (replica : Replica) (holding : Prop) : Prop where
  releasing : replica.Has isReleasing → replica.stopped = true
  settling : replica.Has isSettling → replica.stopped = true
  stopping : replica.Has isStopping → replica.stopped = true ∧ ¬ replica.Has isTick
  covered : holding → replica.leader = true ∨ replica.Has isWon ∨ replica.Has isFreeing
  freed : replica.Has isFreed → ¬ holding
  quiet : replica.stopped = false → ¬ replica.Has isTick → replica.leader = true → holding

namespace Replica
variable {replica : Replica} {holding holding' : Prop}

theorem Has.mono {kind kind' : LeaseTask → Bool} (has : replica.Has kind)
    (implies : ∀ task, kind task = true → kind' task = true) : replica.Has kind' := by
  obtain ⟨task, member, isKind⟩ := has
  exact ⟨task, member, implies task isKind⟩

/-- The key changes hands without the replica. -/
theorem Settled.mono (settled : replica.Settled holding) (lost : holding' → holding)
    (kept : replica.stopped = false → ¬ replica.Has isTick → replica.leader = true →
      holding → holding') : replica.Settled holding' where
  releasing := settled.releasing
  settling := settled.settling
  stopping := settled.stopping
  covered holds := settled.covered (lost holds)
  freed freed holds := settled.freed freed (lost holds)
  quiet running idle leads := kept running idle leads (settled.quiet running idle leads)

/-- A new task adds its own kinds. -/
theorem has_append {task : LeaseTask} {stopped : Bool} {kind : LeaseTask → Bool} :
    ({ replica with stopped, tasks := replica.tasks ++ [task] } : Replica).Has kind ↔
      replica.Has kind ∨ kind task = true := by
  simp [Has, or_and_right, exists_or]

theorem Settled.tick (settled : replica.Settled holding) (running : replica.stopped = false)
    {task : LeaseTask} (sent : task = .renewing none ∨ task = .acquiring none) :
    ({ replica with tasks := replica.tasks ++ [task] } : Replica).Settled holding := by
  have others : ∀ kind : LeaseTask → Bool, kind task = false →
      (({ replica with tasks := replica.tasks ++ [task] } : Replica).Has kind ↔
        replica.Has kind) := by
    intro kind other
    rw [has_append, other]
    simp
  constructor
  · rw [others isReleasing (by rcases sent with rfl | rfl <;> rfl)]
    exact settled.releasing
  · rw [others isSettling (by rcases sent with rfl | rfl <;> rfl)]
    exact settled.settling
  · rw [others isStopping (by rcases sent with rfl | rfl <;> rfl)]
    intro stopping
    simpa [running] using (settled.stopping stopping).1
  · rw [others isWon (by rcases sent with rfl | rfl <;> rfl),
      others isFreeing (by rcases sent with rfl | rfl <;> rfl)]
    exact settled.covered
  · rw [others isFreed (by rcases sent with rfl | rfl <;> rfl)]
    exact settled.freed
  · intro _ idle
    exact absurd (has_append.mpr (.inr (by rcases sent with rfl | rfl <;> rfl))) idle

theorem Settled.stop (settled : replica.Settled holding) :
    ({ replica with stopped := true, tasks := replica.tasks ++ [.settling] } :
      Replica).Settled holding := by
  have others : ∀ kind : LeaseTask → Bool, kind .settling = false →
      (({ replica with stopped := true, tasks := replica.tasks ++ [.settling] } :
        Replica).Has kind ↔ replica.Has kind) := by
    intro kind other
    rw [has_append, other]
    simp
  constructor
  · exact fun _ => rfl
  · exact fun _ => rfl
  · rw [others isStopping rfl, others isTick rfl]
    exact fun stopping => ⟨rfl, (settled.stopping stopping).2⟩
  · rw [others isWon rfl, others isFreeing rfl]
    exact settled.covered
  · rw [others isFreed rfl]
    exact settled.freed
  · exact fun running => nomatch running

section Split
variable {left right : List LeaseTask} {task : LeaseTask}

/-- The kinds of a replica's tasks, one of which is told apart. -/
theorem has_split (tasks : replica.tasks = left ++ task :: right) (kind : LeaseTask → Bool) :
    replica.Has kind ↔ kind task = true ∨ ∃ other ∈ left ++ right, kind other = true := by
  simp only [Has, tasks, List.mem_append, List.mem_cons]
  grind

/-- The kinds once the task has gone on. -/
theorem has_replace {revised : Replica} {next : Option LeaseTask} (kind : LeaseTask → Bool) :
    ({ revised with tasks := left ++ (next.toList ++ right) } : Replica).Has kind ↔
      (∃ later ∈ next, kind later = true) ∨ ∃ other ∈ left ++ right, kind other = true := by
  simp only [Has, List.mem_append, Option.mem_toList, Option.mem_def]
  grind

/-- A release is sent by a replica that has been stopped. -/
theorem Settled.stopped_of_release (settled : replica.Settled holding)
    (tasks : replica.tasks = left ++ task :: right) (release : task.command = some .release) :
    replica.stopped = true := by
  cases task with
  | renewing | acquiring | settling => simp [LeaseTask.command] at release
  | releasing answer => exact settled.releasing ((has_split tasks _).mpr (.inl rfl))
  | stopping answer => exact (settled.stopping ((has_split tasks _).mpr (.inl rfl))).1

/-- A command has been carried out: a release takes the key from the replica, and the replica has
it anew only when it has won it. -/
theorem Settled.answered (settled : replica.Settled holding)
    (tasks : replica.tasks = left ++ task :: right) (unanswered : task.isUnanswered = true)
    {reply : Bool} (gains : holding' → holding ∨ isWon (task.answered reply) = true)
    (keeps : task.command ≠ some .release → holding → holding')
    (frees : task.command = some .release → ¬ holding') :
    ({ replica with tasks := left ++ task.answered reply :: right } : Replica).Settled
      holding' := by
  have split := has_split tasks
  have now := @has_split { replica with tasks := left ++ task.answered reply :: right } _ _ _ rfl
  have same : ∀ kind : LeaseTask → Bool, kind (task.answered reply) = kind task →
      (({ replica with tasks := left ++ task.answered reply :: right } : Replica).Has kind ↔
        replica.Has kind) := by
    intro kind same
    rw [split, now, same]
  have ticks := same isTick (by cases task <;> rfl)
  have releases := same isReleasing (by cases task <;> rfl)
  have stops := same isStopping (by cases task <;> rfl)
  have settles := same isSettling (by cases task <;> rfl)
  constructor
  · exact fun some => settled.releasing (releases.mp some)
  · exact fun some => settled.settling (settles.mp some)
  · rw [stops, ticks]
    exact settled.stopping
  · intro holds
    rcases gains holds with before | won
    · refine (settled.covered before).imp_right (Or.imp (fun won => ?_) fun freeing => ?_)
      · refine (now _).mpr (.inr (((split _).mp won).resolve_left fun won => ?_))
        cases task <;> simp_all [isWon, LeaseTask.isUnanswered]
      · refine (now _).mpr (.inr (((split _).mp freeing).resolve_left fun freeing => ?_))
        cases task <;> simp [isFreeing] at freeing
        exact frees rfl holds
    · exact .inr (.inl ((now _).mpr (.inl won)))
  · intro freed holds
    rcases (now _).mp freed with here | other
    · cases task <;> simp [isFreed, LeaseTask.answered] at here
      exact frees rfl holds
    · have earlier : replica.Has isFreed := (split _).mpr (.inr other)
      rcases gains holds with before | won
      · exact settled.freed earlier before
      · have stopping : replica.Has isStopping := earlier.mono fun task freed => by
          cases task <;> simp_all [isFreed, isStopping]
        refine (settled.stopping stopping).2 ((split _).mpr (.inl ?_))
        cases task <;> simp_all [isWon, LeaseTask.answered, isTick]
  · intro running idle leads
    refine keeps (fun release => ?_) (settled.quiet running (fun tick => idle (ticks.mpr tick)) leads)
    have stopped : replica.stopped = true := settled.stopped_of_release tasks release
    exact Bool.noConfusion (running.symm.trans stopped)

/-- A tick ends and leaves the flags as they are. -/
theorem Settled.ended (settled : replica.Settled holding)
    (tasks : replica.tasks = left ++ task :: right)
    (silent : isWon task = false ∧ isFreeing task = false)
    (last : replica.stopped = false → (left ++ right).any isTick = false →
      replica.leader = true → holding) :
    ({ replica with tasks := left ++ right } : Replica).Settled holding := by
  have split := has_split tasks
  have now := @has_replace left right replica none
  simp only [Option.toList_none, List.nil_append, Option.not_mem_none, false_and, exists_false,
    false_or] at now
  have fewer : ∀ kind, ({ replica with tasks := left ++ right } : Replica).Has kind →
      replica.Has kind :=
    fun kind has => (split kind).mpr (.inr ((now kind).mp has))
  have kept : ∀ kind : LeaseTask → Bool, kind task = false → replica.Has kind →
      ({ replica with tasks := left ++ right } : Replica).Has kind := by
    intro kind other has
    exact (now kind).mpr (((split kind).mp has).resolve_left (by simp [other]))
  constructor
  · exact fun some => settled.releasing (fewer _ some)
  · exact fun some => settled.settling (fewer _ some)
  · intro some
    obtain ⟨stopped, idle⟩ := settled.stopping (fewer _ some)
    exact ⟨stopped, fun tick => idle (fewer _ tick)⟩
  · exact fun holds => (settled.covered holds).imp_right
      (Or.imp (kept _ silent.1) (kept _ silent.2))
  · exact fun freed => settled.freed (fewer _ freed)
  · intro running idle
    refine last running ?_
    rw [now isTick] at idle
    simpa [or_imp, forall_and] using idle

/-- The flag is cleared, and the task ends or tries to acquire the lease. -/
theorem Settled.cleared (settled : replica.Settled holding)
    (tasks : replica.tasks = left ++ task :: right) {next : Option LeaseTask}
    (follows : next = none ∨ isTick task = true ∧ next = some (.acquiring none))
    (silent : isWon task = false ∧ isFreeing task = false)
    (covers : holding → replica.Has isWon ∨ replica.Has isFreeing) {losses : Nat} :
    ({ replica with leader := false, losses, tasks := left ++ (next.toList ++ right) } :
      Replica).Settled holding := by
  have split := has_split tasks
  have now := @has_replace left right { replica with leader := false, losses } next
  have fewer : ∀ kind : LeaseTask → Bool, kind (.acquiring none) = false →
      ({ replica with leader := false, losses, tasks := left ++ (next.toList ++ right) } :
        Replica).Has kind → replica.Has kind := by
    intro kind other has
    rcases (now kind).mp has with ⟨later, isNext, isKind⟩ | among
    · rcases follows with rfl | ⟨-, rfl⟩
      · exact nomatch isNext
      · obtain rfl := Option.mem_some_iff.mp isNext
        exact Bool.noConfusion (other.symm.trans isKind)
    · exact (split kind).mpr (.inr among)
  have kept : ∀ kind : LeaseTask → Bool, kind task = false → replica.Has kind →
      ({ replica with leader := false, losses, tasks := left ++ (next.toList ++ right) } :
        Replica).Has kind := by
    intro kind other has
    exact (now kind).mpr (.inr (((split kind).mp has).resolve_left (by simp [other])))
  constructor
  · exact fun some => settled.releasing (fewer _ rfl some)
  · exact fun some => settled.settling (fewer _ rfl some)
  · intro some
    obtain ⟨stopped, idle⟩ := settled.stopping (fewer _ rfl some)
    refine ⟨stopped, fun tick => idle ?_⟩
    rcases (now _).mp tick with ⟨later, isNext, -⟩ | among
    · rcases follows with rfl | ⟨wasTick, -⟩
      · exact nomatch isNext
      · exact (split _).mpr (.inl wasTick)
    · exact (split _).mpr (.inr among)
  · exact fun holds => .inr ((covers holds).imp (kept _ silent.1) (kept _ silent.2))
  · exact fun freed => settled.freed (fewer _ rfl freed)
  · exact fun _ _ leads => nomatch leads

/-- The answer arrives that the lease is won. -/
theorem Settled.elected (settled : replica.Settled holding)
    (tasks : replica.tasks = left ++ .acquiring (some true) :: right)
    (last : (left ++ right).any isTick = false → holding) {losses : Nat} :
    ({ replica with leader := true, losses, tasks := left ++ right } : Replica).Settled
      holding := by
  have split := has_split tasks
  have now := @has_replace left right { replica with leader := true, losses } none
  simp only [Option.toList_none, List.nil_append, Option.not_mem_none, false_and, exists_false,
    false_or] at now
  have fewer : ∀ kind, ({ replica with leader := true, losses, tasks := left ++ right } :
      Replica).Has kind → replica.Has kind :=
    fun kind has => (split kind).mpr (.inr ((now kind).mp has))
  constructor
  · exact fun some => settled.releasing (fewer _ some)
  · exact fun some => settled.settling (fewer _ some)
  · exact fun some => absurd ((split _).mpr (.inl rfl)) (settled.stopping (fewer _ some)).2
  · exact fun _ => .inl rfl
  · exact fun freed => settled.freed (fewer _ freed)
  · intro _ idle _
    rw [now isTick] at idle
    exact last (by simpa [or_imp, forall_and] using idle)

/-- The lease was won too late: the replica has been stopped, and the tick gives it back. -/
theorem Settled.tooLate (settled : replica.Settled holding) (stopped : replica.stopped = true)
    (tasks : replica.tasks = left ++ .acquiring (some true) :: right) :
    ({ replica with tasks := left ++ .releasing none :: right } : Replica).Settled holding := by
  have split := has_split tasks
  have now := @has_split { replica with tasks := left ++ .releasing none :: right } _ _ _ rfl
  have same : ∀ kind : LeaseTask → Bool, kind (.releasing none) = kind (.acquiring (some true)) →
      (({ replica with tasks := left ++ .releasing none :: right } : Replica).Has kind ↔
        replica.Has kind) := by
    intro kind same
    rw [split, now, same]
  constructor
  · exact fun _ => stopped
  · exact fun _ => stopped
  · rw [same isStopping rfl, same isTick rfl]
    exact settled.stopping
  · exact fun _ => .inr (.inr ((now _).mpr (.inl rfl)))
  · rw [same isFreed rfl]
    exact settled.freed
  · exact fun running => Bool.noConfusion (stopped.symm.trans running)

/-- The stop has waited for the ticks, and gives the lease back. -/
theorem Settled.givesBack (settled : replica.Settled holding)
    (tasks : replica.tasks = left ++ .settling :: right) (idle : ¬ replica.Has isTick) :
    ({ replica with tasks := left ++ .stopping none :: right } : Replica).Settled holding := by
  have split := has_split tasks
  have now := @has_split { replica with tasks := left ++ .stopping none :: right } _ _ _ rfl
  have stopped : replica.stopped = true := settled.settling ((split _).mpr (.inl rfl))
  have same : ∀ kind : LeaseTask → Bool, kind (.stopping none) = kind .settling →
      (({ replica with tasks := left ++ .stopping none :: right } : Replica).Has kind ↔
        replica.Has kind) := by
    intro kind same
    rw [split, now, same]
  constructor
  · exact fun _ => stopped
  · exact fun _ => stopped
  · rw [same isTick rfl]
    exact fun _ => ⟨stopped, idle⟩
  · rw [same isWon rfl, same isFreeing rfl]
    exact settled.covered
  · rw [same isFreed rfl]
    exact settled.freed
  · exact fun running => Bool.noConfusion (stopped.symm.trans running)

theorem Settled.resume (settled : replica.Settled holding)
    (tasks : replica.tasks = left ++ task :: right) {revised : Replica} {next : Option LeaseTask}
    (resumed : replica.resume task .answered = some (revised, next))
    (fit : replica.stopped = false →
      (task.isRefused = true → holding → replica.Has isWon) ∧
        (task.isGranted = true → replica.leader = true ∨ isWon task = true →
          (left ++ right).any isTick = false → holding)) :
    ({ revised with tasks := left ++ (next.toList ++ right) } : Replica).Settled holding := by
  cases task with
  | renewing answer =>
    cases answer with
    | none => exact nomatch resumed
    | some renewed =>
      simp only [Replica.resume] at resumed
      split at resumed
      · rename_i ends
        cases resumed
        refine settled.ended tasks ⟨rfl, rfl⟩ fun running idle leads => ?_
        have granted : renewed = true := by simpa [running] using ends
        exact (fit running).2 granted (.inl leads) idle
      · rename_i goesOn
        cases resumed
        obtain ⟨running, refused⟩ : replica.stopped = false ∧ renewed = false := by
          simpa using goesOn
        exact settled.cleared tasks (.inr ⟨rfl, rfl⟩) ⟨rfl, rfl⟩ fun holds =>
          .inl ((fit running).1 (by simp [LeaseTask.isRefused, refused]) holds)
  | acquiring answer =>
    cases answer with
    | none => exact nomatch resumed
    | some acquired =>
      simp only [Replica.resume] at resumed
      split at resumed
      · rename_i stopped
        cases resumed
        cases acquired with
        | true => exact settled.tooLate stopped tasks
        | false =>
          exact settled.ended tasks ⟨rfl, rfl⟩ fun running =>
            Bool.noConfusion (stopped.symm.trans running)
      · rename_i goesOn
        cases resumed
        have running : replica.stopped = false := by simpa using goesOn
        cases acquired with
        | true => exact settled.elected tasks ((fit running).2 rfl (.inr rfl))
        | false =>
          exact settled.cleared tasks (.inl rfl) ⟨rfl, rfl⟩ fun holds =>
            .inl ((fit running).1 rfl holds)
  | releasing answer =>
    cases answer with
    | none => exact nomatch resumed
    | some released =>
      cases resumed
      have stopped := settled.releasing ((has_split tasks _).mpr (.inl rfl))
      exact settled.ended tasks ⟨rfl, rfl⟩ fun running =>
        Bool.noConfusion (stopped.symm.trans running)
  | settling =>
    simp only [Replica.resume] at resumed
    split at resumed
    · exact nomatch resumed
    · rename_i waited
      have idle : ¬ replica.Has isTick := by simpa [Has] using waited
      split at resumed
      · cases resumed
        exact settled.givesBack tasks idle
      · rename_i follower
        cases resumed
        refine settled.cleared tasks (.inl rfl) ⟨rfl, rfl⟩ fun holds => ?_
        exact (settled.covered holds).resolve_left follower
  | stopping answer =>
    cases answer with
    | none => exact nomatch resumed
    | some released =>
      cases resumed
      have freed := settled.freed ((has_split tasks _).mpr (.inl rfl))
      exact settled.cleared tasks (.inl rfl) ⟨rfl, rfl⟩ fun holds => absurd holds freed

end Split

/-- The stop of the replica is through. -/
structure Retired (replica : Replica) (holding : Prop) : Prop where
  stopped : replica.stopped = true
  idle : ¬ replica.Has isTick
  follower : replica.leader = false
  free : ¬ holding

theorem Retired.mono (retired : replica.Retired holding) (lost : holding' → holding) :
    replica.Retired holding' :=
  ⟨retired.stopped, retired.idle, retired.follower, fun holds => retired.free (lost holds)⟩

/-- Only a tick has more to do than to give the lease back. -/
theorem Retired.resume (retired : replica.Retired holding) {left right : List LeaseTask}
    {task : LeaseTask} (tasks : replica.tasks = left ++ task :: right) {outcome : ReplyOutcome}
    {revised : Replica} {next : Option LeaseTask}
    (resumed : replica.resume task outcome = some (revised, next)) :
    ({ revised with tasks := left ++ (next.toList ++ right) } : Replica).Retired holding := by
  have notTick : isTick task = false := by
    by_contra tick
    exact retired.idle ((has_split tasks _).mpr (.inl (by simpa using tick)))
  have cleared : revised.leader = false ∧ ∀ later ∈ next, isTick later = false := by
    cases task with
    | renewing | acquiring | releasing => exact nomatch notTick
    | settling =>
      cases outcome with
      | failed => exact nomatch resumed
      | answered =>
        simp only [Replica.resume, retired.follower, Bool.false_eq_true, if_false] at resumed
        split at resumed
        · exact nomatch resumed
        · cases resumed
          exact ⟨rfl, fun _ never => nomatch never⟩
    | stopping answer =>
      cases answer with
      | none => cases outcome <;> cases resumed; exact ⟨rfl, fun _ never => nomatch never⟩
      | some released => cases outcome <;> cases resumed <;> exact ⟨rfl, fun _ never => nomatch never⟩
  refine ⟨(tasks_of_resume resumed).2.trans retired.stopped, fun tick => ?_, cleared.1,
    retired.free⟩
  rcases (has_replace _).mp tick with ⟨later, isNext, isKind⟩ | among
  · exact Bool.noConfusion ((cleared.2 later isNext).symm.trans isKind)
  · exact retired.idle ((has_split tasks _).mpr (.inr among))

/-- A stop that comes to its end leaves neither the flag nor the key. -/
theorem Settled.retired (settled : replica.Settled holding) {left right : List LeaseTask}
    {task : LeaseTask} (tasks : replica.tasks = left ++ task :: right)
    (stops : isSettling task = true ∨ isStopping task = true) {revised : Replica}
    (resumed : replica.resume task .answered = some (revised, none)) :
    ({ revised with tasks := left ++ right } : Replica).Retired holding := by
  obtain ⟨stopped, idle, follower, free⟩ : replica.stopped = true ∧ ¬ replica.Has isTick ∧
      revised.leader = false ∧ ¬ holding := by
    cases task with
    | renewing | acquiring | releasing => simp [isSettling, isStopping] at stops
    | settling =>
      simp only [Replica.resume] at resumed
      split at resumed
      · cases resumed
      rename_i waited
      have idle : ¬ replica.Has isTick := by simpa [Has] using waited
      split at resumed
      · cases resumed
      rename_i follower
      cases resumed
      refine ⟨settled.settling ((has_split tasks _).mpr (.inl rfl)), idle, rfl, fun holds => ?_⟩
      rcases settled.covered holds with leads | won | freeing
      · exact follower leads
      · exact idle (won.mono fun task won => by cases task <;> simp_all [isWon, isTick])
      · exact idle (freeing.mono fun task freeing => by cases task <;> simp_all [isFreeing, isTick])
    | stopping answer =>
      cases answer with
      | none => cases resumed
      | some released =>
        cases resumed
        obtain ⟨stopped, idle⟩ := settled.stopping ((has_split tasks _).mpr (.inl rfl))
        exact ⟨stopped, idle, rfl, settled.freed ((has_split tasks _).mpr (.inl rfl))⟩
  refine ⟨(tasks_of_resume resumed).2.trans stopped, fun tick => idle ?_, follower, free⟩
  have among := (@has_replace left right revised none isTick).mp tick
  simp only [Option.not_mem_none, false_and, exists_false, false_or] at among
  exact (has_split tasks _).mpr (.inr among)

theorem losses_setLeader (next : Bool) : (replica.setLeader next).losses =
    replica.losses + if replica.leader && !next then 1 else 0 := by
  unfold setLeader
  split <;> rfl

/-- The callback is called when the flag changes from true to false. -/
theorem losses_of_resume {task : LeaseTask} {outcome : ReplyOutcome} {revised : Replica}
    {next : Option LeaseTask} (resumed : replica.resume task outcome = some (revised, next)) :
    revised.losses = replica.losses + if replica.leader && !revised.leader then 1 else 0 := by
  unfold Replica.resume at resumed
  split at resumed <;> (try split at resumed) <;> (try split at resumed) <;> cases resumed <;>
    first | exact losses_setLeader _ | simp

end Replica

/-! ### Runs -/

/-- The replica has the key anew only by an `acquire` of its own. -/
theorem gained_of_run {other : Nat} {command : LeaseCommand} {key : Option LeaseKey} {reply : Bool}
    (executed : runCommand world.now world.held other command = (key, reply))
    (holds : ({ world with key } : LeaseWorld).HeldBy name) :
    world.HeldBy name ∨ other = name ∧ command = .acquire ∧ reply = true := by
  obtain ⟨held, found, rfl⟩ := holds
  rw [held_of_run executed] at found
  subst found
  cases command <;> cases before : world.held <;> simp only [runCommand, before] at executed <;>
    (try split at executed) <;> cases executed
  · exact .inl ⟨_, before, rfl⟩
  · exact .inl ⟨_, before, rfl⟩
  · exact .inr ⟨rfl, rfl, rfl⟩
  · exact .inl ⟨_, before, rfl⟩
  · exact .inl ⟨_, before, rfl⟩

/-- A release leaves no key with the token of its replica. -/
theorem freed_of_run {key : Option LeaseKey} {reply : Bool}
    (executed : runCommand world.now world.held name .release = (key, reply)) :
    ¬ ({ world with key } : LeaseWorld).HeldBy name := by
  rintro ⟨held, found, rfl⟩
  rw [held_of_run executed] at found
  subst found
  cases before : world.held <;> simp only [runCommand, before] at executed <;>
    (try split at executed) <;> cases executed
  rename_i other
  exact other rfl

/-- What the steps of a run keep: what is known of the replica, and that no command of it was given
up. -/
structure LeaseWorld.Settled (world : LeaseWorld) (name : Nat) : Prop where
  replica : (world.replicas name).Settled (world.HeldBy name)
  strays : ∀ command, (name, command) ∉ world.strays

theorem settled_of_step {action : LeaseAction} (settled : world.Settled name)
    (succeeds : CommandsSucceed name world action) (fits : AnswersFit name world action)
    (taken : LeaseStep world action after) : after.Settled name := by
  cases taken with
  | @elapse milliseconds =>
    refine ⟨settled.replica.mono ?_ ?_, settled.strays⟩
    · rintro ⟨key, held, rfl⟩
      obtain ⟨stored, live⟩ := Option.filter_eq_some_iff.mp held
      refine ⟨key, Option.filter_eq_some_iff.mpr ⟨stored, ?_⟩, rfl⟩
      simp only [decide_eq_true_eq] at live ⊢
      omega
    · rintro running idle leads ⟨key, held, rfl⟩
      have live := fits ⟨running, idle⟩ leads key held rfl
      have stored := (Option.filter_eq_some_iff.mp held).1
      exact ⟨key, Option.filter_eq_some_iff.mpr ⟨stored, decide_eq_true live⟩, rfl⟩
  | idle => exact settled
  | @tick other task running sent =>
    refine ⟨?_, settled.strays⟩
    by_cases same : name = other
    · subst same
      rw [LeaseWorld.replicas_setReplica]
      exact settled.replica.tick running sent
    · rw [LeaseWorld.replicas_setReplica_ne _ _ same]
      exact settled.replica
  | @stop other =>
    refine ⟨?_, settled.strays⟩
    by_cases same : name = other
    · subst same
      rw [LeaseWorld.replicas_setReplica]
      exact settled.replica.stop
    · rw [LeaseWorld.replicas_setReplica_ne _ _ same]
      exact settled.replica
  | @execute other left right task command key reply tasks sent executed =>
    refine ⟨?_, settled.strays⟩
    by_cases same : name = other
    · subst same
      rw [LeaseWorld.replicas_setReplica]
      have unanswered := succeeds rfl task (by simp [tasks])
      have gains : ({ world with key } : LeaseWorld).HeldBy name →
          world.HeldBy name ∨ isWon (task.answered reply) = true := by
        refine fun holds => (gained_of_run executed holds).imp_right ?_
        rintro ⟨-, rfl, rfl⟩
        cases task <;> simp_all [LeaseTask.command, LeaseTask.answered, isWon]
      have keeps : task.command ≠ some .release → world.HeldBy name →
          ({ world with key } : LeaseWorld).HeldBy name :=
        fun kept => heldBy_of_run executed (.inr fun release => kept (release ▸ sent))
      have frees : task.command = some .release →
          ¬ ({ world with key } : LeaseWorld).HeldBy name := by
        intro release
        obtain rfl := Option.some.inj (sent.symm.trans release)
        exact freed_of_run executed
      exact settled.replica.answered tasks unanswered gains keeps frees
    · rw [LeaseWorld.replicas_setReplica_ne _ _ same]
      refine settled.replica.mono (fun holds => ?_) fun _ _ _ => heldBy_of_run executed (.inl same)
      exact (gained_of_run executed holds).resolve_right fun gained => same gained.1.symm
  | @executeStray index other command key reply stray executed =>
    have same : name ≠ other := fun same => settled.strays command (same ▸ stray)
    refine ⟨settled.replica.mono (fun holds => ?_) fun _ _ _ =>
      heldBy_of_run executed (.inl same), settled.strays⟩
    exact (gained_of_run executed holds).resolve_right fun gained => same gained.1.symm
  | @resume other left right task outcome replica next strays tasks resumed gaveUp =>
    subst gaveUp
    by_cases same : name = other
    · subst same
      obtain rfl := succeeds rfl
      refine ⟨?_, by simpa [leftBehind] using settled.strays⟩
      rw [LeaseWorld.replicas_setReplica]
      refine settled.replica.resume tasks resumed fun running => ?_
      have fit := fits rfl running task (by simp [tasks])
      refine ⟨fit.1, fun granted leads idle => fit.2 granted leads ?_⟩
      simpa [tasks, List.eraseIdx_append_of_length_le] using idle
    · refine ⟨?_, fun command stray => ?_⟩
      · rw [LeaseWorld.replicas_setReplica_ne _ _ same]
        exact settled.replica
      · refine settled.strays command ((List.mem_append.mp stray).resolve_right fun new => same ?_)
        cases outcome with
        | answered => cases new
        | failed =>
          simp only [leftBehind, List.mem_map, Prod.mk.injEq] at new
          obtain ⟨-, -, own, -⟩ := new
          exact own.symm

theorem retired_of_step {action : LeaseAction} (settled : world.Settled name)
    (retired : (world.replicas name).Retired (world.HeldBy name))
    (taken : LeaseStep world action after) :
    (after.replicas name).Retired (after.HeldBy name) := by
  cases taken with
  | @elapse milliseconds =>
    refine retired.mono ?_
    rintro ⟨key, held, rfl⟩
    obtain ⟨stored, live⟩ := Option.filter_eq_some_iff.mp held
    refine ⟨key, Option.filter_eq_some_iff.mpr ⟨stored, ?_⟩, rfl⟩
    simp only [decide_eq_true_eq] at live ⊢
    omega
  | idle => exact retired
  | @tick other task running sent =>
    have same : name ≠ other := by
      rintro rfl
      exact Bool.noConfusion (running.symm.trans retired.stopped)
    rw [LeaseWorld.replicas_setReplica_ne _ _ same]
    exact retired
  | @stop other =>
    by_cases same : name = other
    · subst same
      rw [LeaseWorld.replicas_setReplica]
      refine ⟨rfl, fun tick => retired.idle ?_, retired.follower, retired.free⟩
      exact (Replica.has_append.mp tick).resolve_right (by decide)
    · rw [LeaseWorld.replicas_setReplica_ne _ _ same]
      exact retired
  | @execute other left right task command key reply tasks sent executed =>
    have lost : ({ world with key } : LeaseWorld).HeldBy name → world.HeldBy name := by
      refine fun holds => (gained_of_run executed holds).resolve_right ?_
      rintro ⟨rfl, rfl, -⟩
      refine retired.idle ((Replica.has_split tasks _).mpr (.inl ?_))
      cases task <;> simp_all [LeaseTask.command, isTick]
    by_cases same : name = other
    · subst same
      rw [LeaseWorld.replicas_setReplica]
      refine ⟨retired.stopped, fun tick => retired.idle ?_, retired.follower,
        fun holds => retired.free (lost holds)⟩
      refine (Replica.has_split tasks _).mpr (((Replica.has_split rfl _).mp tick).imp_left ?_)
      cases task <;> exact id
    · rw [LeaseWorld.replicas_setReplica_ne _ _ same]
      exact retired.mono lost
  | @executeStray index other command key reply stray executed =>
    refine retired.mono fun holds => (gained_of_run executed holds).resolve_right ?_
    rintro ⟨rfl, -, -⟩
    exact settled.strays command stray
  | @resume other left right task outcome replica next strays tasks resumed gaveUp =>
    by_cases same : name = other
    · subst same
      rw [LeaseWorld.replicas_setReplica]
      exact retired.resume tasks resumed
    · rw [LeaseWorld.replicas_setReplica_ne _ _ same]
      exact retired

theorem retired_of_resolves {action : LeaseAction} (settled : world.Settled name)
    (succeeds : CommandsSucceed name world action) (resolves : world.ResolvesStop name action)
    (taken : LeaseStep world action after) :
    (after.replicas name).Retired (after.HeldBy name) := by
  cases taken with
  | elapse | idle | tick | stop | execute | executeStray => exact resolves.elim
  | @resume other left right task outcome replica next strays tasks resumed gaveUp =>
    obtain ⟨rfl, last, revised, found, stops, ends⟩ := resolves
    obtain rfl := succeeds rfl
    obtain rfl : task = last := by simpa [tasks] using found
    obtain ⟨rfl, rfl⟩ := Prod.mk.inj (Option.some.inj (resumed.symm.trans ends))
    rw [LeaseWorld.replicas_setReplica]
    exact settled.replica.retired tasks stops resumed

theorem losses_of_step {action : LeaseAction} (taken : LeaseStep world action after) :
    (after.replicas name).losses = (world.replicas name).losses +
      if (world.replicas name).leader && !(after.replicas name).leader then 1 else 0 := by
  cases taken with
  | elapse | idle | executeStray => simp
  | @tick other | @stop other | @execute other =>
    by_cases same : name = other
    · subst same
      simp
    · simp [LeaseWorld.replicas_setReplica_ne _ _ same]
  | @resume other left right task outcome replica next strays tasks resumed gaveUp =>
    by_cases same : name = other
    · subst same
      simpa using Replica.losses_of_resume resumed
    · simp [LeaseWorld.replicas_setReplica_ne _ _ same]

section Runs
variable {history : List (LeaseWorld × LeaseAction)}

theorem settled_of_run (run : (freshLease name).Run history world)
    (succeed : Guarded (CommandsSucceed name) history)
    (fit : Guarded (AnswersFit name) history) : world.Settled name := by
  induction run with
  | start initial =>
    obtain ⟨⟨idle, none⟩, new⟩ := initial
    refine ⟨?_, by simp [none]⟩
    constructor <;> simp [idle, Replica.Has, new]
  | step run taken ih =>
    have settled := ih (fun entry member => succeed entry (List.mem_cons_of_mem _ member))
      fun entry member => fit entry (List.mem_cons_of_mem _ member)
    exact settled_of_step settled (succeed _ List.mem_cons_self) (fit _ List.mem_cons_self)
      (leaseStep_of_step taken)

theorem retired_of_run (run : (freshLease name).Run history world)
    (succeed : Guarded (CommandsSucceed name) history)
    (fit : Guarded (AnswersFit name) history) (resolved : StopResolved name history) :
    (world.replicas name).Retired (world.HeldBy name) := by
  induction run with
  | start => exact nomatch resolved.choose_spec.1
  | @step history before after action run taken ih =>
    have earlier : ∀ {guard : LeaseWorld → LeaseAction → Prop},
        Guarded guard ((before, action) :: history) → Guarded guard history :=
      fun guarded entry member => guarded entry (List.mem_cons_of_mem _ member)
    have settled := settled_of_run run (earlier succeed) (earlier fit)
    have step := leaseStep_of_step taken
    obtain ⟨entry, member, resolves⟩ := resolved
    rcases List.mem_cons.mp member with rfl | before
    · exact retired_of_resolves settled (succeed _ List.mem_cons_self) resolves step
    · exact retired_of_step settled
        (ih (earlier succeed) (earlier fit) ⟨entry, before, resolves⟩) step

theorem losses_of_run (run : (freshLease name).Run history world) :
    (world.replicas name).losses = falls name history world := by
  induction run with
  | start initial => simp [initial.1.1, falls]
  | step run taken ih => rw [losses_of_step (leaseStep_of_step taken), ih, falls]

/-- The flag tells whether the replica has the key, a stop that is through leaves neither for good,
and the callback is called for each change of the flag from true to false. -/
theorem leaseQuiescence_of_run (run : (freshLease name).Run history world)
    (succeed : Guarded (CommandsSucceed name) history)
    (fit : Guarded (AnswersFit name) history) : LeaseQuiescence name history world where
  quiet := by
    rintro ⟨running, idle⟩
    have settled := (settled_of_run run succeed fit).replica
    refine ⟨settled.quiet running idle, fun holds => ?_⟩
    rcases settled.covered holds with leads | won | freeing
    · exact leads
    · exact absurd (won.mono fun task won => by cases task <;> simp_all [isWon, isTick]) idle
    · exact absurd (freeing.mono fun task freeing => by
        cases task <;> simp_all [isFreeing, isTick]) idle
  retired resolved := by
    have retired := retired_of_run run succeed fit resolved
    exact ⟨retired.free, by simp [LeaseWorld.isLeader, retired.follower]⟩
  losses := losses_of_run run

end Runs

/-! ### Two ticks -/

instance (name : Nat) : Decidable (world.HeldBy name) :=
  decidable_of_iff (world.held.any fun key => key.token = name) (by
    simp [LeaseWorld.HeldBy, Option.any_eq_true])

instance (replica : Replica) (kind : LeaseTask → Bool) : Decidable (replica.Has kind) :=
  inferInstanceAs (Decidable (∃ task ∈ replica.tasks, kind task = true))

instance (name : Nat) : Decidable (world.isLeader name) :=
  inferInstanceAs (Decidable (_ = true))

instance (name : Nat) : Decidable (world.Quiet name) :=
  inferInstanceAs (Decidable (_ ∧ _))

instance (name : Nat) (action : LeaseAction) : Decidable (CommandsSucceed name world action) :=
  match action with
  | .execute _ _ => inferInstanceAs (Decidable (_ → ∀ task ∈ (_ : Option LeaseTask), _ = true))
  | .resume _ _ _ => inferInstanceAs (Decidable (_ → _ = _))
  | .elapse _ | .tick _ | .stop _ | .executeStray _ => inferInstanceAs (Decidable True)

instance (name : Nat) (action : LeaseAction) : Decidable (AnswersFit name world action) :=
  match action with
  | .elapse _ => inferInstanceAs (Decidable (_ → _ → ∀ key ∈ (_ : Option LeaseKey), _ → _ < _))
  | .resume _ _ _ =>
      inferInstanceAs (Decidable (_ → _ → ∀ task ∈ (_ : Option LeaseTask), (_ → _ → _) ∧ _))
  | .tick _ | .stop _ | .execute _ _ | .executeStray _ => inferInstanceAs (Decidable True)

/-- Two ticks are under way at once, and are carried out and answered in the order in which they
started. -/
def twoTicks : List LeaseAction :=
  [.tick 0, .tick 0, .execute 0 0, .execute 0 1, .resume 0 0 .answered, .resume 0 0 .answered]

/-- Two ticks of a leader renew its lease. -/
theorem twoTicks_renew : ∃ history world,
    LeaseQuiescence 0 history world ∧ world.Quiet 0 ∧ world.isLeader 0 := by
  obtain ⟨history, world, run, guarded, -, passed⟩ :=
    @TransitionSystem.run_of_execute _ _ (freshLease 0)
      (fun world action => decide (CommandsSucceed 0 world action ∧ AnswersFit 0 world action))
      (fun world action => CommandsSucceed 0 world action ∧ AnswersFit 0 world action)
      (fun _ _ => of_decide_eq_true) {} (election 0 ++ [.elapse 10000] ++ twoTicks)
      (fun world => decide (world.Quiet 0 ∧ world.isLeader 0))
      ⟨⟨fun _ => rfl, rfl⟩, by decide⟩ (by decide)
  have quiet : world.Quiet 0 ∧ world.isLeader 0 := of_decide_eq_true passed
  exact ⟨history, world, leaseQuiescence_of_run run (fun entry member => (guarded entry member).1)
    fun entry member => (guarded entry member).2, quiet⟩

/-- Two ticks are under way before the lease is won.  The second one finds it taken by the first and
clears the flag, and a stop then leaves the key behind. -/
theorem twoTicks_lose :
    (∃ history world, (freshLease 0).Run history world ∧
      Guarded (CommandsSucceed 0) history ∧ world.Quiet 0 ∧ world.HeldBy 0 ∧
        ¬ world.isLeader 0) ∧
    ∃ history world, (freshLease 0).Run history world ∧
      Guarded (CommandsSucceed 0) history ∧ StopResolved 0 history ∧ world.HeldBy 0 := by
  have reached : ∀ (actions : List LeaseAction) (test : LeaseWorld → Bool),
      ((freshLease 0).execute (fun world action => decide (CommandsSucceed 0 world action)) {}
        actions).any test = true →
      ∃ history world, (freshLease 0).Run history world ∧ Guarded (CommandsSucceed 0) history ∧
        test world = true := by
    intro actions test passes
    obtain ⟨history, world, run, guarded, -, passed⟩ :=
      @TransitionSystem.run_of_execute _ _ (freshLease 0)
        (fun world action => decide (CommandsSucceed 0 world action)) (CommandsSucceed 0)
        (fun _ _ => of_decide_eq_true) {} actions test ⟨⟨fun _ => rfl, rfl⟩, by decide⟩ passes
    exact ⟨history, world, run, guarded, passed⟩
  constructor
  · obtain ⟨history, world, run, guarded, passed⟩ := reached twoTicks
      (fun world => decide (world.Quiet 0 ∧ world.HeldBy 0 ∧ ¬ world.isLeader 0)) (by decide)
    exact ⟨history, world, run, guarded, of_decide_eq_true passed⟩
  · obtain ⟨history, world, run, guarded, passed⟩ := reached (twoTicks ++ [.stop 0])
      (fun world => decide ((world.replicas 0).tasks = [.settling] ∧ ¬ world.isLeader 0) &&
        ((freshLease 0).step world (.resume 0 0 .answered)).any fun after => after.HeldBy 0)
      (by decide)
    obtain ⟨settling, holds⟩ := (Bool.and_eq_true _ _).mp passed
    obtain ⟨tasks, follower⟩ := of_decide_eq_true settling
    obtain ⟨after, taken, holds⟩ := (Option.any_eq_true _ _).mp holds
    have ends : (world.replicas 0).resume .settling .answered =
        some ((world.replicas 0).setLeader false, none) := by
      simp only [LeaseWorld.isLeader] at follower
      simp [Replica.resume, tasks, isTick, follower]
    have resolves : world.ResolvesStop 0 (.resume 0 0 .answered) :=
      ⟨rfl, .settling, _, by rw [tasks]; rfl, .inl rfl, ends⟩
    refine ⟨_, after, run.step taken, ?_, ⟨_, List.mem_cons_self, resolves⟩,
      of_decide_eq_true holds⟩
    rintro entry member
    rcases List.mem_cons.mp member with rfl | earlier
    · exact fun _ => rfl
    · exact guarded entry earlier

end NestjsFastify.LeaderLease
