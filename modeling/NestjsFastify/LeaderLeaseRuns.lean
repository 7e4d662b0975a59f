import Mathlib.Data.List.Count
import NestjsFastify.RedisLeaderLease

/-! # Exclusive leadership

A replica whose flag is set holds the key, unless Redis has carried out the release of its stop.
The invariant follows the key from the command that wins it through the answer on its way to the
flag.
-/
namespace NestjsFastify.LeaderLease
open LeaseTask (isTick isWon isReleasing isStopping isReleased isSettling)
open TransitionSystem (Guarded)

variable {world after : LeaseWorld}

/-! ### Steps -/

/-- What a step can do; a replica's tasks are split at the one that it is about. -/
inductive LeaseStep (world : LeaseWorld) : LeaseAction → LeaseWorld → Prop
  | elapse {milliseconds : Nat} :
      LeaseStep world (.elapse milliseconds) { world with now := world.now + milliseconds }
  | idle {name : Nat} : LeaseStep world (.tick name) world
  | tick {name : Nat} {task : LeaseTask} (running : (world.replicas name).stopped = false)
      (sent : task = .renewing none ∨ task = .acquiring none) :
      LeaseStep world (.tick name) (world.setReplica name { world.replicas name with
        tasks := (world.replicas name).tasks ++ [task] })
  | stop {name : Nat} :
      LeaseStep world (.stop name) (world.setReplica name { world.replicas name with
        stopped := true, tasks := (world.replicas name).tasks ++ [.settling] })
  | execute {name : Nat} {left right : List LeaseTask} {task : LeaseTask}
      {command : LeaseCommand} {key : Option LeaseKey} {reply : Bool}
      (tasks : (world.replicas name).tasks = left ++ task :: right)
      (sent : task.command = some command)
      (executed : runCommand world.now world.held name command = (key, reply)) :
      LeaseStep world (.execute name left.length)
        ({ world with key }.setReplica name { world.replicas name with
          tasks := left ++ task.answered reply :: right })
  | executeStray {index name : Nat} {command : LeaseCommand} {key : Option LeaseKey}
      {reply : Bool}
      (stray : (name, command) ∈ world.strays)
      (executed : runCommand world.now world.held name command = (key, reply)) :
      LeaseStep world (.executeStray index) { world with key }
  | resume {name : Nat} {left right : List LeaseTask} {task : LeaseTask}
      {outcome : ReplyOutcome} {replica : Replica} {next : Option LeaseTask} {strays : List (Nat × LeaseCommand)}
      (tasks : (world.replicas name).tasks = left ++ task :: right)
      (resumed : (world.replicas name).resume task outcome = some (replica, next))
      (left' : strays = world.strays ++ leftBehind name task outcome) :
      LeaseStep world (.resume name left.length outcome)
        ({ world with strays }.setReplica name { replica with
          tasks := left ++ (next.toList ++ right) })

theorem tasks_of_resume {replica revised : Replica} {task : LeaseTask} {outcome : ReplyOutcome}
    {next : Option LeaseTask} (resumed : replica.resume task outcome = some (revised, next)) :
    revised.tasks = replica.tasks ∧ revised.stopped = replica.stopped := by
  unfold Replica.resume at resumed
  split at resumed <;> (try split at resumed) <;> (try split at resumed) <;>
    simp only [Option.some.injEq, Prod.mk.injEq, reduceCtorEq] at resumed <;>
    obtain ⟨rfl, -⟩ := resumed <;> exact ⟨rfl, rfl⟩

theorem leaseStep_of_step {action : LeaseAction} (taken : world.step action = some after) :
    LeaseStep world action after := by
  have splitAt : ∀ {tasks : List LeaseTask} {index : Nat} {task : LeaseTask},
      tasks[index]? = some task → ∃ left right, tasks = left ++ task :: right ∧
        index = left.length := by
    intro tasks index task found
    obtain ⟨inside, rfl⟩ := List.getElem?_eq_some_iff.mp found
    refine ⟨tasks.take index, tasks.drop (index + 1), ?_, ?_⟩
    · rw [List.getElem_cons_drop, List.take_append_drop]
    · exact (List.length_take_of_le (Nat.le_of_lt inside)).symm
  cases action with
  | elapse milliseconds =>
    obtain rfl := Option.some.inj taken
    exact .elapse
  | tick name =>
    simp only [LeaseWorld.step] at taken
    split at taken
    · obtain rfl := Option.some.inj taken
      exact .idle
    · rename_i running
      obtain rfl := Option.some.inj taken
      refine .tick (by simpa using running) ?_
      split
      · exact .inl rfl
      · exact .inr rfl
  | stop name =>
    obtain rfl := Option.some.inj taken
    exact .stop
  | execute name index =>
    simp only [LeaseWorld.step, Option.bind_eq_bind, Option.pure_def,
      Option.bind_eq_some_iff] at taken
    obtain ⟨task, found, command, sent, same⟩ := taken
    obtain rfl := Option.some.inj same
    obtain ⟨left, right, tasks, rfl⟩ := splitAt found
    have set : (world.replicas name).tasks.set left.length
        (task.answered (runCommand world.now world.held name command).2) =
          left ++ task.answered (runCommand world.now world.held name command).2 :: right := by
      rw [tasks, List.set_append_right _ _ (Nat.le_refl _), Nat.sub_self, List.set_cons_zero]
    simp only [set]
    exact .execute tasks sent rfl
  | executeStray index =>
    simp only [LeaseWorld.step, Option.bind_eq_bind, Option.pure_def,
      Option.bind_eq_some_iff] at taken
    obtain ⟨⟨name, command⟩, found, same⟩ := taken
    obtain rfl := Option.some.inj same
    exact .executeStray (List.mem_of_getElem? found) rfl
  | resume name index outcome =>
    simp only [LeaseWorld.step, Option.bind_eq_bind, Option.pure_def,
      Option.bind_eq_some_iff] at taken
    obtain ⟨task, found, ⟨replica, next⟩, resumed, same⟩ := taken
    obtain rfl := Option.some.inj same
    obtain ⟨left, right, tasks, rfl⟩ := splitAt found
    have kept : replica.tasks = left ++ task :: right := (tasks_of_resume resumed).1.trans tasks
    have updated : updateTask replica.tasks left.length next = left ++ (next.toList ++ right) := by
      cases next <;> simp [updateTask, kept, List.eraseIdx_append_of_length_le]
    simp only [updated]
    exact .resume tasks resumed rfl

/-! ### The invariant -/

/-- How many of the replica's tasks are of a kind. -/
def Replica.count (replica : Replica) (kind : LeaseTask → Bool) : Nat := replica.tasks.countP kind

/-- What is known of a replica: `holding` says that it holds the key, `strayed` that it gave up a
release. -/
structure Replica.Ruled (replica : Replica) (holding strayed : Prop) : Prop where
  releasing : 0 < replica.count isReleasing → replica.stopped = true
  stopping : 0 < replica.count isStopping →
    replica.stopped = true ∧ replica.count isTick = 0
  settling : 0 < replica.count isSettling → replica.stopped = true
  holds : replica.leader = true → 0 < replica.count isReleased ∨ holding
  wins : replica.stopped = false → 0 < replica.count isWon → holding
  once : replica.stopped = false → replica.count isWon ≤ 1
  leads : replica.leader = true → replica.count isWon = 0 ∧ replica.count isReleasing = 0
  strays : strayed → replica.stopped = true ∧ replica.leader = false

namespace Replica
variable {replica : Replica} {holding holding' strayed strayed' : Prop}

/-- What matters of the key is that a leader, and a replica that has won it, keep it. -/
theorem Ruled.mono (ruled : replica.Ruled holding strayed)
    (kept : replica.leader = true ∨ 0 < replica.count isWon → holding → holding')
    (strays : strayed' → strayed) : replica.Ruled holding' strayed' where
  releasing := ruled.releasing
  stopping := ruled.stopping
  settling := ruled.settling
  holds leads := (ruled.holds leads).imp_right (kept (.inl leads))
  wins running won := kept (.inr won) (ruled.wins running won)
  once := ruled.once
  leads := ruled.leads
  strays strayed := ruled.strays (strays strayed)

/-- The kinds of a task, as they are counted. -/
theorem count_split {left right : List LeaseTask} {task : LeaseTask}
    (tasks : replica.tasks = left ++ task :: right) (kind : LeaseTask → Bool) :
    replica.count kind =
      left.countP kind + right.countP kind + if kind task then 1 else 0 := by
  rw [count, tasks, List.countP_append, List.countP_cons]
  omega

theorem Ruled.tick (ruled : replica.Ruled holding strayed) (running : replica.stopped = false)
    {task : LeaseTask} (sent : task = .renewing none ∨ task = .acquiring none) :
    ({ replica with tasks := replica.tasks ++ [task] } : Replica).Ruled holding strayed := by
  have notStopping : ¬ 0 < replica.count isStopping := by
    intro stopping
    simpa [running] using (ruled.stopping stopping).1
  obtain ⟨releasing, stopping, settling, holds, wins, once, leads, strays⟩ := ruled
  constructor <;> rcases sent with rfl | rfl <;>
    simp only [count, List.countP_append, List.countP_singleton] <;> first | assumption | skip
  all_goals exact fun stopping => absurd stopping notStopping

theorem Ruled.stop (ruled : replica.Ruled holding strayed) :
    ({ replica with stopped := true, tasks := replica.tasks ++ [.settling] } :
      Replica).Ruled holding strayed := by
  obtain ⟨releasing, stopping, settling, holds, wins, once, leads, strays⟩ := ruled
  constructor <;> simp only [count, List.countP_append, List.countP_singleton]
  · simp
  · exact fun some => ⟨trivial, (stopping some).2⟩
  · simp
  · exact holds
  · simp
  · simp
  · exact leads
  · exact fun strayed => ⟨trivial, (strays strayed).2⟩

section Split
variable {left right : List LeaseTask} {task : LeaseTask}

theorem count_pos (tasks : replica.tasks = left ++ task :: right) {kind : LeaseTask → Bool}
    (isKind : kind task = true) : 0 < replica.count kind := by
  rw [count_split tasks, if_pos isKind]
  omega

/-- A release is sent by a replica that has been stopped, and that is no leader unless it is the
stop's own release. -/
theorem Ruled.release (ruled : replica.Ruled holding strayed)
    (tasks : replica.tasks = left ++ task :: right) (release : task.command = some .release) :
    replica.stopped = true ∧ (replica.leader = true → isStopping task = true) := by
  cases task with
  | renewing | acquiring | settling => simp [LeaseTask.command] at release
  | releasing answer =>
    have some : 0 < replica.count isReleasing := count_pos tasks rfl
    refine ⟨ruled.releasing some, fun leads => ?_⟩
    have none := (ruled.leads leads).2
    omega
  | stopping answer =>
    have some : 0 < replica.count isStopping := count_pos tasks rfl
    exact ⟨(ruled.stopping some).1, fun _ => rfl⟩

/-- A stop whose release has been carried out is a stop that has sent it. -/
theorem count_isReleased_le : replica.count isReleased ≤ replica.count isStopping := by
  apply List.countP_mono_left
  intro task _ released
  cases task <;> simp_all [isReleased, isStopping]

/-- A command has been carried out that does not win the key; only a release can lose it. -/
theorem Ruled.answered (ruled : replica.Ruled holding strayed)
    (tasks : replica.tasks = left ++ task :: right) {reply : Bool}
    (kept : task.command ≠ some .release → holding → holding')
    (notWon : isWon (task.answered reply) = false) :
    ({ replica with tasks := left ++ task.answered reply :: right } : Replica).Ruled
      holding' strayed := by
  have counts : ∀ kind : LeaseTask → Bool, kind (task.answered reply) = kind task →
      ({ replica with tasks := left ++ task.answered reply :: right } : Replica).count kind =
        replica.count kind := by
    intro kind same
    rw [count_split tasks, count_split rfl, same]
  have ticks := counts isTick (by cases task <;> rfl)
  have releases := counts isReleasing (by cases task <;> rfl)
  have stops := counts isStopping (by cases task <;> rfl)
  have settles := counts isSettling (by cases task <;> rfl)
  have wins : ({ replica with tasks := left ++ task.answered reply :: right } :
      Replica).count isWon ≤ replica.count isWon := by
    rw [count_split tasks, count_split rfl, notWon]
    simp
  constructor
  · exact releases ▸ ruled.releasing
  · rw [stops, ticks]
    exact ruled.stopping
  · exact settles ▸ ruled.settling
  · intro leads
    by_cases release : task.command = some .release
    · have released : isReleased (task.answered reply) = true := by
        have stopping := (ruled.release tasks release).2 leads
        cases task <;> simp_all [isStopping, isReleased, LeaseTask.answered]
      exact .inl (count_pos rfl released)
    · have same := counts isReleased (by
        cases task <;> simp_all [isReleased, LeaseTask.answered, LeaseTask.command])
      rw [same]
      exact (ruled.holds leads).imp_right (kept release)
  · intro running won
    by_cases release : task.command = some .release
    · have stopped := (ruled.release tasks release).1
      simp [stopped] at running
    · exact kept release (ruled.wins running (by omega))
  · exact fun running => Nat.le_trans wins (ruled.once running)
  · intro leads
    rw [releases]
    have := ruled.leads leads
    exact ⟨by omega, this.2⟩
  · exact ruled.strays

/-- The command that wins the key has found it free. -/
theorem Ruled.won (ruled : replica.Ruled holding strayed) {answer : Option Bool}
    (tasks : replica.tasks = left ++ .acquiring answer :: right) (free : ¬ holding)
    (held : holding') :
    ({ replica with tasks := left ++ .acquiring (some true) :: right } : Replica).Ruled
      holding' strayed := by
  have counts : ∀ kind : LeaseTask → Bool,
      kind (.acquiring (some true)) = kind (.acquiring answer) →
      ({ replica with tasks := left ++ .acquiring (some true) :: right } : Replica).count kind =
        replica.count kind := by
    intro kind same
    rw [count_split tasks, count_split rfl, same]
  have ticks := counts isTick rfl
  have releases := counts isReleasing rfl
  have stops := counts isStopping rfl
  have settles := counts isSettling rfl
  have follower : replica.leader = false := by
    by_contra leads
    have tick : 0 < replica.count isTick := count_pos tasks rfl
    rcases ruled.holds (by simpa using leads) with released | holding
    · have stopping := Nat.lt_of_lt_of_le released count_isReleased_le
      have none := (ruled.stopping stopping).2
      omega
    · exact free holding
  constructor
  · exact releases ▸ ruled.releasing
  · rw [stops, ticks]
    exact ruled.stopping
  · exact settles ▸ ruled.settling
  · simp [follower]
  · exact fun _ _ => held
  · intro running
    have none : ¬ 0 < replica.count isWon := fun won => free (ruled.wins running won)
    have before := count_split tasks isWon
    rw [count_split rfl]
    simp only [isWon, if_true]
    omega
  · simp [follower]
  · exact ruled.strays

/-- A task ends, and the replica is not the leader after it. -/
theorem Ruled.dropped (ruled : replica.Ruled holding strayed)
    (tasks : replica.tasks = left ++ task :: right)
    (strays : strayed' → strayed ∨ task.command = some .release) {losses : Nat} :
    ({ replica with leader := false, losses, tasks := left ++ right } : Replica).Ruled
      holding strayed' := by
  have fewer : ∀ kind, ({ replica with leader := false, losses, tasks := left ++ right } :
      Replica).count kind ≤ replica.count kind := by
    intro kind
    rw [count_split tasks, count, List.countP_append]
    omega
  have releases := fewer isReleasing
  have stops := fewer isStopping
  have ticks := fewer isTick
  have settles := fewer isSettling
  have wins := fewer isWon
  constructor
  · exact fun some => ruled.releasing (by omega)
  · intro some
    have earlier := ruled.stopping (by omega)
    exact ⟨earlier.1, by omega⟩
  · exact fun some => ruled.settling (by omega)
  · simp
  · exact fun running some => ruled.wins running (by omega)
  · exact fun running => Nat.le_trans wins (ruled.once running)
  · simp
  · intro strayed
    rcases strays strayed with earlier | release
    · exact ⟨(ruled.strays earlier).1, rfl⟩
    · exact ⟨(ruled.release tasks release).1, rfl⟩

/-- A tick ends and leaves the flags as they are. -/
theorem Ruled.ended (ruled : replica.Ruled holding strayed)
    (tasks : replica.tasks = left ++ task :: right) (tick : isTick task = true) :
    ({ replica with tasks := left ++ right } : Replica).Ruled holding strayed := by
  have same : ({ replica with tasks := left ++ right } : Replica).count isReleased =
      replica.count isReleased := by
    have notReleased : isReleased task = false := by cases task <;> simp_all [isTick, isReleased]
    rw [count_split tasks, count, List.countP_append, notReleased]
    simp
  have fewer : ∀ kind, ({ replica with tasks := left ++ right } : Replica).count kind ≤
      replica.count kind := by
    intro kind
    rw [count_split tasks, count, List.countP_append]
    omega
  have releases := fewer isReleasing
  have stops := fewer isStopping
  have ticks := fewer isTick
  have settles := fewer isSettling
  have wins := fewer isWon
  constructor
  · exact fun some => ruled.releasing (by omega)
  · intro some
    have earlier := ruled.stopping (by omega)
    exact ⟨earlier.1, by omega⟩
  · exact fun some => ruled.settling (by omega)
  · exact fun leads => same ▸ ruled.holds leads
  · exact fun running some => ruled.wins running (by omega)
  · exact fun running => Nat.le_trans wins (ruled.once running)
  · intro leads
    have earlier := ruled.leads leads
    exact ⟨by omega, by omega⟩
  · exact ruled.strays

/-- The lease is lost, and the tick tries to acquire it again. -/
theorem Ruled.retried (ruled : replica.Ruled holding strayed) {answer : Option Bool}
    (tasks : replica.tasks = left ++ .renewing answer :: right) {losses : Nat} :
    ({ replica with leader := false, losses, tasks := left ++ .acquiring none :: right } :
      Replica).Ruled holding strayed := by
  have counts : ∀ kind : LeaseTask → Bool, kind (.acquiring none) = kind (.renewing answer) →
      ({ replica with leader := false, losses, tasks := left ++ .acquiring none :: right } :
        Replica).count kind = replica.count kind := by
    intro kind same
    rw [count_split tasks, count_split rfl, same]
  have ticks := counts isTick rfl
  have stops := counts isStopping rfl
  have wins := counts isWon rfl
  constructor
  · exact counts isReleasing rfl ▸ ruled.releasing
  · rw [stops, ticks]
    exact ruled.stopping
  · exact counts isSettling rfl ▸ ruled.settling
  · simp
  · exact wins ▸ ruled.wins
  · exact wins ▸ ruled.once
  · simp
  · exact fun strayed => ⟨(ruled.strays strayed).1, rfl⟩

/-- The answer arrives that the key is won. -/
theorem Ruled.elected (ruled : replica.Ruled holding strayed)
    (tasks : replica.tasks = left ++ .acquiring (some true) :: right)
    (running : replica.stopped = false) {losses : Nat} :
    ({ replica with leader := true, losses, tasks := left ++ right } : Replica).Ruled
      holding strayed := by
  have some : 0 < replica.count isWon := count_pos tasks rfl
  have once := ruled.once running
  have split := count_split tasks isWon
  simp only [isWon, if_true] at split
  have noRelease : replica.count isReleasing = 0 := by
    by_contra some
    simpa [running] using ruled.releasing (by omega)
  have noStop : replica.count isStopping = 0 := by
    by_contra some
    simpa [running] using (ruled.stopping (by omega)).1
  have noSettling : replica.count isSettling = 0 := by
    by_contra some
    simpa [running] using ruled.settling (by omega)
  have fewer : ∀ kind, ({ replica with leader := true, losses, tasks := left ++ right } :
      Replica).count kind ≤ replica.count kind := by
    intro kind
    rw [count_split tasks, count, List.countP_append]
    omega
  have releases := fewer isReleasing
  have stops := fewer isStopping
  have settles := fewer isSettling
  have wins : ({ replica with leader := true, losses, tasks := left ++ right } :
      Replica).count isWon = 0 := by
    rw [count, List.countP_append]
    omega
  constructor
  · exact fun some => by omega
  · exact fun some => by omega
  · exact fun some => by omega
  · exact fun _ => .inr (ruled.wins running some)
  · exact fun _ some => by omega
  · exact fun _ => by omega
  · exact fun _ => ⟨wins, by omega⟩
  · intro strayed
    have stopped := (ruled.strays strayed).1
    simp [running] at stopped

/-- The key was won too late: the replica has been stopped. -/
theorem Ruled.tooLate (ruled : replica.Ruled holding strayed)
    (tasks : replica.tasks = left ++ .acquiring (some true) :: right)
    (stopped : replica.stopped = true) :
    ({ replica with tasks := left ++ .releasing none :: right } : Replica).Ruled
      holding strayed := by
  have some : 0 < replica.count isWon := count_pos tasks rfl
  have follower : replica.leader = false := by
    by_contra leads
    have none := (ruled.leads (by simpa using leads)).1
    omega
  have counts : ∀ kind : LeaseTask → Bool,
      kind (.releasing none) = kind (.acquiring (Option.some true)) →
      ({ replica with tasks := left ++ .releasing none :: right } : Replica).count kind =
        replica.count kind := by
    intro kind same
    rw [count_split tasks, count_split rfl, same]
  constructor
  · exact fun _ => stopped
  · rw [counts isStopping rfl, counts isTick rfl]
    exact ruled.stopping
  · exact fun _ => stopped
  · simp [follower]
  · simp [stopped]
  · simp [stopped]
  · simp [follower]
  · exact ruled.strays

/-- The stop has waited for the ticks and sends its release. -/
theorem Ruled.released (ruled : replica.Ruled holding strayed)
    (tasks : replica.tasks = left ++ .settling :: right) (quiet : replica.count isTick = 0) :
    ({ replica with tasks := left ++ .stopping none :: right } : Replica).Ruled
      holding strayed := by
  have stopped : replica.stopped = true := ruled.settling (count_pos tasks rfl)
  have counts : ∀ kind : LeaseTask → Bool, kind (.stopping none) = kind .settling →
      ({ replica with tasks := left ++ .stopping none :: right } : Replica).count kind =
        replica.count kind := by
    intro kind same
    rw [count_split tasks, count_split rfl, same]
  constructor
  · exact fun _ => stopped
  · rw [counts isTick rfl]
    exact fun _ => ⟨stopped, quiet⟩
  · exact fun _ => stopped
  · rw [counts isReleased rfl]
    exact ruled.holds
  · simp [stopped]
  · simp [stopped]
  · rw [counts isWon rfl, counts isReleasing rfl]
    exact ruled.leads
  · exact ruled.strays

/-- A replica that was stopped and is no leader may lose the key. -/
theorem Ruled.lost (ruled : replica.Ruled holding strayed) (stopped : replica.stopped = true)
    (follower : replica.leader = false) : replica.Ruled holding' strayed where
  releasing := ruled.releasing
  stopping := ruled.stopping
  settling := ruled.settling
  holds := by simp [follower]
  wins := by simp [stopped]
  once := ruled.once
  leads := ruled.leads
  strays := ruled.strays

theorem Ruled.resume (ruled : replica.Ruled holding strayed)
    (tasks : replica.tasks = left ++ task :: right) {outcome : ReplyOutcome} {revised : Replica}
    {next : Option LeaseTask} (resumed : replica.resume task outcome = some (revised, next))
    (strays : strayed' → strayed ∨ outcome = .failed ∧ task.command = some .release) :
    ({ revised with tasks := left ++ (next.toList ++ right) } : Replica).Ruled
      holding strayed' := by
  have gaveUp : strayed' → strayed ∨ task.command = some .release :=
    fun strayed => (strays strayed).imp_right And.right
  have answered : outcome = .answered → strayed' → strayed := by
    rintro rfl strayed
    exact (strays strayed).resolve_right (fun failed => by simp at failed)
  unfold Replica.resume at resumed
  split at resumed
  · rename_i renewed
    have ruled := ruled.mono (fun _ holding => holding) (answered rfl)
    split at resumed <;> obtain ⟨rfl, rfl⟩ := Prod.mk.inj (Option.some.inj resumed)
    · exact ruled.ended tasks rfl
    · exact ruled.retried tasks
  · rename_i acquired
    have ruled := ruled.mono (fun _ holding => holding) (answered rfl)
    split at resumed
    · rename_i stopped
      obtain ⟨rfl, rfl⟩ := Prod.mk.inj (Option.some.inj resumed)
      cases acquired with
      | true => exact ruled.tooLate tasks stopped
      | false => exact ruled.ended tasks rfl
    · rename_i running
      obtain ⟨rfl, rfl⟩ := Prod.mk.inj (Option.some.inj resumed)
      cases acquired with
      | true => exact ruled.elected tasks (by simpa using running)
      | false => exact ruled.dropped tasks .inl
  · obtain ⟨rfl, rfl⟩ := Prod.mk.inj (Option.some.inj resumed)
    exact (ruled.mono (fun _ holding => holding) (answered rfl)).ended tasks rfl
  · have ruled := ruled.mono (fun _ holding => holding) (answered rfl)
    split at resumed
    · simp at resumed
    rename_i noTick
    have quiet : replica.count isTick = 0 := by
      simpa [count, List.countP_eq_zero] using noTick
    split at resumed <;> obtain ⟨rfl, rfl⟩ := Prod.mk.inj (Option.some.inj resumed)
    · exact ruled.released tasks quiet
    · exact ruled.dropped tasks .inl
  all_goals
    first
    | obtain ⟨rfl, rfl⟩ := Prod.mk.inj (Option.some.inj resumed)
      exact ruled.dropped tasks gaveUp
    | simp at resumed

end Split

end Replica

/-! ### The key under commands -/

/-- What a command leaves is what commands find next. -/
theorem held_of_run {name : Nat} {command : LeaseCommand} {key : Option LeaseKey} {reply : Bool}
    (executed : runCommand world.now world.held name command = (key, reply)) :
    ({ world with key } : LeaseWorld).held = key := by
  have live : ∀ held, world.held = some held → world.now < held.expiresAt := by
    intro held found
    simpa using (Option.filter_eq_some_iff.mp found).2
  have fresh : world.now < world.now + leaseTtlMs := Nat.lt_add_of_pos_right (by decide)
  unfold LeaseWorld.held at executed live ⊢
  cases command <;> cases found : Option.filter (fun key => decide (world.now < key.expiresAt))
    world.key <;> simp only [runCommand, found] at executed <;> (try split at executed) <;>
    obtain ⟨rfl, -⟩ := Prod.mk.inj executed <;> simp_all

/-- A command of another replica leaves the key to its holder. -/
theorem heldBy_of_run {name other : Nat} {command : LeaseCommand} {key : Option LeaseKey}
    {reply : Bool} (executed : runCommand world.now world.held other command = (key, reply))
    (spared : name ≠ other ∨ command ≠ .release) (holds : world.HeldBy name) :
    ({ world with key } : LeaseWorld).HeldBy name := by
  obtain ⟨held, found, rfl⟩ := holds
  unfold LeaseWorld.HeldBy
  rw [held_of_run executed]
  rw [found] at executed
  by_cases same : held.token = other
  · have kept := spared.resolve_left (fun different => different same)
    cases command with
    | release => exact absurd rfl kept
    | renew =>
      simp only [runCommand, if_pos same, Prod.mk.injEq] at executed
      exact ⟨_, executed.1.symm, rfl⟩
    | acquire =>
      simp only [runCommand, Prod.mk.injEq] at executed
      exact ⟨_, executed.1.symm, rfl⟩
  · rw [runCommand_other same] at executed
    exact ⟨held, (Prod.mk.inj executed).1.symm, rfl⟩

/-- A command wins the key exactly when there is none. -/
theorem won_of_run {name : Nat} {key : Option LeaseKey}
    (executed : runCommand world.now world.held name .acquire = (key, true)) :
    world.held = none ∧ ({ world with key } : LeaseWorld).HeldBy name := by
  have held := held_of_run executed
  cases free : world.held with
  | some key => simp [runCommand, free] at executed
  | none =>
    simp only [runCommand, free, Prod.mk.injEq] at executed
    exact ⟨rfl, _, held.trans executed.1.symm, rfl⟩

/-! ### Every run -/

/-- The replica needs the key: its flag is set, or it is about to be. -/
def LeaseWorld.Needs (world : LeaseWorld) (name : Nat) : Prop :=
  world.isLeader name ∨ world.Winning name

/-- What is known of all replicas. -/
def LeaseWorld.Ruled (world : LeaseWorld) : Prop :=
  ∀ name, (world.replicas name).Ruled (world.HeldBy name) ((name, .release) ∈ world.strays)

theorem count_isWon_pos_iff {name : Nat} :
    0 < (world.replicas name).count isWon ↔ world.Winning name := by
  simp [Replica.count, LeaseWorld.Winning, List.countP_pos_iff]

theorem count_isReleased_pos_iff {name : Nat} :
    0 < (world.replicas name).count isReleased ↔ world.Released name := by
  simp [Replica.count, LeaseWorld.Released, List.countP_pos_iff]

/-- A step of one replica leaves the others ruled, if it takes no key from them. -/
private theorem ruled_of_setReplica (ruled : world.Ruled) {name : Nat} {replica : Replica}
    {key : Option LeaseKey} {strays : List (Nat × LeaseCommand)}
    (here : replica.Ruled (({ world with key } : LeaseWorld).HeldBy name)
      ((name, .release) ∈ strays))
    (held : ∀ other, other ≠ name → world.HeldBy other →
      ({ world with key } : LeaseWorld).HeldBy other)
    (gaveUp : ∀ other, other ≠ name → (other, .release) ∈ strays →
      (other, .release) ∈ world.strays) :
    ({ world with key, strays }.setReplica name replica).Ruled := by
  intro other
  by_cases same : other = name
  · subst same
    rw [LeaseWorld.replicas_setReplica]
    exact here
  · rw [LeaseWorld.replicas_setReplica_ne _ _ same]
    exact (ruled other).mono (fun _ => held other same) (gaveUp other same)

theorem ruled_of_step {action : LeaseAction} (sustained : Sustained LeaseWorld.Needs world action)
    (ruled : world.Ruled) (taken : LeaseStep world action after) : after.Ruled := by
  have kept : ∀ other name : Nat, other ≠ name → world.HeldBy other → world.HeldBy other :=
    fun _ _ _ holds => holds
  cases taken with
  | @elapse milliseconds =>
    intro name
    refine (ruled name).mono ?_ id
    rintro needs ⟨key, held, rfl⟩
    have live := sustained key held (needs.imp_right count_isWon_pos_iff.mp)
    refine ⟨key, ?_, rfl⟩
    have stored := (Option.filter_eq_some_iff.mp held).1
    exact Option.filter_eq_some_iff.mpr ⟨stored, decide_eq_true live⟩
  | idle => exact ruled
  | @tick name task running sent =>
    exact ruled_of_setReplica ruled ((ruled name).tick running sent) (fun _ => kept _ _)
      fun _ _ stray => stray
  | @stop name =>
    exact ruled_of_setReplica ruled (ruled name).stop (fun _ => kept _ _) fun _ _ stray => stray
  | @execute name left right task command key reply tasks sent executed =>
    refine ruled_of_setReplica ruled ?_ (fun other different =>
      heldBy_of_run executed (.inl different)) fun _ _ stray => stray
    cases won : isWon (task.answered reply) with
    | false =>
      refine (ruled name).answered tasks (fun notRelease => ?_) won
      exact heldBy_of_run executed (.inr fun release => notRelease (sent.trans (congrArg _ release)))
    | true =>
      cases task <;> cases reply <;> simp [LeaseTask.answered, isWon] at won
      obtain rfl : LeaseCommand.acquire = command := Option.some.inj sent
      obtain ⟨free, holds⟩ := won_of_run executed
      refine (ruled name).won tasks ?_ holds
      rintro ⟨key, held, -⟩
      simp [free] at held
  | @executeStray index name command key reply stray executed =>
    intro other
    by_cases spared : other ≠ name ∨ command ≠ .release
    · exact (ruled other).mono (fun _ => heldBy_of_run executed spared) id
    · obtain ⟨rfl, rfl⟩ : other = name ∧ command = .release := by
        simpa only [not_or, not_not] using spared
      obtain ⟨stopped, follower⟩ := (ruled other).strays stray
      exact (ruled other).lost stopped follower
  | @resume name left right task outcome replica next strays tasks resumed gaveUp =>
    subst gaveUp
    refine ruled_of_setReplica ruled ((ruled name).resume tasks resumed ?_) (fun _ => kept _ _) ?_
    · intro stray
      refine (List.mem_append.mp stray).imp_right fun new => ?_
      cases outcome with
      | answered => simp [leftBehind] at new
      | failed => simpa [leftBehind] using new
    · intro other different stray
      refine (List.mem_append.mp stray).resolve_right fun new => different ?_
      cases outcome with
      | answered => simp [leftBehind] at new
      | failed =>
        simp only [leftBehind, List.mem_map, Prod.mk.injEq] at new
        obtain ⟨-, -, same, -⟩ := new
        exact same.symm

section Runs
variable {history : List (LeaseWorld × LeaseAction)}

theorem ruled_of_run (run : leaseSystem.Run history world)
    (sustained : Guarded (Sustained LeaseWorld.Needs) history) : world.Ruled := by
  refine run.guardedInvariant (Sustained LeaseWorld.Needs) ?_ ?_ sustained
  · rintro state ⟨idle, none⟩ name
    constructor <;> simp [idle, none, Replica.count]
  · intro before action after guard ruled taken
    exact ruled_of_step guard ruled (leaseStep_of_step taken)

/-- The laws of the lease along a run: one leader at a time, apart from a replica whose stop waits
for the answer to a release that was carried out, and no command that touches a key with another
token. -/
structure LeaseSafety (history : List (LeaseWorld × LeaseAction)) (world : LeaseWorld) : Prop where
  exclusive : Guarded (Sustained LeaseWorld.Needs) history → ∀ first second,
    world.isLeader first → world.isLeader second →
      first = second ∨ world.Released first ∨ world.Released second
  spares : ∀ action after name command, world.step action = some after →
    world.Sends action name command → ∀ key, world.held = some key → key.token ≠ name →
      after.held = some key

/-- A key with another token survives the command as it is. -/
theorem held_of_other {action : LeaseAction} {name : Nat} {command : LeaseCommand}
    (taken : world.step action = some after) (sends : world.Sends action name command)
    {key : LeaseKey} (held : world.held = some key) (different : key.token ≠ name) :
    after.held = some key := by
  have spared : runCommand world.now world.held name command = (some key, false) := by
    rw [held, runCommand_other different]
  have stays := held_of_run spared
  cases action with
  | elapse | tick | stop | resume => exact sends.elim
  | execute replica index =>
    obtain ⟨rfl, sent⟩ := sends
    obtain ⟨task, found, sent⟩ := Option.bind_eq_some_iff.mp sent
    simp only [LeaseWorld.step, found, sent, spared, Option.bind_eq_bind, Option.bind_some,
      Option.pure_def, Option.some.injEq] at taken
    exact taken ▸ stays
  | executeStray index =>
    have stray : world.strays[index]? = some (name, command) := sends
    simp only [LeaseWorld.step, stray, spared, Option.bind_eq_bind, Option.bind_some,
      Option.pure_def, Option.some.injEq] at taken
    exact taken ▸ stays

theorem leaseSafety_of_run (run : leaseSystem.Run history world) : LeaseSafety history world where
  exclusive sustained first second leads leads' := by
    have ruled := ruled_of_run run sustained
    rcases (ruled first).holds leads with released | ⟨key, held, rfl⟩
    · exact .inr (.inl (count_isReleased_pos_iff.mp released))
    rcases (ruled second).holds leads' with released | ⟨key', held', rfl⟩
    · exact .inr (.inr (count_isReleased_pos_iff.mp released))
    · obtain rfl := Option.some.inj (held.symm.trans held')
      exact .inl rfl
  spares _ _ _ _ taken sends _ held different := held_of_other taken sends held different

end Runs

/-! ### Particular runs -/

/-- The actions that a replica takes to become the leader. -/
def election (name : Nat) : List LeaseAction :=
  [.tick name, .execute name 0, .resume name 0 .answered]

/-- A step that meets the assumption about the key, as a test. -/
def sustains (needs : LeaseWorld → Nat → Bool) (world : LeaseWorld) : LeaseAction → Bool
  | .elapse milliseconds => world.held.all fun key =>
      !needs world key.token || decide (world.now + milliseconds < key.expiresAt)
  | _ => true

theorem sustained_of_sustains {needs : LeaseWorld → Nat → Prop} {test : LeaseWorld → Nat → Bool}
    (complete : ∀ world name, needs world name → test world name = true) {action : LeaseAction}
    (passes : sustains test world action = true) : Sustained needs world action := by
  cases action with
  | elapse milliseconds =>
    intro key held need
    simp only [sustains, held, Option.all_some, complete _ _ need, Bool.not_true, Bool.false_or,
      decide_eq_true_eq] at passes
    exact passes
  | tick | stop | execute | executeStray | resume => trivial

/-- The leader stops, and another replica takes over once the stop is through. -/
theorem leaseSafety_handover : ∃ history world,
    LeaseSafety history world ∧ Guarded (Sustained LeaseWorld.Needs) history ∧
      world.isLeader 1 ∧ ¬ world.isLeader 0 := by
  obtain ⟨history, world, run, sustained, -, passed⟩ :=
    @TransitionSystem.run_of_execute _ _ leaseSystem (sustains fun _ _ => true)
      (Sustained LeaseWorld.Needs) (fun _ _ => sustained_of_sustains fun _ _ _ => rfl) {}
      (election 0 ++ [.elapse 10000, .tick 0, .execute 0 0, .resume 0 0 .answered, .stop 0,
        .resume 0 0 .answered, .execute 0 0, .resume 0 0 .answered] ++ election 1)
      (fun world => (world.replicas 1).leader && !(world.replicas 0).leader)
      ⟨fun _ => rfl, rfl⟩ rfl
  simp only [Bool.and_eq_true, Bool.not_eq_true'] at passed
  exact ⟨history, world, leaseSafety_of_run run, sustained, passed.1,
    by simp [LeaseWorld.isLeader, passed.2]⟩

/-- The key of a leader does not expire, yet two replicas are leaders: while the answer to the
release of a stop is on its way, and when the answer to a command that has won the key comes after
the key has expired. -/
theorem two_leaders :
    (¬ ∀ history world, leaseSystem.Run history world →
      Guarded (Sustained LeaseWorld.isLeader) history →
        ∀ first second, world.isLeader first → world.isLeader second → first = second) ∧
    ¬ ∀ history world, leaseSystem.Run history world →
      Guarded (Sustained LeaseWorld.isLeader) history →
        ∀ first second, world.isLeader first → world.isLeader second →
          first = second ∨ world.Released first ∨ world.Released second := by
  have both : ∀ (actions : List LeaseAction) (test : LeaseWorld → Bool),
      (leaseSystem.execute (sustains fun world name => (world.replicas name).leader) {}
        actions).any (fun world => (world.replicas 0).leader && (world.replicas 1).leader &&
          test world) = true →
      ∃ history world, leaseSystem.Run history world ∧
        Guarded (Sustained LeaseWorld.isLeader) history ∧ world.isLeader 0 ∧
          world.isLeader 1 ∧ test world = true := by
    intro actions test passes
    obtain ⟨history, world, run, sustained, -, passed⟩ :=
      @TransitionSystem.run_of_execute _ _ leaseSystem
        (sustains fun world name => (world.replicas name).leader)
        (Sustained LeaseWorld.isLeader) (fun _ _ => sustained_of_sustains fun _ _ leads => leads)
        {} actions _ ⟨fun _ => rfl, rfl⟩ passes
    simp only [Bool.and_eq_true] at passed
    exact ⟨history, world, run, sustained, passed.1.1, passed.1.2, passed.2⟩
  constructor
  · intro exclusive
    obtain ⟨history, world, run, sustained, first, second, -⟩ :=
      both (election 0 ++ [.stop 0, .resume 0 0 .answered, .execute 0 0] ++ election 1)
        (fun _ => true) rfl
    exact absurd (exclusive history world run sustained 0 1 first second) (by decide)
  · intro exclusive
    obtain ⟨history, world, run, sustained, first, second, idle⟩ :=
      both ([.tick 0, .execute 0 0, .elapse 30000] ++ election 1 ++ [.resume 0 0 .answered])
        (fun world => (world.replicas 0).tasks.isEmpty && (world.replicas 1).tasks.isEmpty) rfl
    simp only [Bool.and_eq_true, List.isEmpty_iff] at idle
    rcases exclusive history world run sustained 0 1 first second with same | released | released
    · exact absurd same (by decide)
    · simp [LeaseWorld.Released, idle.1] at released
    · simp [LeaseWorld.Released, idle.2] at released

end NestjsFastify.LeaderLease
