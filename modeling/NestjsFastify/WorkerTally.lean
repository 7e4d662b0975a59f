import Mathlib.Algebra.GroupWithZero.Nat
import NestjsFastify.WorkerPool

/-! # Workers that count

The workers of a pool all begin at once, each counts the items that end well, and the pool resolves
to the sum of the counts once every worker has finished.
-/
namespace WorkerPool
open KeyedGroups (ItemGroup)
variable {Item Phase Outcome : Type*}

/-- The item that the worker is handling. -/
def Worker.item? : Worker Item Phase → Option Item
  | busy item _ _ => some item
  | _ => none

def Worker.isFinished : Worker Item Phase → Bool
  | finished => true
  | _ => false

namespace Pool

/-- The items that workers are handling at the moment. -/
def inFlight (pool : Pool Item Phase) : List Item := pool.workers.filterMap Worker.item?

variable (task : PoolTask Item Phase Outcome)

/-- Every worker, one after the other, goes on to its first item. -/
def begin (groups : List (ItemGroup Item)) (count : Nat) : Pool Item Phase :=
  (List.range count).foldl (fun pool index => pool.proceed task index []) (.start groups count)

/-- The item that the outcome ends, and whether it ends well. -/
def settles (good : Phase → Outcome → Bool) (pool : Pool Item Phase) (index : Nat)
    (outcome : Outcome) : Option (Item × Bool) :=
  match pool.workers[index]? with
  | some (.busy item phase _) =>
      match task.resume phase outcome with
      | some none => some (item, good phase outcome)
      | _ => none
  | _ => none

end Pool

/-- A pool with the counts of its workers. -/
structure Tally (Item Phase : Type*) where
  pool : Pool Item Phase
  counts : List Nat
  deriving DecidableEq, Repr

namespace Tally
variable (task : PoolTask Item Phase Outcome) (good : Phase → Outcome → Bool)

def start (groups : List (ItemGroup Item)) (count : Nat) : Tally Item Phase where
  pool := .begin task groups count
  counts := List.replicate count 0

def step (tally : Tally Item Phase) (index : Nat) (outcome : Outcome) :
    Option (Tally Item Phase) :=
  (tally.pool.advance task index outcome).map fun pool =>
    { pool
      counts :=
        if (tally.pool.settles task good index outcome).any (·.2) then
          tally.counts.modify index (· + 1)
        else tally.counts }

/-- What the pool resolves to, once all workers have finished. -/
def result (tally : Tally Item Phase) : Option Nat :=
  if tally.pool.workers.all Worker.isFinished then some tally.counts.sum else none

/-- The runs of a pool that counts. -/
def system (groups : List (ItemGroup Item)) (count : Nat) :
    TransitionSystem (Tally Item Phase) (Nat × Outcome) where
  initial tally := tally = .start task groups count
  step tally action := tally.step task good action.1 action.2

/-- The items that a run has settled, the last one first. -/
def settled (history : List (Tally Item Phase × (Nat × Outcome))) : List (Item × Bool) :=
  history.filterMap fun entry => entry.1.pool.settles task good entry.2.1 entry.2.2

end Tally

section
variable {task : PoolTask Item Phase Outcome} {pool after : Pool Item Phase} {index : Nat}
  {outcome : Outcome} {rest : List Item}

/-- The items in flight change by the one that is settled and the one that is started. -/
theorem Pool.Advanced.inFlight (advanced : pool.Advanced task index outcome after)
    (good : Phase → Outcome → Bool) (active : pool.workers[index]? ≠ some .finished) :
    (after.inFlight ++ (pool.settles task good index outcome).toList.map (·.1) ++
      pool.started).Perm (pool.inFlight ++ after.started) := by
  classical
  refine List.perm_iff_count.mpr fun counted => ?_
  cases advanced with
  | phase workers here resumed =>
    subst here
    simp [Pool.inFlight, Pool.settles, resumed, workers, Worker.item?]
  | item workers here resumed =>
    subst here
    simp [Pool.inFlight, Pool.settles, resumed, workers, Worker.item?, List.count_cons]
    omega
  | @group left right worker group waiting workers here settled spent groups =>
    subst here
    cases worker with
    | idle =>
      simp [Pool.inFlight, Pool.settles, workers, Worker.item?, List.filterMap_cons,
        List.count_cons]
      omega
    | busy item phase rest =>
      simp [Pool.inFlight, Pool.settles, settled _ _ _ rfl, workers, Worker.item?, List.count_cons]
      omega
    | finished => simp [workers] at active
  | @finish left right worker workers here settled spent groups =>
    subst here
    cases worker with
    | idle =>
      simp [Pool.inFlight, Pool.settles, workers, Worker.item?, List.filterMap_cons]
    | busy item phase rest =>
      simp [Pool.inFlight, Pool.settles, settled _ _ _ rfl, workers, Worker.item?,
        List.filterMap_cons, List.count_cons]
      omega
    | finished => simp [workers] at active

/-! ## The beginning -/

@[simp] theorem Pool.length_proceed :
    (pool.proceed task index rest).workers.length = pool.workers.length := by
  unfold proceed
  split <;> simp

theorem Pool.proceed_other {other : Nat} (different : other ≠ index) :
    (pool.proceed task index rest).workers[other]? = pool.workers[other]? := by
  unfold proceed
  split <;> simp [different.symm]

theorem Pool.proceed_begun (inside : index < pool.workers.length) :
    (pool.proceed task index rest).workers[index]? ≠ some .idle := by
  unfold proceed
  split <;> simp [inside]

/-- The first workers have begun, the others wait for their turn. -/
private theorem begun_range (groups : List (ItemGroup Item)) (count begun : Nat)
    (outcome : Outcome) (within : begun ≤ count) :
    let pool := (List.range begun).foldl (fun pool index => pool.proceed task index [])
      (Pool.start groups count)
    (∃ history, (WorkerPool.system task groups count).Run history pool) ∧
      pool.workers.length = count ∧
      (∀ index, begun ≤ index → index < count → pool.workers[index]? = some .idle) ∧
      (∀ index < begun, pool.workers[index]? ≠ some .idle) ∧
      pool.inFlight.Perm pool.started := by
  induction begun with
  | zero =>
    refine ⟨⟨[], .start rfl⟩, by simp [Pool.start], fun index _ inside => ?_, by simp, ?_⟩
    · simp [Pool.start, inside]
    · simp [Pool.start, Pool.inFlight, Worker.item?]
  | succ begun ih =>
    obtain ⟨⟨history, run⟩, length, idle, working, started⟩ := ih (Nat.le_of_succ_le within)
    simp only [List.range_succ, List.foldl_append, List.foldl_cons, List.foldl_nil]
    generalize (List.range begun).foldl (fun pool index => pool.proceed task index [])
      (Pool.start groups count) = pool at run length idle working started
    have turn := idle begun (Nat.le_refl _) within
    have taken : pool.advance task begun outcome = some (pool.proceed task begun []) := by
      simp [Pool.advance, turn]
    refine ⟨⟨_, @TransitionSystem.Run.step _ _ _ _ _ _ (begun, outcome) run taken⟩,
      by simp [length], fun index behind inside => ?_, fun index ahead => ?_, ?_⟩
    · rw [Pool.proceed_other (by omega)]
      exact idle index (by omega) inside
    · rcases Nat.lt_succ_iff_lt_or_eq.mp ahead with earlier | rfl
      · rw [Pool.proceed_other (by omega)]
        exact working index earlier
      · exact Pool.proceed_begun (by omega)
    · have changed := (Pool.advanced_of_advance taken).inFlight (fun _ _ => true) (by simp [turn])
      simp only [Pool.settles, turn, Option.toList_none, List.map_nil, List.append_nil] at changed
      exact (List.perm_append_right_iff _).mp
        (changed.trans ((List.perm_append_right_iff _).mpr started |>.trans List.perm_append_comm))

theorem run_begin (groups : List (ItemGroup Item)) (count : Nat) (outcome : Outcome) :
    ∃ history, (WorkerPool.system task groups count).Run history (Pool.begin task groups count) :=
  (begun_range groups count count outcome (Nat.le_refl _)).1

/-- Every worker is busy or finished. -/
def Pool.Begun (pool : Pool Item Phase) : Prop := .idle ∉ pool.workers

theorem begun_begin (groups : List (ItemGroup Item)) (count : Nat) (outcome : Outcome) :
    (Pool.begin task groups count).Begun ∧
      (Pool.begin task groups count).workers.length = count ∧
      (Pool.begin task groups count).inFlight.Perm (Pool.begin task groups count).started := by
  obtain ⟨-, length, -, working, started⟩ :=
    @begun_range _ _ _ task groups count count outcome (Nat.le_refl _)
  refine ⟨fun member => ?_, length, started⟩
  obtain ⟨index, inside, same⟩ := List.mem_iff_getElem.mp member
  refine working index (length ▸ inside) ?_
  exact (List.getElem?_eq_some_iff.mpr ⟨inside, same⟩)

/-! ## One step -/

theorem Pool.Advanced.length (advanced : pool.Advanced task index outcome after) :
    after.workers.length = pool.workers.length := by
  cases advanced with
  | phase workers | item workers | group workers | finish workers => simp [workers]

theorem Pool.Advanced.begun (advanced : pool.Advanced task index outcome after)
    (begun : pool.Begun) : after.Begun := by
  unfold Pool.Begun at *
  cases advanced with
  | phase workers | item workers | group workers | finish workers => simp_all

/-- A finished worker has found no group left. -/
def Pool.Drained (pool : Pool Item Phase) : Prop :=
  .finished ∈ pool.workers → pool.waiting = []

theorem Pool.Advanced.drained (advanced : pool.Advanced task index outcome after)
    (drained : pool.Drained) : after.Drained := by
  unfold Pool.Drained at *
  cases advanced with
  | phase workers | item workers => simp_all
  | group workers here settled spent groups => simp_all
  | finish workers here settled spent groups => simp [groups]

/-- In a pool that has begun, a worker that takes a step is busy. -/
theorem Pool.busy_of_advance (begun : pool.Begun)
    (taken : pool.advance task index outcome = some after) :
    ∃ item phase rest, pool.workers[index]? = some (.busy item phase rest) := by
  cases found : pool.workers[index]? with
  | none => simp [Pool.advance, found] at taken
  | some worker =>
    cases worker with
    | idle => exact absurd (List.mem_of_getElem? found) begun
    | busy item phase rest => exact ⟨item, phase, rest, rfl⟩
    | finished => simp [Pool.advance, found] at taken

/-! ## Runs -/

namespace Tally
variable {good : Phase → Outcome → Bool} {groups : List (ItemGroup Item)} {count : Nat}
  {tally : Tally Item Phase} {history : List (Tally Item Phase × (Nat × Outcome))}

/-- What holds of a pool that counts, at any moment. -/
structure Sound (task : PoolTask Item Phase Outcome) (good : Phase → Outcome → Bool)
    (groups : List (ItemGroup Item)) (count : Nat)
    (history : List (Tally Item Phase × (Nat × Outcome))) (tally : Tally Item Phase) : Prop where
  run : ∃ history, (WorkerPool.system task groups count).Run history tally.pool
  begun : tally.pool.Begun
  workers : tally.pool.workers.length = count
  counts : tally.counts.length = count
  drained : tally.pool.Drained
  waiting : tally.pool.waiting ≠ [] → groups ≠ []
  started : (tally.pool.inFlight ++ (settled task good history).map (·.1)).Perm tally.pool.started
  sum : tally.counts.sum = (settled task good history).countP (·.2)

private theorem sum_modify {counts : List Nat} {index : Nat} (inside : index < counts.length) :
    (counts.modify index (· + 1)).sum = counts.sum + 1 := by
  induction counts generalizing index with
  | nil => simp at inside
  | cons count counts ih =>
    cases index with
    | zero => simp; omega
    | succ index =>
      have rest := ih (Nat.lt_of_succ_lt_succ inside)
      simp only [List.modify_succ_cons, List.sum_cons, rest]
      omega

/-- No group waits once a worker has finished. -/
private theorem drained_of_run {history : List (Pool Item Phase × (Nat × Outcome))}
    {pool : Pool Item Phase} (run : (WorkerPool.system task groups count).Run history pool) :
    pool.Drained ∧ (pool.waiting ≠ [] → groups ≠ []) := by
  induction run with
  | start initial =>
    obtain rfl := initial
    exact ⟨fun member => by simp [Pool.start] at member, id⟩
  | step run taken ih =>
    have advanced := Pool.advanced_of_advance taken
    refine ⟨advanced.drained ih.1, fun waiting => ih.2 ?_⟩
    cases advanced with
    | phase | item => exact waiting
    | group workers here settled spent groups => simp [groups]
    | finish workers here settled spent groups => exact absurd groups waiting

theorem settled_cons (entry : Tally Item Phase × (Nat × Outcome)) :
    settled task good (entry :: history) =
      (entry.1.pool.settles task good entry.2.1 entry.2.2).toList ++ settled task good history := by
  cases ended : entry.1.pool.settles task good entry.2.1 entry.2.2 <;> simp [settled, ended]

theorem sound_of_run (outcome : Outcome)
    (run : (system task good groups count).Run history tally) :
    Sound task good groups count history tally := by
  induction run with
  | start initial =>
    obtain rfl := initial
    obtain ⟨earlier, run⟩ := @run_begin _ _ _ task groups count outcome
    obtain ⟨begun, length, started⟩ := @begun_begin _ _ _ task groups count outcome
    obtain ⟨drained, waiting⟩ := drained_of_run run
    exact
      { run := ⟨earlier, run⟩
        begun
        workers := length
        counts := by simp [Tally.start]
        drained
        waiting
        started := by simpa [settled, Tally.start] using started
        sum := by simp [Tally.start, settled] }
  | @step history before after action run taken ih =>
    obtain ⟨pool, advance, rfl⟩ := Option.map_eq_some_iff.mp taken
    have advanced := Pool.advanced_of_advance advance
    obtain ⟨item, phase, rest, busy⟩ := Pool.busy_of_advance ih.begun advance
    obtain ⟨earlier, before_run⟩ := ih.run
    have poolRun := @TransitionSystem.Run.step _ _ (WorkerPool.system task groups count) _ _ _ action
      before_run advance
    obtain ⟨drained, waiting⟩ := drained_of_run poolRun
    have inside : action.1 < before.counts.length := by
      rw [ih.counts, ← ih.workers]
      exact (List.getElem?_eq_some_iff.mp busy).1
    refine
      { run := ⟨_, poolRun⟩
        begun := advanced.begun ih.begun
        workers := advanced.length.trans ih.workers
        counts := ?_
        drained
        waiting
        started := ?_
        sum := ?_ }
    · split <;> simp [ih.counts]
    · classical
      have changed := advanced.inFlight good (by simp [busy])
      refine List.perm_iff_count.mpr fun counted => ?_
      have before := List.perm_iff_count.mp ih.started counted
      have after := List.perm_iff_count.mp changed counted
      simp only [settled_cons, List.map_append, List.count_append] at before after ⊢
      omega
    · rw [settled_cons, List.countP_append, ← ih.sum]
      cases before.pool.settles task good action.1 action.2 with
      | none => simp
      | some ended =>
        cases well : ended.2 with
        | false => simp [well]
        | true => simp [well, sum_modify inside, Nat.add_comm]

namespace Sound

/-- There are no more items in flight than workers. -/
theorem length_inFlight (sound : Sound task good groups count history tally) :
    tally.pool.inFlight.length ≤ count :=
  sound.workers ▸ List.length_filterMap_le _ _

/-- The workers have all finished when nothing is in flight. -/
theorem finished_iff (sound : Sound task good groups count history tally) :
    tally.pool.workers.all Worker.isFinished = true ↔ tally.pool.inFlight = [] := by
  rw [Pool.inFlight, List.filterMap_eq_nil_iff, List.all_eq_true]
  refine forall₂_congr fun worker member => ?_
  cases worker with
  | idle => exact absurd member sound.begun
  | busy | finished => simp [Worker.isFinished, Worker.item?]

/-- The pool resolves to the number of items that ended well, once nothing is in flight. -/
theorem result (sound : Sound task good groups count history tally) [Decidable
    (tally.pool.inFlight = [])] :
    tally.result = if tally.pool.inFlight = [] then
      some ((settled task good history).countP (·.2)) else none := by
  unfold Tally.result
  by_cases finished : tally.pool.inFlight = []
  · rw [if_pos (sound.finished_iff.mpr finished), if_pos finished, sound.sum]
  · rw [if_neg (sound.finished_iff.not.mpr finished), if_neg finished]

/-- With a worker for the first group, nothing remains when nothing is in flight. -/
theorem complete (sound : Sound task good groups count history tally)
    (staffed : groups ≠ [] → 0 < count) (settled : tally.pool.inFlight = []) :
    tally.pool.remaining = [] := by
  have finished := List.all_eq_true.mp (sound.finished_iff.mpr settled)
  have waiting : tally.pool.waiting = [] := by
    by_contra waiting
    have positive := sound.workers ▸ staffed (sound.waiting waiting)
    obtain ⟨worker, member⟩ := List.exists_mem_of_length_pos positive
    cases worker with
    | finished => exact waiting (sound.drained member)
    | idle | busy => simpa [Worker.isFinished] using finished _ member
  simp only [Pool.remaining, waiting, List.flatMap_nil, List.append_nil, List.flatMap_eq_nil_iff]
  intro worker member
  cases worker with
  | finished => rfl
  | idle | busy => simpa [Worker.isFinished] using finished _ member

/-- No two items in flight have the same key. -/
theorem pairwise_inFlight {Key : Type*} {key : Item → Key} {pool : Pool Item Phase}
    (separated : pool.Separated key) :
    pool.inFlight.Pairwise fun item other => key item ≠ key other := by
  have apart := (List.pairwise_append.mp separated.apart).1
  refine List.pairwise_filterMap.mpr ((List.pairwise_map.mp apart).imp ?_)
  intro worker other different item here otherItem there
  cases worker with
  | busy =>
    cases other with
    | busy =>
      obtain rfl := Option.some.inj here
      obtain rfl := Option.some.inj there
      exact different _ List.mem_cons_self _ List.mem_cons_self
    | idle | finished => exact nomatch there
  | idle | finished => exact nomatch here

end Sound
end Tally
end

end WorkerPool
