import NestjsFastify.KeyedGroups
import NestjsFastify.TransitionSystem

/-! # Workers that share a list of groups

The workers of a pool take the groups in their order, each worker one at a time, and handle the
items of a group one after the other.  An item passes through phases; what happens to it in a phase
decides the next one, or that the worker is done with it.
-/

/-- How an item is handled: its first phase, and what follows a phase (nothing, when the outcome
cannot happen in it). -/
structure PoolTask (Item Phase Outcome : Type*) where
  start : Item → Phase
  resume : Phase → Outcome → Option (Option Phase)

namespace WorkerPool
open KeyedGroups (ItemGroup)

inductive Worker (Item Phase : Type*) where
  | idle
  | busy (item : Item) (phase : Phase) (rest : List Item)
  | finished
  deriving DecidableEq, Repr

/-- The groups that no worker has taken yet, the workers, and the items started so far. -/
structure Pool (Item Phase : Type*) where
  waiting : List (ItemGroup Item)
  workers : List (Worker Item Phase)
  started : List Item
  deriving DecidableEq, Repr

variable {Item Phase Outcome : Type*}

/-- The items of the group that the worker has not started. -/
def Worker.rest : Worker Item Phase → List Item
  | busy _ _ rest => rest
  | _ => []

/-- The items of the group that the worker is not done with. -/
def Worker.lane : Worker Item Phase → List Item
  | busy item _ rest => item :: rest
  | _ => []

@[simp] theorem Worker.rest_busy (item : Item) (phase : Phase) (rest : List Item) :
    (Worker.busy item phase rest).rest = rest := rfl

@[simp] theorem Worker.lane_busy (item : Item) (phase : Phase) (rest : List Item) :
    (Worker.busy item phase rest).lane = item :: rest := rfl

@[simp] theorem Worker.lane_finished : (Worker.finished : Worker Item Phase).lane = [] := rfl

@[simp] theorem Worker.rest_finished : (Worker.finished : Worker Item Phase).rest = [] := rfl

namespace Pool

/-- `count` workers, none of which has begun. -/
def start (groups : List (ItemGroup Item)) (count : Nat) : Pool Item Phase where
  waiting := groups
  workers := List.replicate count .idle
  started := []

/-- All items that no worker has started. -/
def remaining (pool : Pool Item Phase) : List Item :=
  pool.workers.flatMap Worker.rest ++ pool.waiting.flatMap ItemGroup.items

/-- The groups, as far as they are not done. -/
def lanes (pool : Pool Item Phase) : List (List Item) :=
  pool.workers.map Worker.lane ++ pool.waiting.map ItemGroup.items

theorem mem_lanes_of_remaining {pool : Pool Item Phase} {item : Item}
    (member : item ∈ pool.remaining) : item ∈ pool.lanes.flatten := by
  rcases List.mem_append.mp member with begun | waiting
  · obtain ⟨worker, workerMem, itemMem⟩ := List.mem_flatMap.mp begun
    refine List.mem_flatten.mpr
      ⟨worker.lane, List.mem_append_left _ (List.mem_map_of_mem workerMem), ?_⟩
    cases worker with
    | busy last phase rest => exact List.mem_cons_of_mem _ itemMem
    | idle | finished => simp [Worker.rest] at itemMem
  · obtain ⟨group, groupMem, itemMem⟩ := List.mem_flatMap.mp waiting
    exact List.mem_flatten.mpr
      ⟨group.items, List.mem_append_right _ (List.mem_map_of_mem groupMem), itemMem⟩

variable (task : PoolTask Item Phase Outcome)

/-- The worker at `index` goes on to the next item: of its group, else of the next group. -/
def proceed (pool : Pool Item Phase) (index : Nat) (rest : List Item) : Pool Item Phase :=
  match rest, pool.waiting with
  | item :: rest, _ =>
      { pool with
        workers := pool.workers.set index (.busy item (task.start item) rest)
        started := pool.started ++ [item] }
  | [], group :: waiting =>
      { waiting
        workers := pool.workers.set index (.busy group.first (task.start group.first) group.others)
        started := pool.started ++ [group.first] }
  | [], [] => { pool with workers := pool.workers.set index .finished }

/-- One step of the worker at `index`; an idle worker needs no outcome. -/
def advance (pool : Pool Item Phase) (index : Nat) (outcome : Outcome) :
    Option (Pool Item Phase) :=
  match pool.workers[index]? with
  | some .idle => some (pool.proceed task index [])
  | some (.busy item phase rest) =>
      (task.resume phase outcome).map fun
        | some next => { pool with workers := pool.workers.set index (.busy item next rest) }
        | none => pool.proceed task index rest
  | _ => none

/-- What a step of a worker can do: its item goes on to another phase, or an item is started from
the worker's own group or from the next group, or the worker finds no group left. -/
inductive Advanced (pool : Pool Item Phase) (index : Nat) (outcome : Outcome) :
    Pool Item Phase → Prop
  | phase {left right : List (Worker Item Phase)} {item : Item} {phase next : Phase}
      {rest : List Item} (workers : pool.workers = left ++ .busy item phase rest :: right)
      (here : left.length = index) (resumed : task.resume phase outcome = some (some next)) :
      Advanced pool index outcome
        { pool with workers := left ++ .busy item next rest :: right }
  | item {left right : List (Worker Item Phase)} {last item : Item} {phase : Phase}
      {rest : List Item} (workers : pool.workers = left ++ .busy last phase (item :: rest) :: right)
      (here : left.length = index) (resumed : task.resume phase outcome = some none) :
      Advanced pool index outcome
        { pool with
          workers := left ++ .busy item (task.start item) rest :: right
          started := pool.started ++ [item] }
  | group {left right : List (Worker Item Phase)} {worker : Worker Item Phase}
      {group : ItemGroup Item} {waiting : List (ItemGroup Item)}
      (workers : pool.workers = left ++ worker :: right) (here : left.length = index)
      (settled : ∀ item phase rest, worker = .busy item phase rest →
        task.resume phase outcome = some none)
      (spent : worker.rest = []) (groups : pool.waiting = group :: waiting) :
      Advanced pool index outcome
        { waiting
          workers := left ++ .busy group.first (task.start group.first) group.others :: right
          started := pool.started ++ [group.first] }
  | finish {left right : List (Worker Item Phase)} {worker : Worker Item Phase}
      (workers : pool.workers = left ++ worker :: right) (here : left.length = index)
      (settled : ∀ item phase rest, worker = .busy item phase rest →
        task.resume phase outcome = some none)
      (spent : worker.rest = []) (groups : pool.waiting = []) :
      Advanced pool index outcome { pool with workers := left ++ .finished :: right }

variable {task} {pool after : Pool Item Phase} {index : Nat} {outcome : Outcome}

private theorem split_at {workers : List (Worker Item Phase)} {worker : Worker Item Phase}
    (found : workers[index]? = some worker) :
    ∃ left right, workers = left ++ worker :: right ∧ left.length = index ∧
      ∀ other, workers.set index other = left ++ other :: right := by
  obtain ⟨inside, rfl⟩ := List.getElem?_eq_some_iff.mp found
  refine ⟨workers.take index, workers.drop (index + 1), ?_, ?_, ?_⟩
  · rw [List.getElem_cons_drop, List.take_append_drop]
  · exact List.length_take_of_le (Nat.le_of_lt inside)
  · intro other
    rw [List.set_eq_take_append_cons_drop, if_pos inside]

private theorem advanced_of_proceed {worker : Worker Item Phase}
    (found : pool.workers[index]? = some worker)
    (resumed : ∀ item phase rest, worker = .busy item phase rest →
      task.resume phase outcome = some none)
    (active : worker ≠ .finished) :
    pool.Advanced task index outcome (pool.proceed task index worker.rest) := by
  obtain ⟨left, right, workers, here, set⟩ := split_at found
  have fromGroups : worker.rest = [] → pool.Advanced task index outcome
      (pool.proceed task index []) := by
    intro spent
    cases groups : pool.waiting with
    | nil =>
      simp only [proceed, groups, set]
      exact groups ▸ Advanced.finish workers here resumed spent groups
    | cons group waiting =>
      simp only [proceed, groups, set]
      exact .group workers here resumed spent groups
  cases worker with
  | idle => exact fromGroups rfl
  | finished => exact absurd rfl active
  | busy last phase rest =>
    cases rest with
    | nil => exact fromGroups rfl
    | cons item rest =>
      simp only [Worker.rest, proceed, set]
      exact .item workers here (resumed _ _ _ rfl)

theorem advanced_of_advance (taken : pool.advance task index outcome = some after) :
    pool.Advanced task index outcome after := by
  unfold advance at taken
  split at taken
  · rename_i found
    obtain rfl := Option.some.inj taken
    exact advanced_of_proceed found (by simp) (by simp)
  · rename_i item phase rest found
    obtain ⟨next, resumed, same⟩ := Option.map_eq_some_iff.mp taken
    cases next with
    | some next =>
      obtain ⟨left, right, workers, here, set⟩ := split_at found
      obtain rfl : _ = after := same
      simp only [set]
      exact .phase workers here resumed
    | none =>
      obtain rfl : _ = after := same
      refine advanced_of_proceed found ?_ (by simp)
      intro _ _ _ same
      obtain ⟨-, rfl, -⟩ := Worker.busy.inj same
      exact resumed
  · simp at taken

/-! ### What a step keeps -/

/-- Nothing is lost and nothing is started twice. -/
theorem Advanced.perm (advanced : pool.Advanced task index outcome after) :
    (after.started ++ after.remaining).Perm (pool.started ++ pool.remaining) := by
  classical
  refine List.perm_iff_count.mpr fun counted => ?_
  cases advanced with
  | phase workers here resumed => simp [remaining, workers]
  | item workers here resumed =>
    simp [remaining, workers, List.count_cons]
    omega
  | group workers here settled spent groups =>
    simp [remaining, workers, groups, spent, ItemGroup.items, List.count_cons]
    omega
  | finish workers here settled spent groups => simp [remaining, workers, groups, spent]

/-- A step takes an item on to another phase, or starts an item, or leaves its worker without
one. -/
theorem Advanced.cases (advanced : pool.Advanced task index outcome after) :
    (∃ item phase next rest, pool.workers[index]? = some (.busy item phase rest) ∧
        task.resume phase outcome = some (some next) ∧
        after.workers[index]? = some (.busy item next rest) ∧
        after.remaining = pool.remaining) ∨
      (∃ item rest, after.workers[index]? = some (.busy item (task.start item) rest) ∧
        (item :: after.remaining).Perm pool.remaining) ∨
      after.workers[index]? = some .finished ∧ after.remaining = pool.remaining := by
  have counts := advanced.perm
  cases advanced with
  | @phase left right item phase next rest workers here resumed =>
    subst here
    exact .inl ⟨item, phase, next, rest, by simp [workers], resumed, by simp,
      by simp [remaining, workers]⟩
  | @item left right last item phase rest workers here resumed =>
    subst here
    refine .inr (.inl ⟨item, rest, by simp, ?_⟩)
    simpa [List.append_assoc, List.perm_append_left_iff] using counts
  | @group left right worker group waiting workers here settled spent groups =>
    subst here
    refine .inr (.inl ⟨group.first, group.others, by simp, ?_⟩)
    simpa [List.append_assoc, List.perm_append_left_iff] using counts
  | finish workers here settled spent groups =>
    subst here
    exact .inr (.inr ⟨by simp, by simp [remaining, workers, groups, spent]⟩)

/-- Only the worker that steps changes. -/
theorem Advanced.workers (advanced : pool.Advanced task index outcome after)
    {worker : Worker Item Phase} (member : worker ∈ after.workers) :
    worker ∈ pool.workers ∨ after.workers[index]? = some worker := by
  cases advanced <;> subst_vars <;> simp_all <;> grind

theorem Advanced.other (advanced : pool.Advanced task index outcome after) {other : Nat}
    (different : other ≠ index) : after.workers[other]? = pool.workers[other]? := by
  have replaced : ∀ (left right : List (Worker Item Phase)) (old new : Worker Item Phase),
      left.length = index → (left ++ new :: right)[other]? = (left ++ old :: right)[other]? := by
    rintro left right old new rfl
    rcases Nat.lt_or_gt_of_ne different with before | behind
    · rw [List.getElem?_append_left before, List.getElem?_append_left before]
    · rw [List.getElem?_append_right (Nat.le_of_lt behind),
        List.getElem?_append_right (Nat.le_of_lt behind)]
      obtain ⟨further, same⟩ := Nat.exists_eq_add_one.mpr (Nat.sub_pos_of_lt behind)
      rw [same, List.getElem?_cons_succ, List.getElem?_cons_succ]
  cases advanced with
  | phase workers here | item workers here | group workers here | finish workers here =>
    rw [workers]
    exact replaced _ _ _ _ here

/-- An item leaves the pool only when its worker is done with it. -/
theorem Advanced.leaves (advanced : pool.Advanced task index outcome after) {leaving : Item}
    (member : leaving ∈ pool.lanes.flatten) :
    leaving ∈ after.lanes.flatten ∨ ∃ phase rest,
      pool.workers[index]? = some (.busy leaving phase rest) ∧
        task.resume phase outcome = some none := by
  have last : ∀ {left right : List (Worker Item Phase)} {worker : Worker Item Phase},
      pool.workers = left ++ worker :: right → left.length = index → worker.rest = [] →
      (∀ item phase rest, worker = .busy item phase rest →
        task.resume phase outcome = some none) → leaving ∈ worker.lane →
      ∃ phase rest, pool.workers[index]? = some (.busy leaving phase rest) ∧
        task.resume phase outcome = some none := by
    intro left right worker workers here spent settled current
    subst here
    cases worker with
    | idle => simp [Worker.lane] at current
    | finished => simp [Worker.lane] at current
    | busy item phase rest =>
      obtain rfl : rest = [] := spent
      obtain rfl : leaving = item := by simpa [Worker.lane] using current
      exact ⟨phase, [], by simp [workers], settled _ _ _ rfl⟩
  cases advanced with
  | phase workers here resumed =>
    left
    simpa [lanes, workers] using member
  | @item left right done item phase rest workers here resumed =>
    by_cases current : leaving = done
    · subst current here
      exact .inr ⟨phase, item :: rest, by simp [workers], resumed⟩
    · left
      simpa [lanes, workers, current] using member
  | @group left right worker group waiting workers here settled spent groups =>
    by_cases current : leaving ∈ worker.lane
    · exact .inr (last workers here spent settled current)
    · left
      simp only [lanes, workers, groups, List.map_append, List.map_cons, List.flatten_append,
        List.flatten_cons, List.mem_append, current, false_or] at member
      simp only [lanes, List.map_append, List.map_cons, List.flatten_append, List.flatten_cons,
        List.mem_append]
      tauto
  | @finish left right worker workers here settled spent groups =>
    by_cases current : leaving ∈ worker.lane
    · exact .inr (last workers here spent settled current)
    · left
      simpa [lanes, workers, groups, current] using member

section Keyed
variable {Key : Type*} {key : Item → Key}

/-- Every lane has items of one key, and no two lanes of the same key. -/
structure Separated (key : Item → Key) (pool : Pool Item Phase) : Prop where
  same : ∀ lane ∈ pool.lanes, ∀ first ∈ lane, ∀ second ∈ lane, key first = key second
  apart : pool.lanes.Pairwise fun lane other =>
    ∀ first ∈ lane, ∀ second ∈ other, key first ≠ key second

theorem Advanced.separated (advanced : pool.Advanced task index outcome after)
    (separated : pool.Separated key) : after.Separated key := by
  obtain ⟨same, apart⟩ := separated
  cases advanced with
  | phase workers here resumed =>
    simp only [lanes, workers, List.map_append, List.map_cons, Worker.lane] at same apart
    exact ⟨by simpa [lanes, Worker.lane] using same, by simpa [lanes, Worker.lane] using apart⟩
  | item workers here resumed =>
    simp only [lanes, workers, List.map_append, List.map_cons, Worker.lane] at same apart
    simp only [List.pairwise_append, List.pairwise_cons] at apart
    constructor
    · simp only [lanes, List.map_append, List.map_cons, Worker.lane]
      grind
    · simp only [lanes, List.map_append, List.map_cons, Worker.lane, List.pairwise_append,
        List.pairwise_cons]
      grind
  | group workers here settled spent groups =>
    simp only [lanes, workers, groups, List.map_append, List.map_cons] at same apart
    simp only [List.pairwise_append, List.pairwise_cons] at apart
    constructor
    · simp only [lanes, List.map_append, List.map_cons, Worker.lane]
      simp only [ItemGroup.items] at same apart
      grind
    · simp only [lanes, List.map_append, List.map_cons, Worker.lane, List.pairwise_append,
        List.pairwise_cons]
      simp only [ItemGroup.items] at same apart
      grind
  | finish workers here settled spent groups =>
    simp only [lanes, workers, groups, List.map_append, List.map_cons] at same apart
    simp only [List.pairwise_append, List.pairwise_cons] at apart
    constructor
    · simp only [lanes, List.map_append, List.map_cons, Worker.lane, groups]
      grind
    · simp only [lanes, List.map_append, List.map_cons, Worker.lane, List.pairwise_append,
        List.pairwise_cons, groups]
      grind

theorem Worker.rest_subset_lane (worker : Worker Item Phase) : worker.rest ⊆ worker.lane := by
  cases worker <;> simp [Worker.rest, Worker.lane]

/-- Workers with lanes apart from an item have nothing left of the item's key. -/
private theorem filter_rest [DecidableEq Key] {workers : List (Worker Item Phase)} {item : Item}
    (apart : ∀ lane ∈ workers.map Worker.lane, ∀ other ∈ lane, key other ≠ key item) :
    (workers.flatMap Worker.rest).filter (fun other => key other = key item) = [] := by
  refine List.filter_eq_nil_iff.mpr fun other member => ?_
  obtain ⟨worker, workerMem, itemMem⟩ := List.mem_flatMap.mp member
  simpa using apart _ (List.mem_map_of_mem workerMem) other (Worker.rest_subset_lane worker itemMem)

/-- Under each key, what is started and what remains stand in one order, which no step changes. -/
theorem Advanced.filter [DecidableEq Key] (advanced : pool.Advanced task index outcome after)
    (separated : pool.Separated key) (name : Key) :
    (after.started ++ after.remaining).filter (fun item => key item = name) =
      (pool.started ++ pool.remaining).filter fun item => key item = name := by
  obtain ⟨same, apart⟩ := separated
  cases advanced with
  | phase workers here resumed => simp [remaining, workers]
  | @item left right last item phase rest workers here resumed =>
    simp only [lanes, workers, List.map_append, List.map_cons, List.append_assoc,
      List.pairwise_append, List.cons_append] at apart
    have before : (left.flatMap Worker.rest).filter (fun other => key other = key item) = [] :=
      filter_rest fun lane member other here =>
        apart.2.2 lane member _ List.mem_cons_self other here item (by simp [Worker.lane])
    by_cases asked : key item = name
    · subst asked
      simp [remaining, workers, before]
    · simp [remaining, workers, asked]
  | @group left right worker group waiting workers here settled spent groups =>
    simp only [lanes, workers, groups, List.map_append, List.map_cons] at same apart
    simp only [List.pairwise_append, List.pairwise_cons] at apart
    by_cases asked : key group.first = name
    · subst asked
      have before : (left.flatMap Worker.rest).filter
          (fun other => key other = key group.first) = [] :=
        filter_rest fun lane member other here =>
          apart.2.2 lane (List.mem_append_left _ member) _ List.mem_cons_self other here
            group.first (by simp [ItemGroup.items])
      have behind : (right.flatMap Worker.rest).filter
          (fun other => key other = key group.first) = [] :=
        filter_rest fun lane member other here =>
          apart.2.2 lane (List.mem_append_right _ (List.mem_cons_of_mem _ member)) _
            List.mem_cons_self other here group.first (by simp [ItemGroup.items])
      simp [remaining, workers, groups, spent, before, behind, ItemGroup.items]
    · have others : group.others.filter (fun other => key other = name) = [] := by
        refine List.filter_eq_nil_iff.mpr fun other member => ?_
        have equal := same group.items (by simp) other (List.mem_cons_of_mem _ member)
          group.first List.mem_cons_self
        simpa [equal] using asked
      simp [remaining, workers, groups, spent, ItemGroup.items, asked, others]
  | finish workers here settled spent groups => simp [remaining, workers, groups, spent]

/-- A pool that begins with groups of one key each has separate lanes. -/
theorem separated_start {groups : List (Key × ItemGroup Item)} (filed : KeyedGroups.Filed key groups)
    (count : Nat) : (start (groups.map (·.2)) count : Pool Item Phase).Separated key := by
  have idle : ∀ lane ∈ (List.replicate count (.idle : Worker Item Phase)).map Worker.lane,
      lane = [] := by
    simp [Worker.lane]
  constructor
  · intro lane member first firstMem second secondMem
    rcases List.mem_append.mp member with worker | waiting
    · rw [idle lane worker] at firstMem
      simp at firstMem
    · simp only [start, List.map_map, List.mem_map, Function.comp] at waiting
      obtain ⟨entry, entryMem, rfl⟩ := waiting
      rw [filed.items entry entryMem first firstMem, filed.items entry entryMem second secondMem]
  · refine List.pairwise_append.mpr ⟨?_, ?_, ?_⟩
    · refine List.pairwise_of_forall_mem_list fun lane member other _ first firstMem => ?_
      rw [idle lane member] at firstMem
      simp at firstMem
    · simp only [start, List.map_map, List.pairwise_map]
      have keys := List.pairwise_map.mp filed.keys
      refine keys.imp_of_mem fun {entry other} entryMem otherMem different first firstMem second
        secondMem => ?_
      rwa [filed.items entry entryMem first firstMem, filed.items other otherMem second secondMem]
    · intro lane member other _ first firstMem
      rw [idle lane member] at firstMem
      simp at firstMem

end Keyed
end Pool

/-! ### Runs -/

/-- The runs of a pool: a step names a worker and what happens to its item. -/
def system (task : PoolTask Item Phase Outcome) (groups : List (ItemGroup Item)) (count : Nat) :
    TransitionSystem (Pool Item Phase) (Nat × Outcome) where
  initial pool := pool = .start groups count
  step pool action := pool.advance task action.1 action.2

section Runs
variable {task : PoolTask Item Phase Outcome} {count : Nat}

theorem separated_of_run {Key : Type*} {key : Item → Key} {groups : List (Key × ItemGroup Item)}
    (filed : KeyedGroups.Filed key groups) {history : List (Pool Item Phase × (Nat × Outcome))}
    {pool : Pool Item Phase} (run : (system task (groups.map (·.2)) count).Run history pool) :
    pool.Separated key := by
  refine run.invariant ?_ ?_
  · rintro _ rfl
    exact Pool.separated_start filed count
  · intro before action after separated taken
    exact (Pool.advanced_of_advance taken).separated separated

/-- In every state of a run, what is started and what remains of a key are its items in order. -/
theorem filter_of_run {Key : Type*} [DecidableEq Key] {key : Item → Key}
    {groups : List (Key × ItemGroup Item)} (filed : KeyedGroups.Filed key groups)
    {history : List (Pool Item Phase × (Nat × Outcome))} {pool : Pool Item Phase}
    (run : (system task (groups.map (·.2)) count).Run history pool) (name : Key) :
    (pool.started ++ pool.remaining).filter (fun item => key item = name) =
      (KeyedGroups.allItems groups).filter fun item => key item = name := by
  induction run with
  | start initial =>
    obtain rfl := initial
    simp [Pool.start, Pool.remaining, KeyedGroups.allItems, Worker.rest, List.flatMap_map,
      List.flatMap_replicate]
  | step run taken ih =>
    rw [← ih]
    exact (Pool.advanced_of_advance taken).filter (separated_of_run filed run) name

/-- Two workers never have items of one key. -/
theorem Pool.Separated.workers_apart {Key : Type*} {key : Item → Key} {pool : Pool Item Phase}
    (separated : pool.Separated key) {index other : Nat} {item item' : Item}
    {phase phase' : Phase} {rest rest' : List Item} (different : index ≠ other)
    (busy : pool.workers[index]? = some (.busy item phase rest))
    (busy' : pool.workers[other]? = some (.busy item' phase' rest')) : key item ≠ key item' := by
  have apart := (List.pairwise_append.mp separated.apart).1
  have lane : (pool.workers.map Worker.lane)[index]? = some (item :: rest) := by
    simp [busy, Worker.lane]
  have lane' : (pool.workers.map Worker.lane)[other]? = some (item' :: rest') := by
    simp [busy', Worker.lane]
  rw [List.pairwise_iff_getElem] at apart
  obtain ⟨inside, same⟩ := List.getElem?_eq_some_iff.mp lane
  obtain ⟨inside', same'⟩ := List.getElem?_eq_some_iff.mp lane'
  rcases Nat.lt_or_gt_of_ne different with before | behind
  · exact apart _ _ inside inside' before item (by simp [same]) item' (by simp [same'])
  · exact (apart _ _ inside' inside behind item' (by simp [same']) item (by simp [same])).symm

/-! ### One worker can do it all -/

/-- In every phase some outcome brings the item closer to its end. -/
def CanFinish (task : PoolTask Item Phase Outcome) : Prop :=
  ∃ depth : Phase → Nat, ∀ phase, ∃ outcome next, task.resume phase outcome = some next ∧
    ∀ later ∈ next, depth later < depth phase

section Completion
variable {groups : List (ItemGroup Item)}

/-- The pool can get from some run on to a state where nothing remains. -/
def Completes (task : PoolTask Item Phase Outcome) (groups : List (ItemGroup Item)) (count : Nat)
    (pool : Pool Item Phase) : Prop :=
  ∀ history, (system task groups count).Run history pool →
    ∃ later final, (system task groups count).Run later final ∧ final.remaining = []

private theorem completes_of_step {pool after : Pool Item Phase} (index : Nat) (outcome : Outcome)
    (taken : pool.advance task index outcome = some after)
    (completes : Completes task groups count after) : Completes task groups count pool := by
  intro history run
  have step : (system task groups count).step pool (index, outcome) = some after := taken
  exact completes _ (run.step step)

variable {others : List (Worker Item Phase)}

/-- Once the first worker's item is settled, it proceeds. -/
private theorem completes_busy (finish : CanFinish task) {waiting : List (ItemGroup Item)}
    {started : List Item} (item : Item) (phase : Phase) (rest : List Item)
    (proceeds : Completes task groups count
      (Pool.proceed task ⟨waiting, .idle :: others, started⟩ 0 rest)) :
    Completes task groups count ⟨waiting, .busy item phase rest :: others, started⟩ := by
  obtain ⟨depth, closer⟩ := finish
  induction bound : depth phase using Nat.strongRecOn generalizing phase with
  | ind size ih =>
    obtain ⟨outcome, next, resumed, smaller⟩ := closer phase
    cases next with
    | none =>
      refine completes_of_step 0 outcome ?_ proceeds
      simp only [Pool.advance, List.getElem?_cons_zero, resumed, Option.map_some]
      cases rest <;> cases waiting <;> rfl
    | some next =>
      have taken : Pool.advance task ⟨waiting, .busy item phase rest :: others, started⟩ 0
          outcome = some ⟨waiting, .busy item next rest :: others, started⟩ := by
        simp [Pool.advance, resumed]
      exact completes_of_step 0 outcome taken (ih _ (bound ▸ smaller next rfl) next rfl)

private theorem completes_rest (finish : CanFinish task) {waiting : List (ItemGroup Item)}
    (proceeds : ∀ started, Completes task groups count
      (Pool.proceed task ⟨waiting, .idle :: others, started⟩ 0 []))
    (rest : List Item) (started : List Item) :
    Completes task groups count
      (Pool.proceed task ⟨waiting, .idle :: others, started⟩ 0 rest) := by
  induction rest generalizing started with
  | nil => exact proceeds started
  | cons item rest ih => exact completes_busy finish item _ rest (ih _)

/-- One worker among others that never begin gets through all groups. -/
private theorem completes_groups (finish : CanFinish task) (spare : Nat)
    (waiting : List (ItemGroup Item)) (started : List Item) :
    Completes task groups count
      (Pool.proceed task ⟨waiting, .idle :: List.replicate spare .idle, started⟩ 0 []) := by
  induction waiting generalizing started with
  | nil =>
    intro history run
    refine ⟨history, _, run, ?_⟩
    simp [Pool.proceed, Pool.remaining, Worker.rest, List.flatMap_replicate]
  | cons group waiting ih =>
    exact completes_busy finish _ _ _ (completes_rest finish ih _ _)

/-- With a worker, some run starts every item. -/
theorem exists_complete_run (finish : CanFinish task) (groups : List (ItemGroup Item))
    (staffed : groups ≠ [] → 0 < count) :
    ∃ history pool, (system task groups count).Run history pool ∧ pool.remaining = [] := by
  cases groups with
  | nil =>
    refine ⟨[], _, .start rfl, ?_⟩
    simp [Pool.start, Pool.remaining, Worker.rest, List.flatMap_replicate]
  | cons group waiting =>
    obtain ⟨spare, rfl⟩ := Nat.exists_eq_add_one.mpr (staffed (by simp))
    obtain ⟨outcome, -⟩ := finish.choose_spec (task.start group.first)
    exact completes_of_step 0 outcome rfl (completes_groups finish spare (group :: waiting) []) []
      (.start rfl)

end Completion
end Runs
end WorkerPool
