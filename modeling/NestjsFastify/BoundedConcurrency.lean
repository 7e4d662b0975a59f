import Mathlib.Algebra.GroupWithZero.Nat
import Mathlib.Data.List.Range
import NestjsFastify.TransitionSystem

/-! # Bounded concurrency

A limiter runs at most so many tasks at a time.  A slot that becomes free is taken for the call that
has waited longest when it is released, and the task itself is started later, when its call resumes.
-/
namespace NestjsFastify.BoundedConcurrency

/-! ## The limiter -/

/-- How a task ends; it may also throw before it returns a promise. -/
inductive Outcome (Value Failure : Type*) where
  | resolved (value : Value)
  | rejected (failure : Failure)
  | thrown (failure : Failure)
  deriving DecidableEq, Repr

/-- What becomes of the promise of `run`. -/
def Outcome.result {Value Failure : Type*} : Outcome Value Failure → Except Failure Value
  | resolved value => .ok value
  | rejected failure | thrown failure => .error failure

/-- Where a call of `run` is.  A `granted` one has its slot and is about to resume, and a `settled`
one is about to release it. -/
inductive Call (Value Failure : Type*) where
  | waiting
  | granted
  | running
  | settled (outcome : Outcome Value Failure)
  | done (outcome : Outcome Value Failure)
  deriving DecidableEq, Repr

/-- The limiter, its calls in the order in which they were made, those of them that are about to
resume, and those whose task was started, in that order. -/
structure Limiter (Value Failure : Type*) where
  active : Int := 0
  queue : List Nat := []
  calls : List (Call Value Failure) := []
  resumptions : List Nat := []
  started : List Nat := []
  deriving DecidableEq, Repr

inductive LimiterAction (Value Failure : Type*) where
  | run
  | resume
  | settle (call : Nat) (outcome : Outcome Value Failure)
  | release (call : Nat)
  deriving DecidableEq, Repr

section
variable {Value Failure : Type*}

/-- The `constructor` -/
def construct (maxConcurrent : Nat) : Except String (Limiter Value Failure) :=
  if maxConcurrent < 1 then .error "maxConcurrent must be a positive integer" else .ok {}

/-- `run`, up to its first `await` -/
def Limiter.acquire (limiter : Limiter Value Failure) (maxConcurrent : Nat) :
    Limiter Value Failure :=
  let call := limiter.calls.length
  if limiter.active < maxConcurrent then
    { limiter with
      active := limiter.active + 1
      calls := limiter.calls ++ [.granted]
      resumptions := limiter.resumptions ++ [call] }
  else
    { limiter with
      calls := limiter.calls ++ [.waiting]
      queue := limiter.queue ++ [call] }

/-- `release`, in the `finally` of a call: the next one in the queue gets the slot. -/
def Limiter.release (limiter : Limiter Value Failure) : Limiter Value Failure :=
  let limiter := { limiter with active := limiter.active - 1 }
  match limiter.queue with
  | [] => limiter
  | next :: queue =>
      { limiter with
        active := limiter.active + 1
        queue
        calls := limiter.calls.set next .granted
        resumptions := limiter.resumptions ++ [next] }

def limiterStep (maxConcurrent : Nat) (limiter : Limiter Value Failure) :
    LimiterAction Value Failure → Option (Limiter Value Failure)
  | .run => some (limiter.acquire maxConcurrent)
  -- promises that are resolved resume in the order in which they were resolved
  | .resume =>
      match limiter.resumptions with
      | [] => none
      | call :: resumptions =>
          some { limiter with
            calls := limiter.calls.set call .running
            resumptions
            started := limiter.started ++ [call] }
  | .settle call outcome =>
      match limiter.calls[call]? with
      | some .running => some { limiter with calls := limiter.calls.set call (.settled outcome) }
      | _ => none
  | .release call =>
      match limiter.calls[call]? with
      | some (.settled outcome) =>
          some (Limiter.release { limiter with calls := limiter.calls.set call (.done outcome) })
      | _ => none

def limiterSystem (maxConcurrent : Nat) :
    TransitionSystem (Limiter Value Failure) (LimiterAction Value Failure) where
  initial limiter := construct maxConcurrent = .ok limiter
  step := limiterStep maxConcurrent

/-! ## What is to hold -/

def Call.isRunning : Call Value Failure → Bool
  | running => true
  | _ => false

/-- The call has a slot. -/
def Call.holdsSlot : Call Value Failure → Bool
  | granted | running | settled _ => true
  | waiting | done _ => false

/-- The outcome of the task. -/
def Call.outcome? : Call Value Failure → Option (Outcome Value Failure)
  | settled outcome | done outcome => some outcome
  | waiting | granted | running => none

/-- What the promise of the call was settled with. -/
def Call.result? : Call Value Failure → Option (Except Failure Value)
  | done outcome => some outcome.result
  | waiting | granted | running | settled _ => none

/-- The task of the call was started. -/
def Call.isStarted : Call Value Failure → Bool
  | running | settled _ | done _ => true
  | waiting | granted => false

def Call.isDone : Call Value Failure → Bool
  | done _ => true
  | _ => false

def Call.isWaiting : Call Value Failure → Bool
  | waiting => true
  | _ => false

/-- The steps that the tasks and the calls have still to take. -/
def Call.remaining : Call Value Failure → Nat
  | waiting => 4
  | granted => 3
  | running => 2
  | settled _ => 1
  | done _ => 0

def Limiter.remaining (limiter : Limiter Value Failure) : Nat :=
  (limiter.calls.map Call.remaining).sum

/-- The outcome with which the task of a call ended. -/
def outcomeOf (history : List (Limiter Value Failure × LimiterAction Value Failure)) (call : Nat)
    (outcome : Outcome Value Failure) : Prop :=
  ∃ entry ∈ history, entry.2 = .settle call outcome

/-- The laws of a limiter along a run. -/
structure LimiterLaws (maxConcurrent : Nat)
    (history : List (Limiter Value Failure × LimiterAction Value Failure))
    (limiter : Limiter Value Failure) : Prop where
  bounded : limiter.calls.countP Call.isRunning ≤ maxConcurrent
  inOrder : ∃ count ≤ limiter.calls.length, limiter.started = List.range count ∧ ∀ call state,
    limiter.calls[call]? = some state → (state.isStarted = true ↔ call < count)
  waits : (∃ call ∈ limiter.calls, call.isWaiting = true) →
    limiter.calls.countP Call.holdsSlot = maxConcurrent
  outcomes : ∀ call state result, limiter.calls[call]? = some state →
    state.result? = some result → ∃ outcome, outcomeOf history call outcome ∧
      outcome.result = result
  onceSettled : ∀ call first second, outcomeOf history call first →
    outcomeOf history call second → first = second
  drained : (∀ call ∈ limiter.calls, call.isDone = true) → limiter.active = 0 ∧ limiter.queue = []
  lively : (∃ call ∈ limiter.calls, call.isDone = false) →
    (∀ call ∈ limiter.calls, call.isRunning = false) →
      ∃ action after, limiterStep maxConcurrent limiter action = some after ∧ action ≠ .run
  advances : ∀ action after, limiterStep maxConcurrent limiter action = some after →
    action ≠ .run → after.remaining < limiter.remaining

/-! ## The invariant -/

/-- Of the calls, those that were made first have started, the next ones resume, and the last ones
wait.  The slots are taken by the calls that hold one, and all of them while a call waits. -/
structure Shape (maxConcurrent : Nat) (limiter : Limiter Value Failure)
    (started granted waiting : Nat) : Prop where
  length : limiter.calls.length = started + granted + waiting
  starts : limiter.started = List.range started
  resumptions : limiter.resumptions = List.range' started granted
  queue : limiter.queue = List.range' (started + granted) waiting
  phases : ∀ (call : Nat) (state : Call Value Failure), limiter.calls[call]? = some state →
    (state.isStarted = true ↔ call < started) ∧
      (state.isWaiting = true ↔ started + granted ≤ call)
  active : limiter.active = limiter.calls.countP Call.holdsSlot
  bounded : limiter.active ≤ maxConcurrent
  full : 0 < waiting → limiter.active = maxConcurrent

def Shaped (maxConcurrent : Nat) (limiter : Limiter Value Failure) : Prop :=
  ∃ started granted waiting, Shape maxConcurrent limiter started granted waiting

variable {maxConcurrent : Nat} {limiter after : Limiter Value Failure}
  {started granted waiting call : Nat} {state new : Call Value Failure}

/-- What becomes of a count when one of the calls changes. -/
theorem countP_set_call (holds : Call Value Failure → Bool)
    (found : limiter.calls[call]? = some state) :
    (limiter.calls.set call new).countP holds + (if holds state then 1 else 0) =
      limiter.calls.countP holds + if holds new then 1 else 0 := by
  obtain ⟨bound, same⟩ := List.getElem?_eq_some_iff.mp found
  rw [List.countP_set bound, same]
  by_cases held : holds state = true
  · have positive : 0 < limiter.calls.countP holds :=
      List.countP_pos_iff.mpr ⟨state, same ▸ List.getElem_mem bound, held⟩
    simp only [if_pos held]
    omega
  · simp only [if_neg held]
    omega

theorem getElem?_set_call (found : limiter.calls[call]? = some state) (other : Nat) :
    (limiter.calls.set call new)[other]? =
      if call = other then some new else limiter.calls[other]? := by
  obtain ⟨bound, -⟩ := List.getElem?_eq_some_iff.mp found
  simp only [List.getElem?_set, bound, if_true]

theorem getElem?_append_call {calls : List (Call Value Failure)} {other : Call Value Failure}
    (found : (calls ++ [new])[call]? = some other) :
    calls[call]? = some other ∨ call = calls.length ∧ other = new := by
  rcases Nat.lt_or_ge call calls.length with bound | bound
  · rw [List.getElem?_append_left bound] at found
    exact .inl found
  · rw [List.getElem?_append_right bound] at found
    obtain ⟨within, same⟩ := List.getElem?_eq_some_iff.mp found
    simp only [List.length_singleton] at within
    refine .inr ⟨by omega, ?_⟩
    simpa using same.symm

namespace Shape

theorem lt_of_some (shape : Shape maxConcurrent limiter started granted waiting)
    (found : limiter.calls[call]? = some state) : call < started + granted + waiting := by
  obtain ⟨bound, -⟩ := List.getElem?_eq_some_iff.mp found
  exact shape.length ▸ bound

/-- A call is made: it gets a slot if one is free, and nobody waits then. -/
theorem acquire (shape : Shape maxConcurrent limiter started granted waiting) :
    ∃ granted waiting, Shape maxConcurrent (limiter.acquire maxConcurrent) started granted
      waiting := by
  unfold Limiter.acquire
  split_ifs with free
  · have nobody : waiting = 0 := by
      by_contra some
      have full := shape.full (Nat.pos_of_ne_zero some)
      omega
    subst nobody
    refine ⟨granted + 1, 0, ?_⟩
    exact {
      length := by simp [shape.length]; omega
      starts := shape.starts
      resumptions := by rw [shape.resumptions, shape.length, List.range'_concat]; simp
      queue := shape.queue.trans (by simp)
      phases := fun call state found => by
        rcases getElem?_append_call found with earlier | ⟨rfl, rfl⟩
        · have bound := shape.lt_of_some earlier
          obtain ⟨starts, waits⟩ := shape.phases call state earlier
          exact ⟨starts, waits.trans (by omega)⟩
        · simp [Call.isStarted, Call.isWaiting, shape.length]
      active := by simp [shape.active, List.countP_append, Call.holdsSlot]
      bounded := by simp only; omega
      full := by simp }
  · refine ⟨granted, waiting + 1, ?_⟩
    exact {
      length := by simp [shape.length]; omega
      starts := shape.starts
      resumptions := shape.resumptions
      queue := by rw [shape.queue, shape.length, List.range'_concat]; simp
      phases := fun call state found => by
        rcases getElem?_append_call found with earlier | ⟨rfl, rfl⟩
        · exact shape.phases call state earlier
        · simp [Call.isStarted, Call.isWaiting, shape.length]; omega
      active := by simp [shape.active, List.countP_append, Call.holdsSlot]
      bounded := shape.bounded
      full := fun _ => by have := shape.bounded; simp only; omega }

/-- The call that is the first to resume is the first that has not started. -/
theorem next_resumption (shape : Shape maxConcurrent limiter started granted waiting)
    {rest : List Nat} (first : limiter.resumptions = call :: rest) :
    call = started ∧ ∃ fewer, granted = fewer + 1 ∧ rest = List.range' (started + 1) fewer ∧
      limiter.calls[started]? = some .granted := by
  cases granted with
  | zero => simp [shape.resumptions] at first
  | succ fewer =>
    rw [shape.resumptions, List.range'_succ] at first
    obtain ⟨rfl, rfl⟩ := List.cons.inj first
    refine ⟨rfl, fewer, rfl, rfl, ?_⟩
    have bound : started < limiter.calls.length := by rw [shape.length]; omega
    have found := List.getElem?_eq_getElem bound
    rw [found]
    obtain ⟨starts, waits⟩ := shape.phases started _ found
    cases state : limiter.calls[started] with
    | granted => rfl
    | waiting =>
      have := waits.mp (by rw [state]; rfl)
      omega
    | running | settled | done =>
      have := starts.mp (by rw [state]; rfl)
      omega

theorem resume (shape : Shape maxConcurrent limiter started granted waiting) {rest : List Nat}
    (first : limiter.resumptions = call :: rest) :
    ∃ fewer, Shape maxConcurrent { limiter with
      calls := limiter.calls.set call .running
      resumptions := rest
      started := limiter.started ++ [call] } (started + 1) fewer waiting := by
  obtain ⟨rfl, fewer, rfl, rfl, found⟩ := shape.next_resumption first
  refine ⟨fewer, ?_⟩
  have slots := @countP_set_call _ _ limiter call .granted .running Call.holdsSlot found
  exact {
    length := by simp [shape.length]; omega
    starts := by rw [shape.starts, List.range_succ]
    resumptions := rfl
    queue := by rw [shape.queue]; congr 1; omega
    phases := fun other state otherFound => by
      rw [getElem?_set_call found] at otherFound
      split_ifs at otherFound with here
      · obtain rfl := Option.some.inj otherFound
        simp [Call.isStarted, Call.isWaiting, here]; omega
      · obtain ⟨starts, waits⟩ := shape.phases other state otherFound
        exact ⟨starts.trans (by omega), waits.trans (by omega)⟩
    active := by
      have same := shape.active
      simp only [Call.holdsSlot, if_true] at slots ⊢
      omega
    bounded := shape.bounded
    full := shape.full }

/-- The task of a call that has started goes on, with the slot. -/
theorem goOn (shape : Shape maxConcurrent limiter started granted waiting)
    (found : limiter.calls[call]? = some state) (before : state.isStarted = true)
    (later : new.isStarted = true) (slot : state.holdsSlot = new.holdsSlot) :
    Shape maxConcurrent { limiter with calls := limiter.calls.set call new } started granted
      waiting where
  length := by simp [shape.length]
  starts := shape.starts
  resumptions := shape.resumptions
  queue := shape.queue
  phases other otherState otherFound := by
    have early := (shape.phases call state found).1.mp before
    rw [getElem?_set_call found] at otherFound
    split_ifs at otherFound with here
    · obtain rfl := Option.some.inj otherFound
      subst here
      refine ⟨by simp [later, early], ?_⟩
      cases new <;> simp_all [Call.isStarted, Call.isWaiting] <;> omega
    · exact shape.phases other otherState otherFound
  active := by
    have slots := @countP_set_call _ _ limiter call state new Call.holdsSlot found
    have same := shape.active
    rw [slot] at slots
    simp only
    omega
  bounded := shape.bounded
  full := shape.full

/-- The call that is the first in the queue is the first that waits. -/
theorem next_waiting (shape : Shape maxConcurrent limiter started granted waiting)
    {rest : List Nat} (first : limiter.queue = call :: rest) :
    call = started + granted ∧ ∃ fewer, waiting = fewer + 1 ∧
      rest = List.range' (started + (granted + 1)) fewer ∧
        limiter.calls[call]? = some .waiting := by
  cases waiting with
  | zero => simp [shape.queue] at first
  | succ fewer =>
    rw [shape.queue, List.range'_succ, Nat.add_assoc] at first
    obtain ⟨rfl, rfl⟩ := List.cons.inj first
    refine ⟨rfl, fewer, rfl, rfl, ?_⟩
    have bound : started + granted < limiter.calls.length := by rw [shape.length]; omega
    have found := List.getElem?_eq_getElem bound
    have waits := (shape.phases _ _ found).2.mpr (Nat.le_refl _)
    rw [found]
    cases state : limiter.calls[started + granted] <;> simp_all [Call.isWaiting]

/-- A slot is released: the call that has waited longest gets it. -/
theorem release (shape : Shape maxConcurrent limiter started granted waiting)
    {outcome : Outcome Value Failure} (found : limiter.calls[call]? = some (.settled outcome)) :
    ∃ granted waiting, Shape maxConcurrent
      (Limiter.release { limiter with calls := limiter.calls.set call (.done outcome) }) started
      granted waiting := by
  have early : call < started := (shape.phases call _ found).1.mp rfl
  have slots := @countP_set_call _ _ limiter call (.settled outcome) (.done outcome)
    Call.holdsSlot found
  simp only [Call.holdsSlot, if_true, Bool.false_eq_true, if_false] at slots
  have same := shape.active
  have phases : ∀ (other : Nat) (state : Call Value Failure),
      (limiter.calls.set call (.done outcome))[other]? = some state →
        (state.isStarted = true ↔ other < started) ∧
          (state.isWaiting = true ↔ started + granted ≤ other) := by
    intro other state otherFound
    rw [getElem?_set_call found] at otherFound
    split_ifs at otherFound with here
    · obtain rfl := Option.some.inj otherFound
      simp [Call.isStarted, Call.isWaiting]; omega
    · exact shape.phases other state otherFound
  unfold Limiter.release
  cases queue : limiter.queue with
  | nil =>
    have nobody : waiting = 0 := by simpa [queue] using shape.queue
    subst nobody
    refine ⟨granted, 0, ?_⟩
    exact {
      length := by simp [shape.length]
      starts := shape.starts
      resumptions := shape.resumptions
      queue := by simp
      phases
      active := by simp only; omega
      bounded := by have := shape.bounded; simp only; omega
      full := by simp }
  | cons first rest =>
    obtain ⟨rfl, fewer, rfl, rfl, waits⟩ := shape.next_waiting queue
    have next : (limiter.calls.set call (.done outcome))[started + granted]? = some .waiting := by
      rwa [getElem?_set_call found, if_neg (by omega)]
    have slotsNext := @countP_set_call _ _
      { limiter with calls := limiter.calls.set call (.done outcome) } (started + granted) .waiting
      .granted Call.holdsSlot next
    simp only [Call.holdsSlot, if_true, Bool.false_eq_true, if_false] at slotsNext
    refine ⟨granted + 1, fewer, ?_⟩
    exact {
      length := by simp [shape.length]; omega
      starts := shape.starts
      resumptions := by rw [shape.resumptions, List.range'_concat]; simp
      queue := rfl
      phases := fun other state otherFound => by
        rw [@getElem?_set_call _ _
          { limiter with calls := limiter.calls.set call (.done outcome) } _ _ _ next] at otherFound
        split_ifs at otherFound with here
        · obtain rfl := Option.some.inj otherFound
          simp [Call.isStarted, Call.isWaiting]; omega
        · obtain ⟨starts, waits⟩ := phases other state otherFound
          exact ⟨starts, waits.trans (by omega)⟩
      active := by simp only; omega
      bounded := by have := shape.bounded; simp only; omega
      full := fun _ => by have := shape.full (Nat.succ_pos fewer); simp only; omega }

theorem step (shape : Shape maxConcurrent limiter started granted waiting)
    {action : LimiterAction Value Failure}
    (taken : limiterStep maxConcurrent limiter action = some after) :
    Shaped maxConcurrent after := by
  cases action with
  | run =>
    obtain rfl := Option.some.inj taken
    exact ⟨started, shape.acquire⟩
  | resume =>
    simp only [limiterStep] at taken
    split at taken
    · simp at taken
    · rename_i call rest first
      obtain rfl := Option.some.inj taken
      obtain ⟨fewer, shape⟩ := shape.resume first
      exact ⟨started + 1, fewer, waiting, shape⟩
  | settle call outcome =>
    simp only [limiterStep] at taken
    split at taken
    · rename_i found
      obtain rfl := Option.some.inj taken
      exact ⟨started, granted, waiting, shape.goOn found rfl rfl rfl⟩
    · simp at taken
  | release call =>
    simp only [limiterStep] at taken
    split at taken
    · rename_i found
      obtain rfl := Option.some.inj taken
      exact ⟨started, shape.release found⟩
    · simp at taken

end Shape

/-- A limiter is new when it is constructed, and has a slot then. -/
theorem construct_eq_ok
    (constructed : construct maxConcurrent = .ok limiter) : 0 < maxConcurrent ∧ limiter = {} := by
  unfold construct at constructed
  split_ifs at constructed with positive
  exact ⟨by omega, (Except.ok.inj constructed).symm⟩

theorem positive_of_run {history : List (Limiter Value Failure × LimiterAction Value Failure)}
    (run : (limiterSystem maxConcurrent).Run history limiter) : 0 < maxConcurrent := by
  induction run with
  | start initial => exact (construct_eq_ok initial).1
  | step run taken ih => exact ih

theorem shaped_of_run {history : List (Limiter Value Failure × LimiterAction Value Failure)}
    (run : (limiterSystem maxConcurrent).Run history limiter) : Shaped maxConcurrent limiter := by
  refine run.invariant (fun limiter initial => ?_) fun before action after shaped taken => ?_
  · obtain ⟨-, rfl⟩ := construct_eq_ok initial
    exact ⟨0, 0, 0, rfl, rfl, rfl, rfl, by simp, rfl, Int.natCast_nonneg _, by simp⟩
  · obtain ⟨started, granted, waiting, shape⟩ := shaped
    exact shape.step taken

/-! ## Outcomes -/

/-- The outcome that a call has. -/
def Limiter.outcomeAt (limiter : Limiter Value Failure) (call : Nat) :
    Option (Outcome Value Failure) :=
  limiter.calls[call]?.bind Call.outcome?

/-- A call that changes without a new outcome leaves all outcomes as they are. -/
theorem outcomeAt_set (found : limiter.calls[call]? = some state)
    (same : new.outcome? = state.outcome?) (other : Nat) :
    (limiter.calls.set call new)[other]?.bind Call.outcome? = limiter.outcomeAt other := by
  rw [getElem?_set_call found, Limiter.outcomeAt]
  split_ifs with here
  · rw [← here, found, Option.bind_some, Option.bind_some, same]
  · rfl

theorem outcomeAt_acquire (other : Nat) :
    (limiter.acquire maxConcurrent).outcomeAt other = limiter.outcomeAt other := by
  have appended : ∀ new : Call Value Failure, new.outcome? = none →
      (limiter.calls ++ [new])[other]?.bind Call.outcome? = limiter.outcomeAt other := by
    intro new fresh
    rw [Limiter.outcomeAt]
    rcases Nat.lt_trichotomy other limiter.calls.length with bound | rfl | bound
    · rw [List.getElem?_append_left bound]
    · simp [fresh]
    · rw [List.getElem?_eq_none (by simp; omega), List.getElem?_eq_none (by omega)]
  unfold Limiter.acquire
  split_ifs
  · exact appended .granted rfl
  · exact appended .waiting rfl

theorem outcomeAt_release (shaped : Shaped maxConcurrent limiter)
    {outcome : Outcome Value Failure} (found : limiter.calls[call]? = some (.settled outcome))
    (other : Nat) :
    (Limiter.release { limiter with calls := limiter.calls.set call (.done outcome) }).outcomeAt
      other = limiter.outcomeAt other := by
  obtain ⟨started, granted, waiting, shape⟩ := shaped
  have early : call < started := (shape.phases call _ found).1.mp rfl
  have released := @outcomeAt_set _ _ limiter call (.settled outcome) (.done outcome) found rfl
  unfold Limiter.release
  cases queue : limiter.queue with
  | nil => exact released other
  | cons first rest =>
    obtain ⟨rfl, -, -, -, waits⟩ := shape.next_waiting queue
    have next : (limiter.calls.set call (.done outcome))[started + granted]? = some .waiting := by
      rwa [getElem?_set_call found, if_neg (by omega)]
    have granted := @outcomeAt_set _ _
      { limiter with calls := limiter.calls.set call (.done outcome) } _ .waiting .granted next rfl
    exact (granted other).trans (released other)

theorem outcomeOf_cons {history : List (Limiter Value Failure × LimiterAction Value Failure)}
    {action : LimiterAction Value Failure} {outcome : Outcome Value Failure} :
    outcomeOf ((limiter, action) :: history) call outcome ↔
      action = .settle call outcome ∨ outcomeOf history call outcome := by
  simp [outcomeOf]

/-- The outcomes that the calls have are those with which their tasks ended. -/
theorem outcomeOf_iff {history : List (Limiter Value Failure × LimiterAction Value Failure)}
    (run : (limiterSystem maxConcurrent).Run history limiter) (call : Nat)
    (outcome : Outcome Value Failure) :
    outcomeOf history call outcome ↔ limiter.outcomeAt call = some outcome := by
  induction run with
  | start initial =>
    obtain ⟨-, rfl⟩ := construct_eq_ok initial
    simp [outcomeOf, Limiter.outcomeAt]
  | @step history before after action run taken ih =>
    rw [outcomeOf_cons, ih]
    cases action with
    | run =>
      obtain rfl := Option.some.inj taken
      simp [outcomeAt_acquire]
    | resume =>
      obtain ⟨started, granted, waiting, shape⟩ := shaped_of_run run
      simp only [limiterSystem, limiterStep] at taken
      split at taken
      · simp at taken
      · rename_i first rest resumes
        obtain rfl := Option.some.inj taken
        obtain ⟨rfl, -, -, -, found⟩ := shape.next_resumption resumes
        have same := @outcomeAt_set _ _ before first .granted .running found rfl call
        simp only [Limiter.outcomeAt] at same ⊢
        simp [same]
    | settle number ended =>
      simp only [limiterSystem, limiterStep] at taken
      split at taken
      · rename_i found
        obtain rfl := Option.some.inj taken
        simp only [Limiter.outcomeAt, getElem?_set_call found, LimiterAction.settle.injEq]
        split_ifs with here
        · subst here
          simp [found, Call.outcome?]
        · simp [here]
      · simp at taken
    | release number =>
      simp only [limiterSystem, limiterStep] at taken
      split at taken
      · rename_i found
        obtain rfl := Option.some.inj taken
        simp [outcomeAt_release (shaped_of_run run) found]
      · simp at taken

/-! ## The laws -/

theorem remaining_set {calls : List (Call Value Failure)} (found : calls[call]? = some state) :
    ((calls.set call new).map Call.remaining).sum + state.remaining =
      (calls.map Call.remaining).sum + new.remaining := by
  induction calls generalizing call with
  | nil => simp at found
  | cons first calls ih =>
    cases call with
    | zero =>
      obtain rfl : first = state := by simpa using found
      simp only [List.set_cons_zero, List.map_cons, List.sum_cons]
      omega
    | succ call =>
      have rest := ih (by simpa using found)
      simp only [List.set_cons_succ, List.map_cons, List.sum_cons]
      omega

/-- Every step but a new call brings the calls closer to their ends. -/
theorem remaining_lt (shaped : Shaped maxConcurrent limiter)
    {action : LimiterAction Value Failure}
    (taken : limiterStep maxConcurrent limiter action = some after) (other : action ≠ .run) :
    after.remaining < limiter.remaining := by
  obtain ⟨started, granted, waiting, shape⟩ := shaped
  cases action with
  | run => exact absurd rfl other
  | resume =>
    simp only [limiterStep] at taken
    split at taken
    · simp at taken
    · rename_i call rest resumes
      obtain rfl := Option.some.inj taken
      obtain ⟨rfl, -, -, -, found⟩ := shape.next_resumption resumes
      have less := @remaining_set _ _ _ _ .running _ found
      simp only [Limiter.remaining, Call.remaining] at less ⊢
      omega
  | settle call outcome =>
    simp only [limiterStep] at taken
    split at taken
    · rename_i found
      obtain rfl := Option.some.inj taken
      have less := @remaining_set _ _ _ _ (.settled outcome) _ found
      simp only [Limiter.remaining, Call.remaining] at less ⊢
      omega
    · simp at taken
  | release call =>
    simp only [limiterStep] at taken
    split at taken
    · rename_i outcome found
      obtain rfl := Option.some.inj taken
      have early : call < started := (shape.phases call _ found).1.mp rfl
      have less := @remaining_set _ _ _ _ (.done outcome) _ found
      unfold Limiter.release
      cases queue : limiter.queue with
      | nil =>
        simp only [Limiter.remaining, Call.remaining] at less ⊢
        omega
      | cons first rest =>
        obtain ⟨rfl, -, -, -, waits⟩ := shape.next_waiting queue
        have next : (limiter.calls.set call (.done outcome))[started + granted]? =
            some .waiting := by
          rwa [getElem?_set_call found, if_neg (by omega)]
        have granted := @remaining_set _ _ _ _ .granted _ next
        simp only [Limiter.remaining, Call.remaining] at less granted ⊢
        omega
    · simp at taken

namespace Shape

/-- A call that has a slot goes on unless its task is running. -/
theorem goesOn (shape : Shape maxConcurrent limiter started granted waiting)
    (found : limiter.calls[call]? = some state) (slot : state.holdsSlot = true)
    (idle : state.isRunning = false) :
    ∃ action after, limiterStep maxConcurrent limiter action = some after ∧ action ≠ .run := by
  cases state with
  | waiting | done => simp [Call.holdsSlot] at slot
  | running => simp [Call.isRunning] at idle
  | settled outcome => exact ⟨.release call, _, by rw [limiterStep, found], by simp⟩
  | granted =>
    obtain ⟨starts, waits⟩ := shape.phases call _ found
    simp only [Call.isStarted, Call.isWaiting, Bool.false_eq_true, false_iff] at starts waits
    obtain ⟨fewer, rfl⟩ : ∃ fewer, granted = fewer + 1 := ⟨granted - 1, by omega⟩
    have resumes := shape.resumptions.trans List.range'_succ
    exact ⟨.resume, _, by rw [limiterStep, resumes], by simp⟩

/-- While a call waits all slots are taken. -/
theorem slots_of_waiting (shape : Shape maxConcurrent limiter started granted waiting)
    (found : limiter.calls[call]? = some state) (waits : state.isWaiting = true) :
    limiter.calls.countP Call.holdsSlot = maxConcurrent := by
  have late := (shape.phases call state found).2.mp waits
  have bound := shape.lt_of_some found
  have full := shape.full (by omega)
  have active := shape.active
  omega

/-- When no task is running, a call that is not done goes on, or one that it waits for. -/
theorem lively (shape : Shape maxConcurrent limiter started granted waiting)
    (positive : 0 < maxConcurrent) (found : limiter.calls[call]? = some state)
    (unfinished : state.isDone = false)
    (idle : ∀ call ∈ limiter.calls, call.isRunning = false) :
    ∃ action after, limiterStep maxConcurrent limiter action = some after ∧ action ≠ .run := by
  by_cases slot : state.holdsSlot = true
  · exact shape.goesOn found slot (idle state (List.mem_of_getElem? found))
  · have waits : state.isWaiting = true := by
      cases state <;> simp_all [Call.holdsSlot, Call.isWaiting, Call.isDone]
    have full := shape.slots_of_waiting found waits
    obtain ⟨other, member, holds⟩ := List.countP_pos_iff.mp (full ▸ positive)
    obtain ⟨number, foundOther⟩ := List.getElem?_of_mem member
    exact shape.goesOn foundOther holds (idle other member)

/-- When every call is done no slot is taken and the queue is empty. -/
theorem drained (shape : Shape maxConcurrent limiter started granted waiting)
    (finished : ∀ call ∈ limiter.calls, call.isDone = true) :
    limiter.active = 0 ∧ limiter.queue = [] := by
  have free : limiter.calls.countP Call.holdsSlot = 0 := by
    refine List.countP_eq_zero.mpr fun call member => ?_
    have done := finished call member
    cases call <;> simp_all [Call.isDone, Call.holdsSlot]
  have nobody : waiting = 0 := by
    by_contra some
    have bound : started + granted < limiter.calls.length := by rw [shape.length]; omega
    have found := List.getElem?_eq_getElem bound
    have waits := (shape.phases _ _ found).2.mpr (Nat.le_refl _)
    have done := finished _ (List.mem_of_getElem? found)
    cases state : limiter.calls[started + granted] <;>
      simp_all [Call.isDone, Call.isWaiting]
  subst nobody
  exact ⟨by rw [shape.active, free]; rfl, shape.queue.trans (by simp)⟩

/-- The running tasks are among the calls that hold slots. -/
theorem running_le (shape : Shape maxConcurrent limiter started granted waiting) :
    limiter.calls.countP Call.isRunning ≤ maxConcurrent := by
  have fewer : limiter.calls.countP Call.isRunning ≤ limiter.calls.countP Call.holdsSlot := by
    refine List.countP_mono_left fun call _ running => ?_
    cases call <;> simp_all [Call.isRunning, Call.holdsSlot]
  have active := shape.active
  have bounded := shape.bounded
  omega

end Shape

/-- The promise of a call is settled with what became of its task. -/
theorem outcome_of_result {result : Except Failure Value} (settled : state.result? = some result) :
    ∃ outcome, state.outcome? = some outcome ∧ outcome.result = result := by
  cases state with
  | done outcome => exact ⟨outcome, rfl, Option.some.inj settled⟩
  | waiting | granted | running | settled => simp [Call.result?] at settled

/-- The limiter keeps its laws, in whatever order calls are made and tasks end. -/
theorem limiterLaws_of_run {history : List (Limiter Value Failure × LimiterAction Value Failure)}
    (run : (limiterSystem maxConcurrent).Run history limiter) :
    LimiterLaws maxConcurrent history limiter := by
  have positive := positive_of_run run
  have shaped := shaped_of_run run
  obtain ⟨started, granted, waiting, shape⟩ := shaped
  exact {
    bounded := shape.running_le
    inOrder := ⟨started, by rw [shape.length]; omega, shape.starts,
      fun call state found => (shape.phases call state found).1⟩
    waits := by
      rintro ⟨call, member, waits⟩
      obtain ⟨number, found⟩ := List.getElem?_of_mem member
      exact shape.slots_of_waiting found waits
    outcomes := by
      intro call state result found settled
      obtain ⟨outcome, has, same⟩ := outcome_of_result settled
      refine ⟨outcome, (outcomeOf_iff run call outcome).mpr ?_, same⟩
      rw [Limiter.outcomeAt, found, Option.bind_some, has]
    onceSettled := by
      intro call first second atFirst atSecond
      rw [outcomeOf_iff run] at atFirst atSecond
      exact Option.some.inj (atFirst.symm.trans atSecond)
    drained := shape.drained
    lively := by
      rintro ⟨call, member, unfinished⟩ idle
      obtain ⟨number, found⟩ := List.getElem?_of_mem member
      exact shape.lively positive found unfinished idle
    advances := fun action after => remaining_lt ⟨_, _, _, shape⟩ }

/-- Two calls share one slot: the second one gets it when the first task throws. -/
theorem limiterLaws_of_queued :
    ∃ (history : List (Limiter Nat String × LimiterAction Nat String))
        (limiter : Limiter Nat String),
      LimiterLaws 1 history limiter ∧ limiter.started = [0, 1] ∧
        limiter.calls.map Call.result? = [some (.error "failed"), some (.ok 7)] := by
  obtain ⟨history, limiter, run, -, -, passed⟩ :=
    @TransitionSystem.run_of_execute _ _ (limiterSystem 1) (fun _ _ => true) (fun _ _ => True)
      (fun _ _ _ => trivial) ({} : Limiter Nat String)
      [.run, .run, .resume, .settle 0 (.thrown "failed"), .release 0, .resume,
        .settle 1 (.resolved 7), .release 1]
      (fun limiter => limiter.started == [0, 1] && decide (limiter.calls =
        [.done (.thrown "failed"), .done (.resolved 7)])) rfl (by decide +kernel)
  rw [Bool.and_eq_true, beq_iff_eq, decide_eq_true_eq] at passed
  exact ⟨history, limiter, limiterLaws_of_run run, passed.1, by rw [passed.2]; rfl⟩

end

end NestjsFastify.BoundedConcurrency
