import Mathlib.Data.List.Basic

/-! # Runs of transition systems

A run is kept with its history, the states it passed and the actions taken in them, most recent
first, so that a property may speak of what happened before.
-/

/-- A partial step function and the states it may start from. -/
structure TransitionSystem (State Action : Type*) where
  initial : State → Prop
  step : State → Action → Option State

namespace TransitionSystem
variable {State Action : Type*} {system : TransitionSystem State Action}

/-- `Run history state`: the system has taken the actions of `history` and is in `state`. -/
inductive Run (system : TransitionSystem State Action) : List (State × Action) → State → Prop
  | start {state : State} (initial : system.initial state) : Run system [] state
  | step {history : List (State × Action)} {before after : State} {action : Action}
      (run : Run system history before) (taken : system.step before action = some after) :
      Run system ((before, action) :: history) after

/-- The states of all runs. -/
def Reachable (system : TransitionSystem State Action) (state : State) : Prop :=
  ∃ history, system.Run history state

theorem Reachable.step {before after : State} {action : Action}
    (reachable : system.Reachable before) (taken : system.step before action = some after) :
    system.Reachable after := by
  obtain ⟨history, run⟩ := reachable
  exact ⟨(before, action) :: history, run.step taken⟩

/-- Every action of the history was taken in a state that allows it. -/
def Guarded (guard : State → Action → Prop) (history : List (State × Action)) : Prop :=
  ∀ entry ∈ history, guard entry.1 entry.2

section
variable {history : List (State × Action)} {state : State}

/-- The invariant rule, for runs all of whose actions meet a guard. -/
theorem Run.guardedInvariant (guard : State → Action → Prop) {invariant : State → Prop}
    (base : ∀ state, system.initial state → invariant state)
    (preserved : ∀ before action after, guard before action → invariant before →
      system.step before action = some after → invariant after)
    (run : system.Run history state) (guarded : Guarded guard history) : invariant state := by
  induction run with
  | start initial => exact base _ initial
  | step run taken ih =>
    have earlier : Guarded guard _ := fun entry member =>
      guarded entry (List.mem_cons_of_mem _ member)
    exact preserved _ _ _ (guarded _ List.mem_cons_self) (ih earlier) taken

/-- The invariant rule. -/
theorem Run.invariant {invariant : State → Prop}
    (base : ∀ state, system.initial state → invariant state)
    (preserved : ∀ before action after, invariant before →
      system.step before action = some after → invariant after)
    (run : system.Run history state) : invariant state :=
  run.guardedInvariant (fun _ _ => True) base
    (fun before action after _ => preserved before action after) fun _ _ => trivial

/-- The part of a run before one of its steps. -/
theorem Run.before {later earlier : List (State × Action)} {before : State} {action : Action}
    (run : system.Run history state) (split : history = later ++ (before, action) :: earlier) :
    system.Run earlier before := by
  induction run generalizing later with
  | start => simp at split
  | step run taken ih =>
    cases later with
    | nil =>
      obtain ⟨entry, rest⟩ := List.cons.inj split
      cases entry
      exact rest ▸ run
    | cons entry later => exact ih (List.cons.inj split).2

/-- What one of the steps brings about and every step from a reachable state keeps holds ever
after. -/
theorem Run.stable_after (property : State → Prop)
    (kept : ∀ before action after, system.Reachable before → property before →
      system.step before action = some after → property after)
    (run : system.Run history state) {entry : State × Action} (member : entry ∈ history)
    (holds : ∀ after, system.step entry.1 entry.2 = some after → property after) :
    property state := by
  induction run with
  | start => simp at member
  | step run taken ih =>
    rcases List.mem_cons.mp member with rfl | earlier
    · exact holds _ taken
    · exact kept _ _ _ ⟨_, run⟩ (ih earlier) taken

/-- The states of a run are reachable. -/
theorem Run.reachable_of_mem (run : system.Run history state) {entry : State × Action}
    (member : entry ∈ history) : system.Reachable entry.1 := by
  obtain ⟨later, earlier, split⟩ := List.append_of_mem member
  exact ⟨earlier, run.before split⟩

/-- What holds in a state of a run and is kept by every step from a reachable state holds ever
after. -/
theorem Run.stable (property : State → Prop)
    (kept : ∀ before action after, system.Reachable before → property before →
      system.step before action = some after → property after)
    (run : system.Run history state) {entry : State × Action} (member : entry ∈ history)
    (holds : property entry.1) : property state :=
  run.stable_after property kept member fun _ taken =>
    kept _ _ _ (run.reachable_of_mem member) holds taken

end

/-- Take a list of actions, the first one first, as long as each passes the check. -/
def execute (system : TransitionSystem State Action) (check : State → Action → Bool)
    (state : State) : List Action → Option State
  | [] => some state
  | action :: actions =>
      if check state action then
        (system.step state action).bind (system.execute check · actions)
      else none

theorem Run.execute {check : State → Action → Bool} {guard : State → Action → Prop}
    (sound : ∀ state action, check state action = true → guard state action)
    {history : List (State × Action)} {state final : State} {actions : List Action}
    (run : system.Run history state) (guarded : Guarded guard history)
    (executed : system.execute check state actions = some final) :
    ∃ later, system.Run later final ∧ Guarded guard later ∧
      later.map (·.2) = actions.reverse ++ history.map (·.2) := by
  induction actions generalizing history state with
  | nil =>
    obtain rfl : state = final := Option.some.inj executed
    exact ⟨history, run, guarded, rfl⟩
  | cons action actions ih =>
    simp only [TransitionSystem.execute] at executed
    split at executed
    · rename_i passes
      obtain ⟨middle, taken, rest⟩ := Option.bind_eq_some_iff.mp executed
      obtain ⟨later, laterRun, laterGuarded, same⟩ := ih (run.step taken)
        (fun entry member => (List.mem_cons.mp member).elim (fun here => here ▸ sound _ _ passes)
          (guarded entry)) rest
      exact ⟨later, laterRun, laterGuarded, by simpa using same⟩
    · simp at executed

/-- A guarded run whose final state passes a test, from executing a list of actions. -/
theorem run_of_execute {check : State → Action → Bool} (guard : State → Action → Prop)
    (sound : ∀ state action, check state action = true → guard state action) {start : State}
    (actions : List Action) (test : State → Bool) (initial : system.initial start)
    (passes : (system.execute check start actions).any test = true) :
    ∃ history state, system.Run history state ∧ Guarded guard history ∧
      history.map (·.2) = actions.reverse ∧ test state = true := by
  obtain ⟨final, executed, passed⟩ := (Option.any_eq_true _ _).mp passes
  obtain ⟨history, run, guarded, same⟩ := (Run.start initial).execute sound
    (fun _ impossible => nomatch impossible) executed
  exact ⟨history, final, run, guarded, by simpa using same, passed⟩

end TransitionSystem
