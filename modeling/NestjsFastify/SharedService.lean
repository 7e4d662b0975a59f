import Mathlib.Logic.Function.Basic
import NestjsFastify.TransitionSystem

/-! # Processes over a shared service

A process is a sequence of requests to a shared service: its phase says which request it waits
for, and the response takes it to its next phase.  Any number of processes run interleaved, may
stop for good between two requests, and see one another only through the service.  An outline
annotates the shared state and every phase with an assertion; it holds in every run once each
request keeps the assertions of the process that makes it and of every other process.
-/

/-- A service, the programs that use it, and what else may change its state.  The oracle of a
request decides what the request leaves open, such as whether it fails. -/
structure SharedService (Shared Phase Request Response Oracle External : Type*) where
  initial : Shared → Prop
  admits : Shared → Phase → Bool
  request : Phase → Option Request
  resume : Phase → Response → Phase
  perform : Shared → Request → Oracle → Option (Shared × Response)
  external : Shared → External → Option Shared

namespace SharedService

/-- A process is not started yet, in some phase, or stopped for good before its end. -/
inductive Process (Phase : Type*) where
  | absent
  | running (phase : Phase)
  | crashed
  deriving DecidableEq, Repr

structure World (Shared Phase : Type*) where
  shared : Shared
  processes : Nat → Process Phase

inductive Event (Phase Oracle External : Type*) where
  | spawn (process : Nat) (phase : Phase)
  | advance (process : Nat) (oracle : Oracle)
  | crash (process : Nat)
  | external (event : External)
  deriving DecidableEq, Repr

variable {Shared Phase Request Response Oracle External : Type*}
  (service : SharedService Shared Phase Request Response Oracle External)

def step (world : World Shared Phase) : Event Phase Oracle External → Option (World Shared Phase)
  | .spawn process phase =>
      match world.processes process with
      | .absent =>
          if service.admits world.shared phase then
            some { world with
              processes := Function.update world.processes process (.running phase) }
          else none
      | _ => none
  | .advance process oracle =>
      match world.processes process with
      | .running phase =>
          (service.request phase).bind fun request =>
            (service.perform world.shared request oracle).map fun (shared, response) =>
              { shared
                processes := Function.update world.processes process
                  (.running (service.resume phase response)) }
      | _ => none
  | .crash process =>
      match world.processes process with
      | .running phase =>
          if (service.request phase).isSome then
            some { world with processes := Function.update world.processes process .crashed }
          else none
      | _ => none
  | .external event =>
      (service.external world.shared event).map fun shared => { world with shared }

/-- No process is running when the service starts. -/
def start (shared : Shared) : World Shared Phase := ⟨shared, fun _ => .absent⟩

def system : TransitionSystem (World Shared Phase) (Event Phase Oracle External) where
  initial world := service.initial world.shared ∧ ∀ process, world.processes process = .absent
  step := service.step

/-- No process has a request left to make. -/
def Quiet (world : World Shared Phase) : Prop :=
  ∀ process phase, world.processes process = .running phase → service.request phase = none

/-- What a step can do, once and for all. -/
inductive Step (world : World Shared Phase) :
    Event Phase Oracle External → World Shared Phase → Prop
  | spawn {process : Nat} {phase : Phase} (absent : world.processes process = .absent)
      (admitted : service.admits world.shared phase = true) :
      Step world (.spawn process phase)
        ⟨world.shared, Function.update world.processes process (.running phase)⟩
  | advance {process : Nat} {oracle : Oracle} {phase : Phase} {request : Request}
      {shared : Shared} {response : Response}
      (running : world.processes process = .running phase)
      (requested : service.request phase = some request)
      (performed : service.perform world.shared request oracle = some (shared, response)) :
      Step world (.advance process oracle)
        ⟨shared, Function.update world.processes process
          (.running (service.resume phase response))⟩
  | crash {process : Nat} {phase : Phase} (running : world.processes process = .running phase) :
      Step world (.crash process)
        ⟨world.shared, Function.update world.processes process .crashed⟩
  | external {event : External} {shared : Shared}
      (changed : service.external world.shared event = some shared) :
      Step world (.external event) ⟨shared, world.processes⟩

variable {service}

theorem step_cases {world after : World Shared Phase} {event : Event Phase Oracle External}
    (taken : service.system.step world event = some after) :
    service.Step world event after := by
  change service.step world event = some after at taken
  cases event with
  | spawn process phase =>
    cases absent : world.processes process with
    | absent =>
      simp only [step, absent] at taken
      split at taken
      · obtain rfl := Option.some.inj taken
        exact .spawn absent ‹_›
      · simp at taken
    | running _ => simp [step, absent] at taken
    | crashed => simp [step, absent] at taken
  | advance process oracle =>
    cases running : world.processes process with
    | running phase =>
      simp only [step, running, Option.bind_eq_some_iff, Option.map_eq_some_iff] at taken
      obtain ⟨request, requested, ⟨shared, response⟩, performed, rfl⟩ := taken
      exact .advance running requested performed
    | absent => simp [step, running] at taken
    | crashed => simp [step, running] at taken
  | crash process =>
    cases running : world.processes process with
    | running phase =>
      simp only [step, running] at taken
      split at taken
      · obtain rfl := Option.some.inj taken
        exact .crash running
      · simp at taken
    | absent => simp [step, running] at taken
    | crashed => simp [step, running] at taken
  | external event =>
    simp only [step, Option.map_eq_some_iff] at taken
    obtain ⟨shared, changed, rfl⟩ := taken
    exact .external changed

/-! ## What the history shows of a process -/

/-- The process got the response to the request, which it made over the shared state. -/
def Answered (service : SharedService Shared Phase Request Response Oracle External)
    (history : List (World Shared Phase × Event Phase Oracle External)) (process : Nat)
    (shared : Shared) (request : Request) (response : Response) : Prop :=
  ∃ world oracle phase after, (world, Event.advance process oracle) ∈ history ∧
    world.shared = shared ∧ world.processes process = .running phase ∧
    service.request phase = some request ∧
    service.perform shared request oracle = some (after, response)

theorem Answered.cons {history : List (World Shared Phase × Event Phase Oracle External)}
    {process : Nat} {shared : Shared} {request : Request} {response : Response}
    (answered : service.Answered history process shared request response)
    (entry : World Shared Phase × Event Phase Oracle External) :
    service.Answered (entry :: history) process shared request response := by
  obtain ⟨world, oracle, phase, after, member, rest⟩ := answered
  exact ⟨world, oracle, phase, after, List.mem_cons_of_mem _ member, rest⟩

theorem update_running {processes : Nat → Process Phase} {process id : Nat}
    {value : Process Phase} {phase : Phase}
    (running : Function.update processes process value id = .running phase) :
    (id = process ∧ value = .running phase) ∨ (id ≠ process ∧ processes id = .running phase) := by
  by_cases same : id = process
  · subst same
    exact .inl ⟨rfl, by simpa using running⟩
  · exact .inr ⟨same, by simpa [same] using running⟩

/-- What the history shows of every process, by induction on the requests that it has made. -/
theorem traced
    (trace : List (World Shared Phase × Event Phase Oracle External) → Nat → Phase → Prop)
    (spawned : ∀ history world process phase, service.system.Run history world →
      service.admits world.shared phase = true →
      trace ((world, .spawn process phase) :: history) process phase)
    (resumed : ∀ history world process oracle phase request after response,
      service.system.Run history world → world.processes process = .running phase →
      service.request phase = some request →
      service.perform world.shared request oracle = some (after, response) →
      trace history process phase →
      trace ((world, .advance process oracle) :: history) process (service.resume phase response))
    (kept : ∀ entry history process phase, trace history process phase →
      trace (entry :: history) process phase)
    {history : List (World Shared Phase × Event Phase Oracle External)}
    {world : World Shared Phase} (run : service.system.Run history world) {process : Nat}
    {phase : Phase} (running : world.processes process = .running phase) :
    trace history process phase := by
  induction run generalizing process phase with
  | start initial =>
    rw [initial.2] at running
    simp at running
  | step run taken ih =>
    cases step_cases taken with
    | spawn absent admitted =>
      rcases update_running running with ⟨rfl, same⟩ | ⟨-, old⟩
      · exact Process.running.inj same ▸ spawned _ _ _ _ run admitted
      · exact kept _ _ _ _ (ih old)
    | advance was requested performed =>
      rcases update_running running with ⟨rfl, same⟩ | ⟨-, old⟩
      · exact Process.running.inj same ▸
          resumed _ _ _ _ _ _ _ _ run was requested performed (ih was)
      · exact kept _ _ _ _ (ih old)
    | crash was =>
      rcases update_running running with ⟨-, same⟩ | ⟨-, old⟩
      · simp at same
      · exact kept _ _ _ _ (ih old)
    | external changed => exact kept _ _ _ _ (ih running)

/-- What holds of a process and the world around it, by induction on the run: it holds when the
process starts and after each of its requests, and every step keeps it. -/
theorem held
    (fact : List (World Shared Phase × Event Phase Oracle External) → World Shared Phase → Phase →
      Prop)
    (spawned : ∀ history world process phase, service.system.Run history world →
      service.admits world.shared phase = true →
      fact ((world, .spawn process phase) :: history)
        ⟨world.shared, Function.update world.processes process (.running phase)⟩ phase)
    (resumed : ∀ history world process oracle phase request after response,
      service.system.Run history world → world.processes process = .running phase →
      service.request phase = some request →
      service.perform world.shared request oracle = some (after, response) →
      fact ((world, .advance process oracle) :: history)
        ⟨after, Function.update world.processes process
          (.running (service.resume phase response))⟩ (service.resume phase response))
    (kept : ∀ history before event after phase, service.system.Run history before →
      service.system.step before event = some after → fact history before phase →
      fact ((before, event) :: history) after phase)
    {history : List (World Shared Phase × Event Phase Oracle External)}
    {world : World Shared Phase} (run : service.system.Run history world) {process : Nat}
    {phase : Phase} (running : world.processes process = .running phase) :
    fact history world phase := by
  induction run generalizing process phase with
  | start initial =>
    rw [initial.2] at running
    cases running
  | step run taken ih =>
    have stays := fun {id : Nat} {phase : Phase} old =>
      kept _ _ _ _ phase run taken (@ih id phase old)
    cases step_cases taken with
    | spawn absent admitted =>
      rcases update_running running with ⟨rfl, same⟩ | ⟨-, old⟩
      · exact Process.running.inj same ▸ spawned _ _ _ _ run admitted
      · exact stays old
    | advance was requested performed =>
      rcases update_running running with ⟨rfl, same⟩ | ⟨-, old⟩
      · exact Process.running.inj same ▸ resumed _ _ _ _ _ _ _ _ run was requested performed
      · exact stays old
    | crash was =>
      rcases update_running running with ⟨-, same⟩ | ⟨-, old⟩
      · cases same
      · exact stays old
    | external changed => exact stays running

/-- The process has no request left to make. -/
def idle (service : SharedService Shared Phase Request Response Oracle External)
    (world : World Shared Phase) (process : Nat) : Bool :=
  match world.processes process with
  | .running phase => (service.request phase).isNone
  | _ => true

/-- The process that an event starts. -/
def Event.spawned : Event Phase Oracle External → Option Nat
  | .spawn process _ => some process
  | _ => none

/-- A process that runs has been started. -/
theorem spawned_of_run {history : List (World Shared Phase × Event Phase Oracle External)}
    {world : World Shared Phase} (run : service.system.Run history world) {process : Nat}
    {phase : Phase} (running : world.processes process = .running phase) :
    ∃ entry ∈ history, entry.2.spawned = some process :=
  traced (fun history process _ => ∃ entry ∈ history, entry.2.spawned = some process)
    (fun _ _ _ _ _ _ => ⟨_, List.mem_cons_self, rfl⟩)
    (fun _ _ _ _ _ _ _ _ _ _ _ _ ⟨entry, member, same⟩ =>
      ⟨entry, List.mem_cons_of_mem _ member, same⟩)
    (fun _ _ _ _ ⟨entry, member, same⟩ => ⟨entry, List.mem_cons_of_mem _ member, same⟩) run running

/-- Nothing is in flight once all processes that were started are idle. -/
theorem quiet_of_run {history : List (World Shared Phase × Event Phase Oracle External)}
    {world : World Shared Phase} (run : service.system.Run history world)
    (idle : ∀ event ∈ history.map (·.2), ∀ process ∈ event.spawned,
      service.idle world process = true) : service.Quiet world := by
  intro process phase running
  obtain ⟨entry, member, same⟩ := spawned_of_run run running
  have rest := idle entry.2 (List.mem_map_of_mem member) process same
  simpa [SharedService.idle, running] using rest

/-! ## Requests that may fail -/

/-- A request is carried out, or it fails without or with its effect. -/
inductive Course where
  | done
  | refused
  | lost
  deriving DecidableEq, Repr

/-- The course of a request and the clock of the process that makes it. -/
structure ClockedCourse where
  course : Course
  now : Int
  deriving DecidableEq, Repr

/-- What becomes of the shared state and of the answer. -/
def Course.apply (course : Course) (shared : Shared) (failed : Response)
    (executed : Shared × Response) : Shared × Response :=
  match course with
  | .done => executed
  | .refused => (shared, failed)
  | .lost => (executed.1, failed)

section
variable {course : Course} {shared after : Shared} {failed response : Response}
  {executed : Shared × Response}

/-- A request is carried out, or the process learns that it has failed. -/
theorem Course.apply_cases (applied : course.apply shared failed executed = (after, response)) :
    course ≠ .refused ∧ executed = (after, response) ∨ response = failed := by
  cases course with
  | done => exact .inl ⟨Course.noConfusion, applied⟩
  | refused | lost => exact .inr (Prod.mk.inj applied).2.symm

/-- A request that is not refused has its effect. -/
theorem Course.apply_state (applied : course.apply shared failed executed = (after, response)) :
    after = shared ∨ course ≠ .refused ∧ after = executed.1 := by
  cases course with
  | refused => exact .inl (Prod.mk.inj applied).1.symm
  | done => exact .inr ⟨Course.noConfusion, (congrArg Prod.fst applied).symm⟩
  | lost => exact .inr ⟨Course.noConfusion, (Prod.mk.inj applied).1.symm⟩

end

/-! ## Outlines -/

/-- Conditions on the requests of a run: on the request alone, and on a request made while
another process is in a given phase. -/
structure Discipline (Shared Phase Oracle : Type*) where
  permits : Shared → Phase → Oracle → Prop
  beside : Shared → Phase → Phase → Prop

/-- The discipline that permits every request. -/
def Discipline.none : Discipline Shared Phase Oracle := ⟨fun _ _ _ => True, fun _ _ _ => True⟩

/-- The event follows the discipline. -/
def Discipline.Follows (discipline : Discipline Shared Phase Oracle)
    (world : World Shared Phase) : Event Phase Oracle External → Prop
  | .advance process oracle => ∀ phase, world.processes process = .running phase →
      discipline.permits world.shared phase oracle ∧
        ∀ other phase', other ≠ process → world.processes other = .running phase' →
          discipline.beside world.shared phase phase'
  | _ => True

/-- Assertions on the shared state, on each phase, and on each pair of processes. -/
structure Outline (Shared Phase : Type*) where
  invariant : Shared → Prop
  assertion : Shared → Phase → Prop
  apart : Phase → Phase → Prop

/-- The outline that asserts nothing. -/
def Outline.trivial : Outline Shared Phase := ⟨fun _ => True, fun _ _ => True, fun _ _ => True⟩

/-- Two outlines at once. -/
def Outline.and (first second : Outline Shared Phase) : Outline Shared Phase where
  invariant shared := first.invariant shared ∧ second.invariant shared
  assertion shared phase := first.assertion shared phase ∧ second.assertion shared phase
  apart phase other := first.apart phase other ∧ second.apart phase other

/-- All assertions of the outline hold in the world. -/
structure Outline.Holds (outline : Outline Shared Phase) (world : World Shared Phase) : Prop where
  invariant : outline.invariant world.shared
  assertion : ∀ process phase, world.processes process = .running phase →
    outline.assertion world.shared phase
  apart : ∀ process other phase phase', process ≠ other →
    world.processes process = .running phase → world.processes other = .running phase' →
    outline.apart phase phase'

theorem Outline.Holds.and {first second : Outline Shared Phase} {world : World Shared Phase}
    (firstHolds : first.Holds world) (secondHolds : second.Holds world) :
    (first.and second).Holds world where
  invariant := ⟨firstHolds.invariant, secondHolds.invariant⟩
  assertion process phase running :=
    ⟨firstHolds.assertion process phase running, secondHolds.assertion process phase running⟩
  apart process other phase phase' different running running' :=
    ⟨firstHolds.apart process other phase phase' different running running',
      secondHolds.apart process other phase phase' different running running'⟩

/-- Every request keeps the assertions of all processes, where `known` already holds. -/
structure Outline.Sound (service : SharedService Shared Phase Request Response Oracle External)
    (known : Outline Shared Phase) (discipline : Discipline Shared Phase Oracle)
    (outline : Outline Shared Phase) : Prop where
  initial : ∀ shared, service.initial shared → outline.invariant shared
  symmetric : ∀ phase other, outline.apart phase other → outline.apart other phase
  spawned : ∀ shared phase, known.invariant shared → outline.invariant shared →
    service.admits shared phase = true →
    outline.assertion shared phase ∧
      ∀ other, known.assertion shared other → outline.assertion shared other →
        outline.apart phase other
  performed : ∀ shared phase request oracle after response,
    known.invariant shared → known.assertion shared phase → known.invariant after →
    known.assertion after (service.resume phase response) →
    outline.invariant shared → outline.assertion shared phase →
    service.request phase = some request →
    service.perform shared request oracle = some (after, response) →
    discipline.permits shared phase oracle →
    outline.invariant after ∧ outline.assertion after (service.resume phase response)
  undisturbed : ∀ shared phase request oracle after response other,
    known.invariant shared → known.assertion shared phase → known.assertion shared other →
    known.apart phase other → known.assertion after other →
    outline.invariant shared → outline.assertion shared phase →
    outline.assertion shared other → outline.apart phase other →
    service.request phase = some request →
    service.perform shared request oracle = some (after, response) →
    discipline.permits shared phase oracle → discipline.beside shared phase other →
    outline.assertion after other ∧ outline.apart (service.resume phase response) other
  external : ∀ shared event after, known.invariant shared → outline.invariant shared →
    service.external shared event = some after →
    outline.invariant after ∧
      ∀ phase, known.assertion shared phase → outline.assertion shared phase →
        outline.assertion after phase

section
variable {known outline : Outline Shared Phase} {discipline : Discipline Shared Phase Oracle}

theorem Outline.Sound.step (sound : Outline.Sound service known discipline outline)
    {world after : World Shared Phase} {event : Event Phase Oracle External}
    (knownBefore : known.Holds world) (knownAfter : known.Holds after)
    (holds : outline.Holds world) (follows : discipline.Follows world event)
    (taken : service.system.step world event = some after) : outline.Holds after := by
  cases step_cases taken with
  | @spawn process phase absent admitted =>
    obtain ⟨own, others⟩ := sound.spawned _ _ knownBefore.invariant holds.invariant admitted
    refine ⟨holds.invariant, fun id phase' running => ?_, fun id id' phase₁ phase₂ different
      running₁ running₂ => ?_⟩
    · rcases update_running running with ⟨-, same⟩ | ⟨-, old⟩
      · exact Process.running.inj same ▸ own
      · exact holds.assertion _ _ old
    · have apartFrom : ∀ id' phase', world.processes id' = .running phase' →
          outline.apart phase phase' := fun id' phase' old =>
        others phase' (knownBefore.assertion _ _ old) (holds.assertion _ _ old)
      rcases update_running running₁ with ⟨here, same⟩ | ⟨-, old₁⟩ <;>
        rcases update_running running₂ with ⟨here', same'⟩ | ⟨-, old₂⟩
      · exact absurd (here.trans here'.symm) different
      · exact Process.running.inj same ▸ apartFrom _ _ old₂
      · exact Process.running.inj same' ▸ sound.symmetric _ _ (apartFrom _ _ old₁)
      · exact holds.apart _ _ _ _ different old₁ old₂
  | @advance process oracle phase request shared response running requested performed =>
    obtain ⟨permitted, beside⟩ := follows phase running
    have ownKnown := knownBefore.assertion _ _ running
    have own := holds.assertion _ _ running
    have resumedKnown : known.assertion shared (service.resume phase response) :=
      knownAfter.assertion process _ (by simp)
    obtain ⟨invariant, resumed⟩ := sound.performed _ _ _ _ _ _ knownBefore.invariant ownKnown
      knownAfter.invariant resumedKnown holds.invariant own requested performed permitted
    have others : ∀ id phase', id ≠ process → world.processes id = .running phase' →
        outline.assertion shared phase' ∧
          outline.apart (service.resume phase response) phase' := fun id phase' different old =>
      sound.undisturbed _ _ _ _ _ _ _ knownBefore.invariant ownKnown
        (knownBefore.assertion _ _ old)
        (knownBefore.apart _ _ _ _ different.symm running old)
        (knownAfter.assertion id _ (by simpa [different] using old))
        holds.invariant own (holds.assertion _ _ old)
        (holds.apart _ _ _ _ different.symm running old) requested performed permitted
        (beside id phase' different old)
    refine ⟨invariant, fun id phase' running' => ?_, fun id id' phase₁ phase₂ different
      running₁ running₂ => ?_⟩
    · rcases update_running running' with ⟨-, same⟩ | ⟨other, old⟩
      · exact Process.running.inj same ▸ resumed
      · exact (others _ _ other old).1
    · rcases update_running running₁ with ⟨here, same⟩ | ⟨other₁, old₁⟩ <;>
        rcases update_running running₂ with ⟨here', same'⟩ | ⟨other₂, old₂⟩
      · exact absurd (here.trans here'.symm) different
      · exact Process.running.inj same ▸ (others _ _ other₂ old₂).2
      · exact Process.running.inj same' ▸ sound.symmetric _ _ (others _ _ other₁ old₁).2
      · exact holds.apart _ _ _ _ different old₁ old₂
  | @crash process phase running =>
    have still : ∀ id phase', Function.update world.processes process .crashed id =
        .running phase' → world.processes id = .running phase' := fun id phase' running' => by
      rcases update_running running' with ⟨-, same⟩ | ⟨-, old⟩
      · simp at same
      · exact old
    exact ⟨holds.invariant, fun id phase' running' => holds.assertion _ _ (still _ _ running'),
      fun id id' phase₁ phase₂ different running₁ running₂ =>
        holds.apart _ _ _ _ different (still _ _ running₁) (still _ _ running₂)⟩
  | @external event shared changed =>
    obtain ⟨invariant, others⟩ := sound.external _ _ _ knownBefore.invariant holds.invariant
      changed
    exact ⟨invariant, fun id phase' running =>
      others _ (knownBefore.assertion _ _ running) (holds.assertion _ _ running), holds.apart⟩

/-- A sound outline holds in every state of a run that follows the discipline. -/
theorem Outline.Sound.holds (sound : Outline.Sound service known discipline outline)
    (knownHolds : ∀ world, service.system.Reachable world → known.Holds world)
    {history : List (World Shared Phase × Event Phase Oracle External)}
    {world : World Shared Phase} (run : service.system.Run history world)
    (follows : TransitionSystem.Guarded discipline.Follows history) : outline.Holds world := by
  induction run with
  | @start world initial =>
    refine ⟨sound.initial _ initial.1, fun process phase running => ?_,
      fun process other phase phase' _ running => ?_⟩ <;>
    · rw [initial.2] at running
      simp at running
  | step run taken ih =>
    exact sound.step (knownHolds _ ⟨_, run⟩) (knownHolds _ ⟨_, run.step taken⟩)
      (ih fun entry member => follows entry (List.mem_cons_of_mem _ member))
      (follows _ List.mem_cons_self) taken

/-- A sound outline without a discipline holds in every reachable state. -/
theorem Outline.Sound.reachable (sound : Outline.Sound service known .none outline)
    (knownHolds : ∀ world, service.system.Reachable world → known.Holds world)
    {world : World Shared Phase} (reachable : service.system.Reachable world) :
    outline.Holds world := by
  obtain ⟨history, run⟩ := reachable
  refine sound.holds knownHolds run fun entry _ => ?_
  cases entry.2 <;> simp [Discipline.Follows, Discipline.none]

theorem Outline.trivial_holds (world : World Shared Phase) :
    Outline.trivial.Holds world :=
  ⟨True.intro, fun _ _ _ => True.intro, fun _ _ _ _ _ _ _ => True.intro⟩

end

end SharedService
