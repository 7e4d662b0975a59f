import NestjsFastify.MultipartStaging
import NestjsFastify.TransitionSystem

/-! # Slots for uploads

A request that stages files holds one of a limited number of slots.  The slot is given back when the
response finishes or closes, by listeners that are registered when the slot is acquired.
-/
namespace NestjsFastify.UploadSlots
open MultipartStaging (Fault UploadError)

/-! ## Requests and their slots -/

/-- Whether a request was prepared, and what has become of its promise. -/
inductive Preparation where
  | unprepared
  | parsing
  | returned
  | failed (error : UploadError)
  deriving DecidableEq, Repr

/-- A request with its response, and the slot that it acquires: `released`, `timer` and `signal` are
what `acquireRequest` keeps of it. -/
structure Upload where
  isMultipart : Bool
  preparation : Preparation := .unprepared
  finished : Bool := false
  closed : Bool := false
  destroyed : Bool := false
  acquired : Bool := false
  released : Bool := false
  timer : Bool := false
  aborted : Bool := false
  releases : Nat := 0
  deriving DecidableEq, Repr

structure Server where
  activeRequests : Int := 0
  uploads : List Upload := []
  deriving DecidableEq, Repr

/-- The slot is acquired and not yet released. -/
def Upload.holdsSlot (upload : Upload) : Bool := upload.acquired && !upload.released

/-- The response has finished or closed. -/
def Upload.ended (upload : Upload) : Bool := upload.finished || upload.closed

/-- `controller.abort()`: the listener of `prepare` destroys the request while it is parsed. -/
def Upload.abort (upload : Upload) : Upload :=
  { upload with
    aborted := true
    destroyed := upload.destroyed || (upload.preparation = .parsing && !upload.aborted) }

/-- `release` -/
def Upload.release (upload : Upload) : Upload :=
  Upload.abort { upload with released := true, timer := false, releases := upload.releases + 1 }

/-- The slot of the request is acquired, and its parts are read. -/
def Upload.acquire (upload : Upload) : Upload :=
  { upload with preparation := .parsing, acquired := true, timer := true }

inductive SlotAction where
  | arrive (isMultipart : Bool)
  | prepare (request : Nat)
  | parse (request : Nat)
  | settle (request : Nat) (error : Option UploadError)
  | abort (request : Nat)
  | timeout (request : Nat)
  | finish (request : Nat)
  | close (request : Nat)
  deriving DecidableEq, Repr

/-- `signal.throwIfAborted()` throws the reason of the signal, a `DOMException`. -/
def abortError : Fault := { code := none, statusCode := none }

namespace Server

def put (server : Server) (request : Nat) (upload : Upload) : Server :=
  { server with uploads := server.uploads.set request upload }

/-- `acquireRequest`, with its part of `prepare`. -/
def acquireRequest (server : Server) (maximum : Nat) (request : Nat) (upload : Upload) : Server :=
  if maximum ≤ server.activeRequests then
    server.put request { upload with
      preparation := .failed (.http "Upload capacity reached. Retry shortly." 429) }
  else
    put { server with activeRequests := server.activeRequests + 1 } request upload.acquire

/-- `prepareMultipartUploads`: a request is prepared once. -/
def prepare (server : Server) (maximum : Nat) (request : Nat) (upload : Upload) : Server :=
  if upload.preparation ≠ .unprepared then server
  else if upload.isMultipart = false then
    server.put request { upload with
      preparation := .failed (.badRequest "Expected multipart/form-data.") }
  else server.acquireRequest maximum request upload

/-- An event of the response, to which `release` listens once the slot is acquired. -/
def emit (server : Server) (request : Nat) (upload : Upload) : Server :=
  if upload.holdsSlot then
    put { server with activeRequests := server.activeRequests - 1 } request upload.release
  else server.put request upload

/-- The step of an action on its request. -/
def take (server : Server) (maximum : Nat) (upload : Upload) : SlotAction → Option Server
  | .arrive _ => none
  | .prepare request => some (server.prepare maximum request upload)
  | .parse request =>
      if upload.preparation ≠ .parsing then none
      else if upload.aborted then
        some (server.put request { upload with preparation := .failed (.fault abortError) })
      else some server
  | .settle request error =>
      if upload.preparation ≠ .parsing then none
      else some (server.put request { upload with preparation := error.elim .returned .failed })
  | .abort request =>
      if upload.holdsSlot then some (server.put request upload.abort) else some server
  | .timeout request =>
      if upload.timer then some (server.put request { upload.abort with timer := false }) else none
  | .finish request =>
      if upload.finished then none else some (server.emit request { upload with finished := true })
  | .close request =>
      if upload.closed then none else some (server.emit request { upload with closed := true })

end Server

/-- The request of an action, unless it is a new one. -/
def SlotAction.request? : SlotAction → Option Nat
  | arrive _ => none
  | prepare request | parse request | settle request _ | abort request | timeout request
  | finish request | close request => some request

def slotStep (maximum : Nat) (server : Server) (action : SlotAction) : Option Server :=
  match action with
  | .arrive isMultipart => some { server with uploads := server.uploads ++ [{ isMultipart }] }
  | action => do
      let request ← action.request?
      let upload ← server.uploads[request]?
      server.take maximum upload action

def slotSystem (maximum : Nat) : TransitionSystem Server SlotAction where
  initial server := server = {}
  step := slotStep maximum

/-! ## What is to hold -/

/-- The count is that of the slots held, and a slot is released at most once. -/
structure SlotLaws (maximum : Nat) (server : Server) : Prop where
  active : server.activeRequests = server.uploads.countP Upload.holdsSlot
  bounded : 0 ≤ server.activeRequests ∧ server.activeRequests ≤ maximum
  once : ∀ upload ∈ server.uploads, upload.releases ≤ 1

/-- No slot stays held once its response has finished or closed. -/
def NoneLeaked (server : Server) : Prop :=
  ∀ upload ∈ server.uploads, upload.ended = true → upload.holdsSlot = false

/-- The request acquires a slot when it is prepared. -/
def Server.acquires (server : Server) (maximum : Nat) (upload : Upload) : Prop :=
  upload.preparation = .unprepared ∧ upload.isMultipart = true ∧ server.activeRequests < maximum

/-- A request that acquires a slot has a response that has neither finished nor closed. -/
def AcquiresOpen (maximum : Nat) (server : Server) (action : SlotAction) : Prop :=
  ∀ request upload, action = .prepare request → server.uploads[request]? = some upload →
    server.acquires maximum upload → upload.ended = false

/-! ## Steps -/

/-- What is known of each request: its slot is released at most once, and it has none before it is
prepared. -/
structure Upload.Sound (upload : Upload) : Prop where
  releases : upload.releases = if upload.released then 1 else 0
  unprepared : upload.preparation = .unprepared → upload.acquired = false
  released : upload.released = true → upload.acquired = true

/-- What a step can do to its request. -/
inductive Server.Takes (server : Server) (maximum request : Nat) (upload : Upload)
    (action : SlotAction) : Server → Prop where
  | skips : server.Takes maximum request upload action server
  | keeps (new : Upload) (slot : new.holdsSlot = upload.holdsSlot)
      (ended : new.ended = true → upload.ended = true ∨ upload.holdsSlot = false)
      (sound : upload.Sound → new.Sound) :
      server.Takes maximum request upload action (server.put request new)
  | releases (new : Upload) (held : upload.holdsSlot = true) (free : new.holdsSlot = false)
      (sound : upload.Sound → new.Sound) :
      server.Takes maximum request upload action
        (put { server with activeRequests := server.activeRequests - 1 } request new)
  | acquires (prepared : action = .prepare request) (room : server.acquires maximum upload) :
      server.Takes maximum request upload action
        (put { server with activeRequests := server.activeRequests + 1 } request upload.acquire)

section
variable {maximum request : Nat} {upload new : Upload} {server after : Server}
  {action : SlotAction} {history : List (Server × SlotAction)}

@[simp] theorem Upload.holdsSlot_abort : upload.abort.holdsSlot = upload.holdsSlot := rfl

@[simp] theorem Upload.ended_abort : upload.abort.ended = upload.ended := rfl

/-- A change of the preparation, of the timer and of the signal. -/
theorem Upload.Sound.of_eq (sound : upload.Sound) (acquired : new.acquired = upload.acquired)
    (released : new.released = upload.released) (releases : new.releases = upload.releases)
    (prepared : new.preparation = .unprepared → upload.preparation = .unprepared) : new.Sound where
  releases := by rw [releases, released, sound.releases]
  unprepared started := by rw [acquired, sound.unprepared (prepared started)]
  released := by rw [released, acquired]; exact sound.released

/-- The response has ended: a slot that is held is released, once. -/
theorem Server.takes_emit (acquired : new.acquired = upload.acquired)
    (released : new.released = upload.released) (releases : new.releases = upload.releases)
    (prepared : new.preparation = upload.preparation) :
    server.Takes maximum request upload action (server.emit request new) := by
  have slot : new.holdsSlot = upload.holdsSlot := by
    rw [Upload.holdsSlot, Upload.holdsSlot, acquired, released]
  unfold emit
  split_ifs with held
  · refine .releases _ (slot ▸ held) (by simp [Upload.holdsSlot, Upload.release, Upload.abort])
      fun sound => ?_
    simp only [Upload.holdsSlot, Bool.and_eq_true, Bool.not_eq_true'] at held
    have unreleased := sound.releases
    rw [← released, held.2, ← releases] at unreleased
    exact {
      releases := by simp [Upload.release, Upload.abort, unreleased]
      unprepared := fun fresh => by
        have none := sound.unprepared (prepared ▸ fresh)
        rw [← acquired, held.1] at none
        cases none
      released := fun _ => held.1 }
  · refine .keeps new slot (fun _ => .inr ?_) fun sound =>
      sound.of_eq acquired released releases fun fresh => prepared ▸ fresh
    rw [← slot]
    simpa using held

/-- What the step of an action does. -/
theorem Server.takes_of_take (requested : action.request? = some request)
    (taken : server.take maximum upload action = some after) :
    server.Takes maximum request upload action after := by
  cases action with
  | arrive => simp [take] at taken
  | prepare number =>
    obtain rfl := Option.some.inj requested
    obtain rfl := Option.some.inj taken
    unfold prepare acquireRequest
    split_ifs with prepared single full
    · exact .skips
    · exact .keeps _ rfl .inl fun sound => sound.of_eq rfl rfl rfl (by simp)
    · exact .keeps _ rfl .inl fun sound => sound.of_eq rfl rfl rfl (by simp)
    · exact .acquires rfl ⟨not_not.mp prepared, by simpa using single, not_le.mp full⟩
  | parse number =>
    obtain rfl := Option.some.inj requested
    simp only [take] at taken
    split_ifs at taken
    · obtain rfl := Option.some.inj taken
      exact .keeps _ rfl .inl fun sound => sound.of_eq rfl rfl rfl (by simp)
    · obtain rfl := Option.some.inj taken
      exact .skips
  | settle number error =>
    obtain rfl := Option.some.inj requested
    simp only [take] at taken
    split_ifs at taken
    obtain rfl := Option.some.inj taken
    exact .keeps _ rfl .inl fun sound => sound.of_eq rfl rfl rfl (by cases error <;> simp)
  | abort number =>
    obtain rfl := Option.some.inj requested
    simp only [take] at taken
    split_ifs at taken
    · obtain rfl := Option.some.inj taken
      exact .keeps _ rfl .inl fun sound => sound.of_eq rfl rfl rfl id
    · obtain rfl := Option.some.inj taken
      exact .skips
  | timeout number =>
    obtain rfl := Option.some.inj requested
    simp only [take] at taken
    split_ifs at taken
    obtain rfl := Option.some.inj taken
    exact .keeps _ rfl .inl fun sound => sound.of_eq rfl rfl rfl id
  | finish number | close number =>
    obtain rfl := Option.some.inj requested
    simp only [take] at taken
    split_ifs at taken
    obtain rfl := Option.some.inj taken
    exact takes_emit rfl rfl rfl rfl

/-- What a step does. -/
theorem step_cases (taken : slotStep maximum server action = some after) :
    (∃ isMultipart, action = .arrive isMultipart ∧
      after = { server with uploads := server.uploads ++ [{ isMultipart }] }) ∨
    ∃ request upload, server.uploads[request]? = some upload ∧
      server.Takes maximum request upload action after := by
  by_cases arrives : ∃ isMultipart, action = .arrive isMultipart
  · obtain ⟨isMultipart, rfl⟩ := arrives
    exact .inl ⟨isMultipart, rfl, (Option.some.inj taken).symm⟩
  · have stepped : slotStep maximum server action = (do
        let request ← action.request?
        let upload ← server.uploads[request]?
        server.take maximum upload action) := by
      cases action <;> simp_all [slotStep]
    rw [stepped] at taken
    simp only [Option.bind_eq_bind, Option.bind_eq_some_iff] at taken
    obtain ⟨request, requested, upload, found, taken⟩ := taken
    exact .inr ⟨request, upload, found, Server.takes_of_take requested taken⟩

/-- What becomes of the number of slots when one of the requests changes. -/
theorem countP_put (found : server.uploads[request]? = some upload) :
    ((server.put request new).uploads.countP Upload.holdsSlot : Int) +
        (if upload.holdsSlot then 1 else 0) =
      server.uploads.countP Upload.holdsSlot + if new.holdsSlot then 1 else 0 := by
  obtain ⟨bound, same⟩ := List.getElem?_eq_some_iff.mp found
  rw [Server.put, List.countP_set bound, same]
  by_cases held : upload.holdsSlot = true
  · have positive : 0 < server.uploads.countP Upload.holdsSlot :=
      List.countP_pos_iff.mpr ⟨upload, same ▸ List.getElem_mem bound, held⟩
    simp only [if_pos held]
    split_ifs <;> omega
  · simp only [if_neg held]
    split_ifs <;> omega

theorem mem_put {other : Upload} (member : other ∈ (server.put request new).uploads) :
    other ∈ server.uploads ∨ other = new :=
  List.mem_or_eq_of_mem_set member

/-! ## Runs -/

/-- The invariant of the slots. -/
structure Server.Sound (maximum : Nat) (server : Server) : Prop where
  active : server.activeRequests = server.uploads.countP Upload.holdsSlot
  bounded : server.activeRequests ≤ maximum
  uploads : ∀ upload ∈ server.uploads, upload.Sound

theorem Server.Sound.laws (sound : server.Sound maximum) : SlotLaws maximum server where
  active := sound.active
  bounded := ⟨by rw [sound.active]; exact Int.natCast_nonneg _, sound.bounded⟩
  once upload member := by
    rw [(sound.uploads upload member).releases]
    split_ifs <;> omega

/-- A request that is about to acquire a slot has none. -/
theorem Upload.Sound.free (sound : upload.Sound) (room : server.acquires maximum upload) :
    upload.holdsSlot = false := by
  simp [holdsSlot, sound.unprepared room.1]

theorem Upload.Sound.acquire (sound : upload.Sound) : upload.acquire.Sound where
  releases := sound.releases
  unprepared := by simp [Upload.acquire]
  released _ := rfl

/-- The slot is held as soon as it is acquired. -/
theorem Upload.Sound.holdsSlot_acquire (sound : upload.Sound)
    (room : server.acquires maximum upload) : upload.acquire.holdsSlot = true := by
  have none := sound.unprepared room.1
  cases released : upload.released with
  | false => simp [holdsSlot, Upload.acquire, released]
  | true =>
    rw [sound.released released] at none
    cases none

/-- Every step keeps the invariant. -/
theorem Server.Sound.step (sound : server.Sound maximum)
    (taken : slotStep maximum server action = some after) : after.Sound maximum := by
  rcases step_cases taken with ⟨isMultipart, rfl, rfl⟩ | ⟨request, upload, found, takes⟩
  · exact {
      active := by simp [sound.active, List.countP_append, Upload.holdsSlot]
      bounded := sound.bounded
      uploads := List.forall_mem_append.mpr ⟨sound.uploads, List.forall_mem_singleton.mpr
        ⟨rfl, fun _ => rfl, by simp⟩⟩ }
  · have active := sound.active
    have bounded := sound.bounded
    have each := sound.uploads
    have soundUpload := each upload (List.mem_of_getElem? found)
    cases takes with
    | skips => exact sound
    | keeps new slot ended kept =>
      have count := @countP_put _ upload new server found
      rw [slot] at count
      exact {
        active := by simp only [put] at count ⊢; omega
        bounded
        uploads := fun other member => (mem_put member).elim (each other)
          fun here => here ▸ kept soundUpload }
    | releases new held free kept =>
      have count := @countP_put _ upload new server found
      simp only [held, free, if_true, Bool.false_eq_true, if_false] at count
      exact {
        active := by simp only [put] at count ⊢; omega
        bounded := by simp only [put]; omega
        uploads := fun other member => (mem_put member).elim (each other)
          fun here => here ▸ kept soundUpload }
    | acquires prepared room =>
      have count := @countP_put _ upload upload.acquire server found
      simp only [soundUpload.free room, soundUpload.holdsSlot_acquire room, if_true,
        Bool.false_eq_true, if_false] at count
      have few := room.2.2
      exact {
        active := by simp only [put] at count ⊢; omega
        bounded := by simp only [put]; omega
        uploads := fun other member => (mem_put member).elim (each other)
          fun here => here ▸ soundUpload.acquire }

/-- No slot leaks in a step that acquires none for a response that has ended. -/
theorem NoneLeaked.step (none : NoneLeaked server) (guarded : AcquiresOpen maximum server action)
    (taken : slotStep maximum server action = some after) : NoneLeaked after := by
  rcases step_cases taken with ⟨isMultipart, rfl, rfl⟩ | ⟨request, upload, found, takes⟩
  · exact List.forall_mem_append.mpr ⟨none, List.forall_mem_singleton.mpr (fun _ => rfl)⟩
  · have before := none upload (List.mem_of_getElem? found)
    cases takes with
    | skips => exact none
    | keeps new slot ended =>
      rintro other member gone
      rcases mem_put member with present | rfl
      · exact none other present gone
      · exact slot.trans ((ended gone).elim before id)
    | releases new held free =>
      rintro other member gone
      rcases mem_put member with present | rfl
      · exact none other present gone
      · exact free
    | acquires prepared room =>
      rintro other member gone
      rcases mem_put member with present | rfl
      · exact none other present gone
      · have still : upload.ended = false := guarded request upload prepared found room
        exact absurd gone (by simpa [Upload.ended, Upload.acquire] using still)

/-- A slot that is acquired for a response that has ended has leaked. -/
theorem leaked_of_step (sound : server.Sound maximum)
    (taken : slotStep maximum server action = some after)
    (late : ¬AcquiresOpen maximum server action) : ¬NoneLeaked after := by
  simp only [AcquiresOpen, not_forall, Bool.not_eq_false] at late
  obtain ⟨request, upload, rfl, found, room, gone⟩ := late
  have soundUpload := sound.uploads upload (List.mem_of_getElem? found)
  obtain ⟨unprepared, multipart, few⟩ := room
  have stepped : Server.put { server with activeRequests := server.activeRequests + 1 } request
      upload.acquire = after := by
    simp only [slotStep, SlotAction.request?, Option.bind_eq_bind, Option.bind_some, found,
      Server.take, Option.some.injEq] at taken
    rw [← taken, Server.prepare, if_neg (not_not.mpr unprepared), if_neg (by simp [multipart]),
      Server.acquireRequest, if_neg (not_le.mpr few)]
  intro none
  obtain ⟨bound, -⟩ := List.getElem?_eq_some_iff.mp found
  have member : upload.acquire ∈ after.uploads := stepped ▸ List.mem_set bound _
  have free := none _ member gone
  rw [soundUpload.holdsSlot_acquire ⟨unprepared, multipart, few⟩] at free
  cases free

theorem sound_of_run (run : (slotSystem maximum).Run history server) : server.Sound maximum := by
  refine run.invariant (fun server initial => ?_) fun before action after sound taken =>
    sound.step taken
  obtain rfl : server = {} := initial
  exact ⟨rfl, Int.natCast_nonneg _, by simp⟩

/-- In every state of a run the slots are counted and released at most once; and none of them leaks
in any state of it exactly if every one was acquired before its response finished or closed. -/
theorem slots_of_run (run : (slotSystem maximum).Run history server) :
    (∀ passed ∈ server :: history.map Prod.fst, SlotLaws maximum passed) ∧
      ((∀ passed ∈ server :: history.map Prod.fst, NoneLeaked passed) ↔
        TransitionSystem.Guarded (AcquiresOpen maximum) history) := by
  induction run with
  | start initial =>
    obtain rfl : _ = ({} : Server) := initial
    have laws : SlotLaws maximum {} := ⟨rfl, ⟨le_refl _, Int.natCast_nonneg _⟩, by simp⟩
    simp [laws, NoneLeaked, TransitionSystem.Guarded]
  | @step history before after action run taken ih =>
    have sound := sound_of_run run
    refine ⟨List.forall_mem_cons.mpr ⟨(sound.step taken).laws, ih.1⟩, ?_⟩
    rw [List.map_cons, List.forall_mem_cons, ih.2]
    simp only [TransitionSystem.Guarded, List.forall_mem_cons]
    constructor
    · rintro ⟨none, earlier⟩
      refine ⟨?_, earlier⟩
      by_contra late
      exact leaked_of_step sound taken late none
    · rintro ⟨guarded, earlier⟩
      have none := ih.2.mpr earlier before List.mem_cons_self
      exact ⟨none.step guarded taken, earlier⟩

/-! ## A response that is closed before the slot is acquired -/

/-- Two requests in turn with one slot. -/
theorem slots_of_turns :
    ∃ (history : List (Server × SlotAction)) (server : Server),
      (∀ passed ∈ server :: history.map Prod.fst, SlotLaws 1 passed) ∧
        (∀ passed ∈ server :: history.map Prod.fst, NoneLeaked passed) ∧
          server.uploads.map (·.releases) = [1, 1] := by
  obtain ⟨history, server, run, guarded, -, passed⟩ :=
    @TransitionSystem.run_of_execute _ _ (slotSystem 1)
      (fun server action => match action with
        | .prepare request => server.uploads[request]?.all fun upload => !upload.ended
        | _ => true)
      (AcquiresOpen 1) (fun server action passed request upload prepares found _ => by
        subst prepares
        simpa [found] using passed)
      ({} : Server)
      [.arrive true, .prepare 0, .parse 0, .settle 0 none, .finish 0, .close 0,
        .arrive true, .prepare 1, .abort 1, .parse 1, .close 1]
      (fun server => server.uploads.map (·.releases) == [1, 1]) rfl (by decide +kernel)
  rw [beq_iff_eq] at passed
  obtain ⟨laws, leaks⟩ := slots_of_run run
  exact ⟨history, server, laws, leaks.mpr guarded, passed⟩

/-- The client is gone by the time its request acquires the slot, which is never released. -/
theorem closed_keeps_slot :
    ∃ (history : List (Server × SlotAction)) (server : Server),
      (slotSystem 1).Run history server ∧
        history.map Prod.snd = [.prepare 0, .close 0, .arrive true] ∧ ¬NoneLeaked server := by
  obtain ⟨history, server, run, -, actions, passed⟩ :=
    @TransitionSystem.run_of_execute _ _ (slotSystem 1) (fun _ _ => true) (fun _ _ => True)
      (fun _ _ _ => trivial) ({} : Server) [.arrive true, .close 0, .prepare 0]
      (fun server => server.uploads.any fun upload => upload.ended && upload.holdsSlot) rfl
      (by decide +kernel)
  obtain ⟨upload, member, held⟩ := List.any_eq_true.mp passed
  rw [Bool.and_eq_true] at held
  refine ⟨history, server, run, actions, fun none => ?_⟩
  have free := none upload member held.1
  rw [held.2] at free
  cases free

end

end NestjsFastify.UploadSlots
