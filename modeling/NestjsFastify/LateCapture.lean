import Mathlib.Data.List.Basic
import NestjsFastify.TransitionSystem

/-! # Late capture

A request with an idempotency key is answered with an error when its time is up, but its handler
stays subscribed for a second span of the same length, so that a value that comes late can still be
recorded.  Two timers, the notifications of the handler and the teardown of the subscriber share
three flags.
-/
namespace NestjsFastify.LateCapture

/-- What an observable tells its observer. -/
inductive Notification (Value Failure : Type*) where
  | next (value : Value)
  | error (failure : Failure)
  | complete
  deriving DecidableEq, Repr

/-- The timers are kept with the time at which they are due.  `subscribing` says that the call of
`source.subscribe` has not returned, `sourceOpen` that `sub` is not closed, and `closed` that the
subscriber is. -/
structure Capture (Value Failure : Type*) where
  now : Nat := 0
  timedOut : Bool := false
  settled : Bool := false
  timer : Option Nat
  lateTimer : Option Nat := none
  subscribing : Bool := true
  sourceOpen : Bool := true
  closed : Bool := false
  received : List (Notification Value Failure) := []
  lateValues : List Value := []
  deriving DecidableEq, Repr

/-- Time passes, the source emits, `source.subscribe` returns, a timer goes off, or the subscriber
unsubscribes. -/
inductive CaptureAction (Value Failure : Type*) where
  | elapse (milliseconds : Nat)
  | emit (notification : Notification Value Failure)
  | subscribed
  | timeout
  | lateTimeout
  | unsubscribe
  deriving DecidableEq, Repr

namespace Capture
variable {Value Failure : Type*} (timeoutMs : Nat) (timeoutError : Failure)
variable (capture : Capture Value Failure)

/-- The function that `subscribeWithLateCapture` returns. -/
def teardown : Capture Value Failure :=
  { capture with
    timer := none
    lateTimer := none
    sourceOpen := capture.sourceOpen && capture.timedOut }

/-- The subscriber is closed.  It runs the teardown, unless it has not got it yet: then the teardown
runs when it is added. -/
def close : Capture Value Failure :=
  if capture.subscribing then { capture with closed := true }
  else teardown { capture with closed := true }

/-- `subscriber.next`, `subscriber.error` and `subscriber.complete` -/
def deliver (notification : Notification Value Failure) : Capture Value Failure :=
  if capture.closed then capture
  else
    match notification with
    | .next _ => { capture with received := capture.received ++ [notification] }
    | .error _ | .complete =>
        close { capture with received := capture.received ++ [notification] }

/-- The observer that is subscribed to the source. -/
def observe : Notification Value Failure → Capture Value Failure
  | .next value =>
      if capture.timedOut then
        { capture with
          lateTimer := none
          lateValues := capture.lateValues ++ [value]
          sourceOpen := false }
      else deliver { capture with settled := true, timer := none } (.next value)
  | .error failure =>
      if capture.timedOut then { capture with lateTimer := none, sourceOpen := false }
      else deliver { capture with settled := true, timer := none } (.error failure)
  | .complete => if capture.timedOut then capture else deliver capture .complete

/-- A source that has failed or completed is closed, and a closed one is not heard. -/
def notify (notification : Notification Value Failure) : Capture Value Failure :=
  if capture.sourceOpen then
    match notification with
    | .next _ => capture.observe notification
    | .error _ | .complete => { capture.observe notification with sourceOpen := false }
  else capture

/-- The callback of the first timer. -/
def onTimeout : Capture Value Failure :=
  if capture.settled then { capture with timer := none }
  else
    { deliver { capture with timedOut := true, timer := none } (.error timeoutError) with
      lateTimer := some (capture.now + timeoutMs) }

/-- A callback runs when its timer is due and no other code is running. -/
def due (timer : Option Nat) : Prop :=
  capture.subscribing = false ∧ ∃ time ∈ timer, time ≤ capture.now

instance (timer : Option Nat) : Decidable (capture.due timer) :=
  inferInstanceAs (Decidable (_ ∧ ∃ time ∈ timer, _ ≤ _))

def step : CaptureAction Value Failure → Option (Capture Value Failure)
  | .elapse milliseconds => some { capture with now := capture.now + milliseconds }
  | .emit notification => some (capture.notify notification)
  | .subscribed =>
      if capture.subscribing then
        let capture := { capture with subscribing := false }
        some (if capture.closed then capture.teardown else capture)
      else none
  | .timeout =>
      if capture.due capture.timer then some (capture.onTimeout timeoutMs timeoutError) else none
  | .lateTimeout =>
      if capture.due capture.lateTimer then
        some { capture with lateTimer := none, sourceOpen := false }
      else none
  | .unsubscribe => some (if capture.closed then capture else capture.close)

end Capture

section
variable {Value Failure : Type*}

/-- `subscribeWithLateCapture` at some time. -/
def captureSystem (timeoutMs : Nat) (timeoutError : Failure) :
    TransitionSystem (Capture Value Failure) (CaptureAction Value Failure) where
  initial capture := ∃ now, capture = { now, timer := some (now + timeoutMs) }
  step capture := capture.step timeoutMs timeoutError

/-! ### What is to hold -/

/-- What the source has emitted before the timeout while the subscriber was listening. -/
def heard : List (Capture Value Failure × CaptureAction Value Failure) →
    List (Notification Value Failure)
  | [] => []
  | (capture, .emit notification) :: history =>
      if capture.timedOut || capture.closed then heard history
      else heard history ++ [notification]
  | _ :: history => heard history

/-- The late window has ended. -/
def windowEnded (history : List (Capture Value Failure × CaptureAction Value Failure)) : Bool :=
  history.any fun entry => match entry.2 with
    | .lateTimeout => true
    | _ => false

/-- What the source has emitted in the late window. -/
def heardLate : List (Capture Value Failure × CaptureAction Value Failure) →
    List (Notification Value Failure)
  | [] => []
  | (capture, .emit notification) :: history =>
      if capture.timedOut && !windowEnded history then heardLate history ++ [notification]
      else heardLate history
  | _ :: history => heardLate history

/-- The value to be recorded: the first thing that the source emits in the late window. -/
def lateOutcome : List (Notification Value Failure) → List Value
  | .next value :: _ => [value]
  | _ => []

/-- The subscriber has unsubscribed before the timeout. -/
def Unsubscribed (history : List (Capture Value Failure × CaptureAction Value Failure)) : Prop :=
  ∃ entry ∈ history, entry.1.timedOut = false ∧ match entry.2 with
    | .unsubscribe => True
    | _ => False

/-- The laws of a late capture along a run. -/
structure OneOutcome (timeoutError : Failure)
    (history : List (Capture Value Failure × CaptureAction Value Failure))
    (capture : Capture Value Failure) : Prop where
  mirrors : capture.timedOut = false → capture.received = heard history
  timeout : capture.timedOut = true → heard history = [] ∧ capture.received = [.error timeoutError]
  late : capture.lateValues = lateOutcome (heardLate history)
  early : capture.timedOut = false → capture.lateValues = []
  waits : capture.timedOut = false → heard history = [] → ¬ Unsubscribed history →
    capture.timer.isSome = true
  watches : capture.timedOut = true → heardLate history = [] → windowEnded history = false →
    capture.lateTimer.isSome = true
  unsubscribes : Unsubscribed history → capture.subscribing = false → capture.sourceOpen = false
  ends : windowEnded history = true → capture.sourceOpen = false

/-! ### The invariant -/

variable {timeoutMs : Nat} {timeoutError : Failure}
variable {history : List (Capture Value Failure × CaptureAction Value Failure)}
variable {capture after : Capture Value Failure}

/-- What is known before the timeout. -/
structure Early (history : List (Capture Value Failure × CaptureAction Value Failure))
    (capture : Capture Value Failure) : Prop where
  running : capture.timedOut = false
  received : capture.received = heard history
  notLate : heardLate history = []
  notEnded : windowEnded history = false
  noLateTimer : capture.lateTimer = none
  noLateValues : capture.lateValues = []

/-- What is known after the timeout. -/
structure Late (timeoutError : Failure)
    (history : List (Capture Value Failure × CaptureAction Value Failure))
    (capture : Capture Value Failure) : Prop where
  timedOut : capture.timedOut = true
  silent : heard history = []
  received : capture.received = [.error timeoutError]
  closed : capture.closed = true
  subscribed : capture.subscribing = false
  stayed : ¬ Unsubscribed history
  values : capture.lateValues = lateOutcome (heardLate history)

/-- The phases of a capture.  A subscriber that is closed while `source.subscribe` runs gets its
teardown afterwards. -/
inductive Phase (timeoutError : Failure)
    (history : List (Capture Value Failure × CaptureAction Value Failure))
    (capture : Capture Value Failure) : Prop
  | waiting (early : Early history capture) (listening : capture.closed = false)
      (sourceOpen : capture.sourceOpen = true) (stays : ¬ Unsubscribed history)
      (unsettled : capture.settled = false) (silent : heard history = [])
      (armed : capture.timer.isSome = true)
  | mirroring (early : Early history capture) (listening : capture.closed = false)
      (sourceOpen : capture.sourceOpen = true) (stays : ¬ Unsubscribed history)
      (heardSome : heard history ≠ []) (disarmed : capture.timer = none)
  | closing (early : Early history capture) (closed : capture.closed = true)
      (subscribing : capture.subscribing = true)
      (closedBy : heard history ≠ [] ∨ Unsubscribed history)
  | done (early : Early history capture) (closed : capture.closed = true)
      (subscribed : capture.subscribing = false)
      (closedBy : heard history ≠ [] ∨ Unsubscribed history)
      (disarmed : capture.timer = none) (sourceClosed : capture.sourceOpen = false)
  | window (late : Late timeoutError history capture) (sourceOpen : capture.sourceOpen = true)
      (disarmed : capture.timer = none) (notLate : heardLate history = [])
      (notEnded : windowEnded history = false) (armed : capture.lateTimer.isSome = true)
  | past (late : Late timeoutError history capture) (sourceClosed : capture.sourceOpen = false)
      (disarmed : capture.timer = none)
      (ended : windowEnded history = true ∨ heardLate history ≠ [])

theorem unsubscribed_cons {action : CaptureAction Value Failure} :
    Unsubscribed ((capture, action) :: history) ↔
      (capture.timedOut = false ∧ action = .unsubscribe) ∨ Unsubscribed history := by
  cases action <;> simp [Unsubscribed]

/-- Only an emission adds to what is heard. -/
theorem heard_cons {notification : Notification Value Failure} :
    heard ((capture, .emit notification) :: history) =
      if capture.timedOut || capture.closed then heard history
      else heard history ++ [notification] := rfl

theorem heardLate_cons {notification : Notification Value Failure} :
    heardLate ((capture, .emit notification) :: history) =
      if capture.timedOut && !windowEnded history then heardLate history ++ [notification]
      else heardLate history := rfl

theorem windowEnded_emit {notification : Notification Value Failure} :
    windowEnded ((capture, .emit notification) :: history) = windowEnded history := by
  simp [windowEnded]

theorem unsubscribed_emit {notification : Notification Value Failure} :
    Unsubscribed ((capture, .emit notification) :: history) ↔ Unsubscribed history := by
  simp [unsubscribed_cons]

/-- A value is passed on, and ends the wait. -/
theorem notify_next (running : capture.timedOut = false) (listening : capture.closed = false)
    (sourceOpen : capture.sourceOpen = true) (value : Value) :
    capture.notify (.next value) = { capture with
      settled := true, timer := none, received := capture.received ++ [.next value] } := by
  simp [Capture.notify, Capture.observe, Capture.deliver, running, listening, sourceOpen]

/-- A failure, and the completion, are passed on and close the subscriber. -/
theorem notify_last (running : capture.timedOut = false) (listening : capture.closed = false)
    (sourceOpen : capture.sourceOpen = true) {notification : Notification Value Failure}
    (last : ∀ value, notification ≠ .next value) :
    (capture.notify notification).received = capture.received ++ [notification] ∧
    (capture.notify notification).timedOut = false ∧
    (capture.notify notification).closed = true ∧
    (capture.notify notification).sourceOpen = false ∧
    (capture.notify notification).subscribing = capture.subscribing ∧
    (capture.notify notification).lateValues = capture.lateValues ∧
    (capture.lateTimer = none → (capture.notify notification).lateTimer = none) ∧
    (capture.subscribing = false → (capture.notify notification).timer = none) := by
  cases notification with
  | next value => exact absurd rfl (last value)
  | error failure | complete =>
    cases subscribing : capture.subscribing <;>
      simp [Capture.notify, Capture.observe, Capture.deliver, Capture.close, Capture.teardown,
        running, listening, sourceOpen, subscribing]

/-- A subscriber that is closed hears nothing. -/
theorem notify_closed (running : capture.timedOut = false) (closed : capture.closed = true)
    (notification : Notification Value Failure) :
    (capture.notify notification).received = capture.received ∧
    (capture.notify notification).timedOut = false ∧
    (capture.notify notification).closed = true ∧
    (capture.notify notification).subscribing = capture.subscribing ∧
    (capture.notify notification).lateValues = capture.lateValues ∧
    (capture.notify notification).lateTimer = capture.lateTimer := by
  cases sourceOpen : capture.sourceOpen <;> cases notification <;>
    simp [Capture.notify, Capture.observe, Capture.deliver, running, closed, sourceOpen]

/-- The source is heard by the subscriber. -/
theorem phase_of_heard (early : Early history capture) (listening : capture.closed = false)
    (sourceOpen : capture.sourceOpen = true) (stays : ¬ Unsubscribed history)
    (notification : Notification Value Failure) :
    Phase timeoutError ((capture, .emit notification) :: history)
      (capture.notify notification) := by
  have running := early.running
  have heardNow : heard ((capture, .emit notification) :: history) =
      heard history ++ [notification] := by
    simp [heard_cons, running, listening]
  have heardSome : heard ((capture, .emit notification) :: history) ≠ [] := by
    simp [heardNow]
  have notLate : heardLate ((capture, .emit notification) :: history) = [] := by
    simp [heardLate_cons, running, early.notLate]
  have notEnded : windowEnded ((capture, .emit notification) :: history) = false := by
    rw [windowEnded_emit, early.notEnded]
  by_cases last : ∃ value, notification = .next value
  · obtain ⟨value, rfl⟩ := last
    rw [notify_next running listening sourceOpen]
    refine .mirroring ⟨running, ?_, notLate, notEnded, early.noLateTimer, early.noLateValues⟩
      listening sourceOpen (by rwa [unsubscribed_emit]) heardSome rfl
    rw [heardNow, early.received]
  · obtain ⟨received, runs, closes, ends, phase, values, lateTimer, timer⟩ :=
      notify_last running listening sourceOpen (fun value same => last ⟨value, same⟩)
    have earlyNow : Early ((capture, .emit notification) :: history)
        (capture.notify notification) :=
      ⟨runs, by rw [received, heardNow, early.received], notLate, notEnded,
        lateTimer early.noLateTimer, values.trans early.noLateValues⟩
    cases subscribing : capture.subscribing with
    | true => exact .closing earlyNow closes (phase.trans subscribing) (.inl heardSome)
    | false =>
      exact .done earlyNow closes (phase.trans subscribing) (.inl heardSome) (timer subscribing) ends

theorem phase_of_emit (phase : Phase timeoutError history capture)
    (notification : Notification Value Failure) :
    Phase timeoutError ((capture, .emit notification) :: history)
      (capture.notify notification) := by
  cases phase with
  | waiting early listening sourceOpen stays unsettled silent armed =>
    exact phase_of_heard early listening sourceOpen stays notification
  | mirroring early listening sourceOpen stays heardSome disarmed =>
    exact phase_of_heard early listening sourceOpen stays notification
  | closing early closed subscribing closedBy =>
    obtain ⟨received, runs, closes, phase, values, lateTimer⟩ :=
      notify_closed early.running closed notification
    have heardNow : heard ((capture, .emit notification) :: history) = heard history := by
      simp [heard_cons, closed]
    refine .closing ⟨runs, ?_, ?_, ?_, lateTimer.trans early.noLateTimer,
      values.trans early.noLateValues⟩ closes (phase.trans subscribing) ?_
    · rw [received, heardNow, early.received]
    · simp [heardLate_cons, early.running, early.notLate]
    · rw [windowEnded_emit, early.notEnded]
    · rwa [heardNow, unsubscribed_emit]
  | done early closed subscribed closedBy disarmed sourceClosed =>
    have same : capture.notify notification = capture := by simp [Capture.notify, sourceClosed]
    have heardNow : heard ((capture, .emit notification) :: history) = heard history := by
      simp [heard_cons, closed]
    rw [same]
    refine .done ⟨early.running, ?_, ?_, ?_, early.noLateTimer, early.noLateValues⟩ closed
      subscribed ?_ disarmed sourceClosed
    · rw [heardNow, early.received]
    · simp [heardLate_cons, early.running, early.notLate]
    · rw [windowEnded_emit, early.notEnded]
    · rwa [heardNow, unsubscribed_emit]
  | window late sourceOpen disarmed notLate notEnded armed =>
    have lateNow : heardLate ((capture, .emit notification) :: history) = [notification] := by
      simp [heardLate_cons, late.timedOut, notEnded, notLate]
    have silent : heard ((capture, .emit notification) :: history) = [] := by
      simp [heard_cons, late.timedOut, late.silent]
    have none : capture.lateValues = [] := by rw [late.values, notLate]; rfl
    have stayed : ¬ Unsubscribed ((capture, .emit notification) :: history) := by
      rw [unsubscribed_emit]
      exact late.stayed
    refine .past ⟨?_, silent, ?_, ?_, ?_, stayed, ?_⟩ ?_ ?_ (.inr (by simp [lateNow])) <;>
      cases notification <;>
        simp [Capture.notify, Capture.observe, sourceOpen, late.timedOut, late.received,
          late.closed, late.subscribed, disarmed, lateNow, lateOutcome, none]
  | past late sourceClosed disarmed ended =>
    have same : capture.notify notification = capture := by simp [Capture.notify, sourceClosed]
    have silent : heard ((capture, .emit notification) :: history) = [] := by
      simp [heard_cons, late.timedOut, late.silent]
    rw [same]
    refine .past ⟨late.timedOut, silent, late.received, late.closed, late.subscribed, ?_, ?_⟩
      sourceClosed disarmed ?_
    · rw [unsubscribed_emit]
      exact late.stayed
    · rw [late.values, heardLate_cons]
      split
      · rename_i watching
        have notEnded : windowEnded history = false := by
          simpa [late.timedOut] using watching
        cases first : heardLate history with
        | nil => exact absurd first (ended.resolve_left (by simp [notEnded]))
        | cons head rest => cases head <;> rfl
      · rfl
    · rw [windowEnded_emit, heardLate_cons]
      refine ended.imp_right fun heardSome => ?_
      split <;> simp [heardSome]

/-- What was heard does not depend on time, timers and teardowns. -/
def CaptureAction.isQuiet : CaptureAction Value Failure → Bool
  | .elapse _ | .subscribed | .timeout => true
  | _ => false

theorem of_quiet {action : CaptureAction Value Failure} (quiet : action.isQuiet = true) :
    heard ((capture, action) :: history) = heard history ∧
    heardLate ((capture, action) :: history) = heardLate history ∧
    windowEnded ((capture, action) :: history) = windowEnded history ∧
    (Unsubscribed ((capture, action) :: history) ↔ Unsubscribed history) := by
  cases action <;> simp_all [CaptureAction.isQuiet, heard, heardLate, windowEnded,
    unsubscribed_cons]

theorem Early.quiet (early : Early history capture) {action : CaptureAction Value Failure}
    (quiet : action.isQuiet = true) (running : after.timedOut = false)
    (received : after.received = capture.received) (lateTimer : after.lateTimer = none)
    (values : after.lateValues = capture.lateValues) :
    Early ((capture, action) :: history) after := by
  obtain ⟨heardNow, lateNow, endedNow, -⟩ := @of_quiet _ _ history capture _ quiet
  exact ⟨running, by rw [received, early.received, heardNow], lateNow.trans early.notLate,
    endedNow.trans early.notEnded, lateTimer, values.trans early.noLateValues⟩

theorem phase_of_elapse (phase : Phase timeoutError history capture) (milliseconds : Nat) :
    Phase timeoutError ((capture, .elapse milliseconds) :: history)
      { capture with now := capture.now + milliseconds } := by
  have quiet : (CaptureAction.elapse milliseconds : CaptureAction Value Failure).isQuiet = true :=
    rfl
  obtain ⟨heardNow, lateNow, endedNow, staysNow⟩ := @of_quiet _ _ history capture _ quiet
  have early : Early history capture →
      Early ((capture, .elapse milliseconds) :: history)
        { capture with now := capture.now + milliseconds } :=
    fun early => early.quiet quiet early.running rfl early.noLateTimer rfl
  have late : Late timeoutError history capture →
      Late timeoutError ((capture, .elapse milliseconds) :: history)
        { capture with now := capture.now + milliseconds } :=
    fun late => ⟨late.timedOut, heardNow.trans late.silent, late.received, late.closed,
      late.subscribed, fun gone => late.stayed (staysNow.mp gone), by rw [lateNow, late.values]⟩
  cases phase with
  | waiting before listening sourceOpen stays unsettled silent armed =>
    exact .waiting (early before) listening sourceOpen (fun gone => stays (staysNow.mp gone))
      unsettled (heardNow.trans silent) armed
  | mirroring before listening sourceOpen stays heardSome disarmed =>
    exact .mirroring (early before) listening sourceOpen (fun gone => stays (staysNow.mp gone))
      (heardNow ▸ heardSome) disarmed
  | closing before closed subscribing closedBy =>
    exact .closing (early before) closed subscribing (by rwa [heardNow, staysNow])
  | done before closed subscribed closedBy disarmed sourceClosed =>
    exact .done (early before) closed subscribed (by rwa [heardNow, staysNow]) disarmed
      sourceClosed
  | window after sourceOpen disarmed notLate notEnded armed =>
    exact .window (late after) sourceOpen disarmed (lateNow.trans notLate)
      (endedNow.trans notEnded) armed
  | past after sourceClosed disarmed ended =>
    exact .past (late after) sourceClosed disarmed (by rwa [endedNow, lateNow])

theorem phase_of_subscribed (phase : Phase timeoutError history capture)
    (taken : capture.step timeoutMs timeoutError .subscribed = some after) :
    Phase timeoutError ((capture, .subscribed) :: history) after := by
  have quiet : (CaptureAction.subscribed : CaptureAction Value Failure).isQuiet = true := rfl
  obtain ⟨heardNow, -, -, staysNow⟩ := @of_quiet _ _ history capture _ quiet
  simp only [Capture.step] at taken
  split at taken
  case isFalse => exact nomatch taken
  rename_i subscribing
  have same := Option.some.inj taken
  cases phase with
  | waiting early listening sourceOpen stays unsettled silent armed =>
    rw [if_neg (by simp [listening])] at same
    subst same
    exact .waiting (early.quiet quiet early.running rfl early.noLateTimer rfl) listening
      sourceOpen (fun gone => stays (staysNow.mp gone)) unsettled (heardNow.trans silent) armed
  | mirroring early listening sourceOpen stays heardSome disarmed =>
    rw [if_neg (by simp [listening])] at same
    subst same
    exact .mirroring (early.quiet quiet early.running rfl early.noLateTimer rfl) listening
      sourceOpen (fun gone => stays (staysNow.mp gone)) (heardNow ▸ heardSome) disarmed
  | closing early closed _ closedBy =>
    rw [if_pos closed] at same
    subst same
    exact .done (early.quiet quiet early.running rfl rfl rfl) closed rfl
      (by rwa [heardNow, staysNow]) rfl (by simp [Capture.teardown, early.running])
  | done early closed subscribed closedBy disarmed sourceClosed =>
    exact Bool.noConfusion (subscribed.symm.trans subscribing)
  | window late | past late => exact Bool.noConfusion (late.subscribed.symm.trans subscribing)

theorem phase_of_timeout (phase : Phase timeoutError history capture)
    (taken : capture.step timeoutMs timeoutError .timeout = some after) :
    Phase timeoutError ((capture, .timeout) :: history) after := by
  have quiet : (CaptureAction.timeout : CaptureAction Value Failure).isQuiet = true := rfl
  obtain ⟨heardNow, lateNow, endedNow, staysNow⟩ := @of_quiet _ _ history capture _ quiet
  simp only [Capture.step] at taken
  split at taken
  case isFalse => exact nomatch taken
  rename_i due
  obtain ⟨subscribed, time, armed, -⟩ := due
  have same := Option.some.inj taken
  cases phase with
  | waiting early listening sourceOpen stays unsettled silent _ =>
    have received : capture.received = [] := early.received.trans silent
    have values := early.noLateValues
    subst same
    refine .window ⟨?_, heardNow.trans silent, ?_, ?_, ?_, fun gone => stays (staysNow.mp gone),
      ?_⟩ ?_ ?_ (lateNow.trans early.notLate) (endedNow.trans early.notEnded) ?_ <;>
      simp [Capture.onTimeout, Capture.deliver, Capture.close, Capture.teardown, unsettled,
        listening, subscribed, sourceOpen, received, values, lateNow, early.notLate, lateOutcome]
  | mirroring early listening sourceOpen stays heardSome disarmed =>
    exact nomatch disarmed.symm.trans armed
  | closing early closed subscribing closedBy =>
    exact Bool.noConfusion (subscribed.symm.trans subscribing)
  | done early closed subscribed closedBy disarmed sourceClosed =>
    exact nomatch disarmed.symm.trans armed
  | window late sourceOpen disarmed | past late sourceClosed disarmed =>
    exact nomatch disarmed.symm.trans armed

/-- The end of the window is not among what is heard. -/
theorem phase_of_lateTimeout (phase : Phase timeoutError history capture)
    (taken : capture.step timeoutMs timeoutError .lateTimeout = some after) :
    Phase timeoutError ((capture, .lateTimeout) :: history) after := by
  simp only [Capture.step] at taken
  split at taken
  case isFalse => exact nomatch taken
  rename_i due
  obtain ⟨subscribed, time, armed, -⟩ := due
  have same := Option.some.inj taken
  have past : Late timeoutError history capture → capture.timer = none →
      Phase timeoutError ((capture, .lateTimeout) :: history) after := by
    intro late disarmed
    subst same
    refine .past ⟨late.timedOut, late.silent, late.received, late.closed, late.subscribed,
      fun gone => late.stayed ?_, late.values⟩ rfl disarmed (.inl rfl)
    simpa [unsubscribed_cons] using gone
  cases phase with
  | waiting early | mirroring early | closing early | done early =>
    exact nomatch early.noLateTimer.symm.trans armed
  | window late sourceOpen disarmed | past late sourceClosed disarmed => exact past late disarmed

theorem phase_of_unsubscribe (phase : Phase timeoutError history capture) :
    Phase timeoutError ((capture, .unsubscribe) :: history)
      (if capture.closed then capture else capture.close) := by
  have left : capture.timedOut = false →
      Unsubscribed ((capture, .unsubscribe) :: history) :=
    fun running => unsubscribed_cons.mpr (.inl ⟨running, rfl⟩)
  have notEnded : windowEnded history = false →
      windowEnded ((capture, .unsubscribe) :: history) = false := by
    simp [windowEnded]
  have early : ∀ {after : Capture Value Failure}, Early history capture →
      after.timedOut = false → after.received = capture.received → after.lateTimer = none →
        after.lateValues = capture.lateValues →
          Early ((capture, .unsubscribe) :: history) after := by
    intro after early running received lateTimer values
    exact ⟨running, received.trans early.received, early.notLate, notEnded early.notEnded,
      lateTimer, values.trans early.noLateValues⟩
  have closes : Early history capture → capture.closed = false →
      Phase timeoutError ((capture, .unsubscribe) :: history) capture.close := by
    intro before listening
    cases subscribing : capture.subscribing with
    | true =>
      rw [Capture.close, if_pos subscribing]
      exact .closing (early before before.running rfl before.noLateTimer rfl) rfl subscribing
        (.inr (left before.running))
    | false =>
      rw [Capture.close, if_neg (by simp [subscribing])]
      exact .done (early before before.running rfl rfl rfl) rfl subscribing
        (.inr (left before.running)) rfl (by simp [Capture.teardown, before.running])
  have late : Late timeoutError history capture →
      Late timeoutError ((capture, .unsubscribe) :: history) capture := by
    intro late
    refine ⟨late.timedOut, late.silent, late.received, late.closed, late.subscribed, ?_,
      late.values⟩
    intro gone
    exact late.stayed (by simpa [unsubscribed_cons, late.timedOut] using gone)
  cases phase with
  | waiting before listening | mirroring before listening =>
    rw [if_neg (by simp [listening])]
    exact closes before listening
  | closing before closed subscribing closedBy =>
    rw [if_pos closed]
    exact .closing (early before before.running rfl before.noLateTimer rfl) closed subscribing
      (.inr (left before.running))
  | done before closed subscribed closedBy disarmed sourceClosed =>
    rw [if_pos closed]
    exact .done (early before before.running rfl before.noLateTimer rfl) closed subscribed
      (.inr (left before.running)) disarmed sourceClosed
  | window after sourceOpen disarmed notLate notEnd armed =>
    rw [if_pos after.closed]
    exact .window (late after) sourceOpen disarmed notLate (notEnded notEnd) armed
  | past after sourceClosed disarmed ended =>
    rw [if_pos after.closed]
    exact .past (late after) sourceClosed disarmed (ended.imp_left (by simp [windowEnded]))

theorem phase_of_run (run : (captureSystem timeoutMs timeoutError).Run history capture) :
    Phase timeoutError history capture := by
  induction run with
  | start initial =>
    obtain ⟨now, rfl⟩ := initial
    exact .waiting ⟨rfl, rfl, rfl, rfl, rfl, rfl⟩ rfl rfl (fun ⟨_, never, _⟩ => nomatch never) rfl
      rfl rfl
  | @step history before after action run taken phase =>
    cases action with
    | elapse milliseconds =>
      obtain rfl := Option.some.inj taken
      exact phase_of_elapse phase milliseconds
    | emit notification =>
      obtain rfl := Option.some.inj taken
      exact phase_of_emit phase notification
    | subscribed => exact @phase_of_subscribed _ _ timeoutMs _ _ _ _ phase taken
    | timeout => exact phase_of_timeout phase taken
    | lateTimeout => exact @phase_of_lateTimeout _ _ timeoutMs _ _ _ _ phase taken
    | unsubscribe =>
      obtain rfl := Option.some.inj taken
      exact phase_of_unsubscribe phase

theorem Early.outcome (early : Early history capture)
    (waits : heard history = [] → ¬ Unsubscribed history → capture.timer.isSome = true)
    (unsubscribes : Unsubscribed history → capture.subscribing = false →
      capture.sourceOpen = false) : OneOutcome timeoutError history capture where
  mirrors _ := early.received
  timeout timedOut := Bool.noConfusion (early.running.symm.trans timedOut)
  late := by rw [early.noLateValues, early.notLate, lateOutcome]; exact fun _ _ => nofun
  early _ := early.noLateValues
  waits _ := waits
  watches timedOut := Bool.noConfusion (early.running.symm.trans timedOut)
  unsubscribes := unsubscribes
  ends ended := Bool.noConfusion (early.notEnded.symm.trans ended)

theorem Late.outcome (late : Late timeoutError history capture)
    (watches : heardLate history = [] → windowEnded history = false →
      capture.lateTimer.isSome = true)
    (ends : windowEnded history = true → capture.sourceOpen = false) :
    OneOutcome timeoutError history capture where
  mirrors running := Bool.noConfusion (running.symm.trans late.timedOut)
  timeout _ := ⟨late.silent, late.received⟩
  late := late.values
  early running := Bool.noConfusion (running.symm.trans late.timedOut)
  waits running := Bool.noConfusion (running.symm.trans late.timedOut)
  watches _ := watches
  unsubscribes gone := absurd gone late.stayed
  ends := ends

/-- The subscriber gets what the source emits or the timeout error, and a value is recorded exactly
when it is the first thing to come in the late window. -/
theorem oneOutcome_of_run (run : (captureSystem timeoutMs timeoutError).Run history capture) :
    OneOutcome timeoutError history capture := by
  cases phase_of_run run with
  | waiting early listening sourceOpen stays unsettled silent armed =>
    exact early.outcome (fun _ _ => armed) fun gone => absurd gone stays
  | mirroring early listening sourceOpen stays heardSome disarmed =>
    exact early.outcome (fun silent => absurd silent heardSome) fun gone => absurd gone stays
  | closing early closed subscribing closedBy =>
    refine early.outcome (fun silent stays => absurd closedBy (not_or.mpr ⟨?_, stays⟩)) ?_
    · exact fun heardSome => heardSome silent
    · exact fun _ subscribed => Bool.noConfusion (subscribed.symm.trans subscribing)
  | done early closed subscribed closedBy disarmed sourceClosed =>
    refine early.outcome (fun silent stays => absurd closedBy (not_or.mpr ⟨?_, stays⟩)) ?_
    · exact fun heardSome => heardSome silent
    · exact fun _ _ => sourceClosed
  | window late sourceOpen disarmed notLate notEnded armed =>
    exact late.outcome (fun _ _ => armed) fun ended =>
      Bool.noConfusion (notEnded.symm.trans ended)
  | past late sourceClosed disarmed ended =>
    refine late.outcome (fun notLate notEnded => absurd ended (not_or.mpr ⟨?_, ?_⟩))
      fun _ => sourceClosed
    · simp [notEnded]
    · exact fun heardSome => heardSome notLate

/-- The timeout comes first, and the value of the handler within the window. -/
theorem lateValue_recorded : ∃ history capture,
    (captureSystem 10 "timeout").Run history capture ∧ OneOutcome "timeout" history capture ∧
      capture.received = [.error "timeout"] ∧ capture.lateValues = [7] := by
  obtain ⟨history, capture, run, -, -, passed⟩ :=
    @TransitionSystem.run_of_execute (Capture Nat String) _ (captureSystem 10 "timeout")
      (fun _ _ => true) (fun _ _ => True) (fun _ _ _ => trivial) { timer := some 10 }
      [.subscribed, .elapse 10, .timeout, .elapse 5, .emit (.next 7), .emit (.next 8)]
      (fun capture => decide (capture.received = [.error "timeout"] ∧ capture.lateValues = [7]))
      ⟨0, rfl⟩ (by decide)
  exact ⟨history, capture, run, oneOutcome_of_run run, of_decide_eq_true passed⟩

end

end NestjsFastify.LateCapture
