import NestjsFastify.IdempotencyStore
import NestjsFastify.LateCapture

/-! # The lock of a request and the window in which it is captured

A request takes the lock of its key after its timer has started, and its result is captured until
the late window ends, twice the request timeout after the start.  The environment validation bounds
the timeout by the life of the lock once.
-/
namespace NestjsFastify.Idempotency
open LateCapture (Capture CaptureAction Notification)

/-! ### Configuration -/

/-- The variables of the environment that the lock and the timers depend on. -/
structure EnvConfig where
  IDEMPOTENCY_ENABLED : Bool := true
  HTTP_REQUEST_TIMEOUT_MS : Nat := 30000
  UPLOAD_REQUEST_TIMEOUT_MS : Nat := 900000
  IDEMPOTENCY_LOCK_TTL_SECONDS : Nat := 60
  IDEMPOTENCY_TTL_SECONDS : Nat := 86400
  deriving DecidableEq, Repr

/-- An issue of the validation. -/
structure EnvIssue where
  path : List String
  message : String
  deriving DecidableEq, Repr

namespace EnvConfig
variable (config : EnvConfig)

/-- The bounds of the single variables. -/
def inBounds : Bool :=
  1000 ≤ config.UPLOAD_REQUEST_TIMEOUT_MS && config.UPLOAD_REQUEST_TIMEOUT_MS ≤ 3600000 &&
    1 ≤ config.IDEMPOTENCY_LOCK_TTL_SECONDS && 1 ≤ config.IDEMPOTENCY_TTL_SECONDS

/-- What `superRefine` adds about the lock. -/
def lockIssues : List EnvIssue :=
  if config.IDEMPOTENCY_ENABLED && 0 < config.HTTP_REQUEST_TIMEOUT_MS &&
      config.IDEMPOTENCY_LOCK_TTL_SECONDS * 1000 ≤ config.HTTP_REQUEST_TIMEOUT_MS then
    [{ path := ["IDEMPOTENCY_LOCK_TTL_SECONDS"]
       message := "IDEMPOTENCY_LOCK_TTL_SECONDS (ms) must be greater than HTTP_REQUEST_TIMEOUT_MS" ++
         " so a timed-out request releases its lock in time" }]
  else []

def accepted : Bool := config.inBounds && config.lockIssues.isEmpty

/-- The time that a request has, as `TimeoutInterceptor.intercept` chooses it; no limit if that is
disabled. -/
def requestTimeoutMs (multipart : Bool) : Option Nat :=
  if config.HTTP_REQUEST_TIMEOUT_MS ≤ 0 then none
  else
    some (if multipart then config.UPLOAD_REQUEST_TIMEOUT_MS else config.HTTP_REQUEST_TIMEOUT_MS)

/-- The life of the lock: that of `defaultStore` or of `multipartStore`. -/
def lockTtlSeconds (multipart : Bool) : Nat :=
  if multipart then
    max config.IDEMPOTENCY_LOCK_TTL_SECONDS ((config.UPLOAD_REQUEST_TIMEOUT_MS + 999) / 1000 + 30)
  else config.IDEMPOTENCY_LOCK_TTL_SECONDS

def lockTtlMs (multipart : Bool) : Nat := config.lockTtlSeconds multipart * 1000

def recordTtlMs : Nat := config.IDEMPOTENCY_TTL_SECONDS * 1000

end EnvConfig

/-- The delay of `setTimeout`, which takes a delay that it cannot represent for 1. -/
def timerDelay (milliseconds : Nat) : Nat :=
  if 1 ≤ milliseconds ∧ milliseconds ≤ 2147483647 then milliseconds else 1

/-! ### A request with a key -/

/-- The capture of the request's result, the record of its key, and when the request has acquired
it. -/
structure KeyedRequest (Value Failure : Type*) where
  startedAt : Nat
  capture : Capture Value Failure
  stored : Option StoredRecord := none
  acquiredAt : Option Nat := none

/-- A step of the capture, the acquisition of the key, or a command of another request. -/
inductive KeyedAction (Value Failure : Type*) where
  | capture (action : CaptureAction Value Failure)
  | acquire
  | other (command : StoreCommand)

section
variable {Value Failure : Type*} (config : EnvConfig) (multipart : Bool) (timeoutMs : Nat)
variable (timeoutError : Failure) (fingerprint : String) (ownerToken : Nat)

/-- Timers go off on time: no time passes while one is due. -/
def onTime (capture : Capture Value Failure) : CaptureAction Value Failure → Bool
  | .elapse milliseconds =>
      capture.timer.all (capture.now + milliseconds ≤ ·) &&
        capture.lateTimer.all (capture.now + milliseconds ≤ ·)
  | _ => true

namespace KeyedRequest

def step (request : KeyedRequest Value Failure) :
    KeyedAction Value Failure → Option (KeyedRequest Value Failure)
  | .capture action =>
      if onTime request.capture action then do
        let capture ← request.capture.step (timerDelay timeoutMs) timeoutError action
        pure { request with capture }
      else none
  -- the interceptor asks once, and runs the handler with the key that it has got
  | .acquire =>
      if config.IDEMPOTENCY_ENABLED && request.acquiredAt.isNone then
        let acquire := StoreCommand.setNx fingerprint ownerToken (config.lockTtlMs multipart)
        match acquire.run request.capture.now request.stored with
        | (stored, .done true) =>
            some { request with stored, acquiredAt := some request.capture.now }
        | _ => none
      else none
  | .other command =>
      if command.ownerToken = some ownerToken then none
      else some { request with stored := (command.run request.capture.now request.stored).1 }

end KeyedRequest

/-- The request starts its timer, and other requests may have used the key before. -/
def requestSystem : TransitionSystem (KeyedRequest Value Failure) (KeyedAction Value Failure) where
  initial request := ∃ now stored, request = {
    startedAt := now
    capture := { now, timer := some (now + timerDelay timeoutMs) }
    stored := stored }
  step := KeyedRequest.step config multipart timeoutMs timeoutError fingerprint ownerToken

/-- What the handler yields can still be captured: for the response, or in the late window. -/
def Capturable (capture : Capture Value Failure) : Prop :=
  capture.sourceOpen = true ∧ (capture.timer.isSome = true ∨ capture.lateTimer.isSome = true)

/-- As long as its result can be captured, a request that has acquired its key holds the pending
record, and completes it. -/
def LockOutlivesCapture (Value : Type*) : Prop :=
  ∀ timeoutMs ∈ config.requestTimeoutMs multipart,
    ∀ history, ∀ request : KeyedRequest Value Failure,
      (requestSystem config multipart timeoutMs timeoutError fingerprint ownerToken).Run history
        request →
      request.acquiredAt.isSome = true → Capturable request.capture →
        ∃ expiresAt,
          live request.capture.now request.stored =
            some ⟨.pending fingerprint ownerToken, expiresAt⟩ ∧
          ∀ completed, (StoreCommand.completeIfOwner ownerToken completed config.recordTtlMs).run
            request.capture.now request.stored =
              (some ⟨completed, request.capture.now + config.recordTtlMs⟩, .done true)

/-! ### The invariant -/

variable {config multipart timeoutMs timeoutError fingerprint ownerToken}
variable {request after : KeyedRequest Value Failure}

/-- The timers of the capture are due within their spans. -/
structure Timed (delay startedAt : Nat) (capture : Capture Value Failure) : Prop where
  started : startedAt ≤ capture.now
  timer : ∀ due ∈ capture.timer, due = startedAt + delay ∧ capture.now ≤ due
  lateTimer : ∀ due ∈ capture.lateTimer, due ≤ startedAt + 2 * delay ∧ capture.now ≤ due

/-- What a request knows of the record that it has acquired. -/
structure Locked (lockTtlMs : Nat) (fingerprint : String) (ownerToken : Nat)
    (request : KeyedRequest Value Failure) : Prop where
  acquired : ∀ acquiredAt ∈ request.acquiredAt, request.startedAt ≤ acquiredAt
  held : ∀ acquiredAt ∈ request.acquiredAt,
    request.capture.now ≤ acquiredAt + lockTtlMs →
      request.stored = some ⟨.pending fingerprint ownerToken, acquiredAt + lockTtlMs⟩

/-- A capture that starts no timer and takes no time. -/
structure Relaxes (before after : Capture Value Failure) : Prop where
  now : after.now = before.now
  timer : ∀ due ∈ after.timer, due ∈ before.timer
  lateTimer : ∀ due ∈ after.lateTimer, due ∈ before.lateTimer

namespace Relaxes
variable {capture before between later : Capture Value Failure}

theorem trans (first : Relaxes before between) (second : Relaxes between later) :
    Relaxes before later :=
  ⟨second.now.trans first.now, fun due armed => first.timer due (second.timer due armed),
    fun due armed => first.lateTimer due (second.lateTimer due armed)⟩

theorem teardown (capture : Capture Value Failure) : Relaxes capture capture.teardown :=
  ⟨rfl, fun _ never => (nomatch never), fun _ never => (nomatch never)⟩

theorem close (capture : Capture Value Failure) : Relaxes capture capture.close := by
  unfold Capture.close
  split
  · exact ⟨rfl, fun _ armed => armed, fun _ armed => armed⟩
  · have closes : Relaxes capture { capture with closed := true } :=
      ⟨rfl, fun _ armed => armed, fun _ armed => armed⟩
    exact closes.trans (teardown _)

theorem deliver (capture : Capture Value Failure) (notification : Notification Value Failure) :
    Relaxes capture (capture.deliver notification) := by
  unfold Capture.deliver
  split
  · exact ⟨rfl, fun _ armed => armed, fun _ armed => armed⟩
  · cases notification with
    | next value => exact ⟨rfl, fun _ armed => armed, fun _ armed => armed⟩
    | error failure | complete =>
      have receives : ∀ received, Relaxes capture { capture with received } :=
        fun _ => ⟨rfl, fun _ armed => armed, fun _ armed => armed⟩
      exact (receives _).trans (close _)

theorem observe (capture : Capture Value Failure) (notification : Notification Value Failure) :
    Relaxes capture (capture.observe notification) := by
  have settles : Relaxes capture { capture with settled := true, timer := none } :=
    ⟨rfl, fun _ never => (by cases never), fun _ armed => armed⟩
  cases notification with
  | next value | error failure =>
    simp only [Capture.observe]
    split
    · exact ⟨rfl, fun _ armed => armed, fun _ never => by cases never⟩
    · exact settles.trans (deliver _ _)
  | complete =>
    simp only [Capture.observe]
    split
    · exact ⟨rfl, fun _ armed => armed, fun _ armed => armed⟩
    · exact deliver _ _

theorem notify (capture : Capture Value Failure) (notification : Notification Value Failure) :
    Relaxes capture (capture.notify notification) := by
  unfold Capture.notify
  split
  · have observed := observe capture notification
    cases notification with
    | next value => exact observed
    | error failure | complete => exact ⟨observed.now, observed.timer, observed.lateTimer⟩
  · exact ⟨rfl, fun _ armed => armed, fun _ armed => armed⟩

end Relaxes

theorem Timed.relax {delay startedAt : Nat} {before later : Capture Value Failure}
    (timed : Timed delay startedAt before) (relaxes : Relaxes before later) :
    Timed delay startedAt later where
  started := relaxes.now ▸ timed.started
  timer due armed := relaxes.now ▸ timed.timer due (relaxes.timer due armed)
  lateTimer due armed := relaxes.now ▸ timed.lateTimer due (relaxes.lateTimer due armed)

theorem Timed.step {delay startedAt : Nat} {before later : Capture Value Failure}
    (timed : Timed delay startedAt before) {action : CaptureAction Value Failure}
    (punctual : onTime before action = true)
    (taken : before.step delay timeoutError action = some later) :
    Timed delay startedAt later ∧ before.now ≤ later.now := by
  have relaxed : ∀ {next : Capture Value Failure}, Relaxes before next →
      Timed delay startedAt next ∧ before.now ≤ next.now :=
    fun relaxes => ⟨timed.relax relaxes, Nat.le_of_eq relaxes.now.symm⟩
  cases action with
  | elapse milliseconds =>
    obtain rfl := Option.some.inj taken
    simp only [onTime, Bool.and_eq_true, Option.all_eq_true, decide_eq_true_eq] at punctual
    refine ⟨⟨Nat.le_trans timed.started (Nat.le_add_right _ _), fun due armed => ?_,
      fun due armed => ?_⟩, Nat.le_add_right _ _⟩
    · exact ⟨(timed.timer due armed).1, punctual.1 due armed⟩
    · exact ⟨(timed.lateTimer due armed).1, punctual.2 due armed⟩
  | emit notification =>
    obtain rfl := Option.some.inj taken
    exact relaxed (.notify before notification)
  | subscribed =>
    simp only [Capture.step] at taken
    split at taken
    · obtain rfl := Option.some.inj taken
      have returns : Relaxes before { before with subscribing := false } :=
        ⟨rfl, fun _ armed => armed, fun _ armed => armed⟩
      split
      · exact relaxed (returns.trans (.teardown _))
      · exact relaxed returns
    · cases taken
  | timeout =>
    simp only [Capture.step] at taken
    split at taken
    · rename_i due
      obtain ⟨-, time, armed, -⟩ := due
      obtain rfl := Option.some.inj taken
      unfold Capture.onTimeout
      split
      · exact relaxed ⟨rfl, fun _ never => (by cases never), fun _ armed => armed⟩
      · have delivered := Relaxes.deliver { before with timedOut := true, timer := none }
          (.error timeoutError)
        have now : (Capture.deliver { before with timedOut := true, timer := none }
            (.error timeoutError)).now = before.now := delivered.now
        obtain ⟨rfl, early⟩ := timed.timer time armed
        refine ⟨⟨Nat.le_trans timed.started (Nat.le_of_eq now.symm), fun due rearmed => ?_,
          fun due rearmed => ?_⟩, Nat.le_of_eq now.symm⟩
        · cases delivered.timer due rearmed
        · obtain rfl := Option.mem_some_iff.mp rearmed
          refine ⟨by omega, ?_⟩
          simp only [now]
          omega
    · cases taken
  | lateTimeout =>
    simp only [Capture.step] at taken
    split at taken
    · obtain rfl := Option.some.inj taken
      exact relaxed ⟨rfl, fun _ armed => armed, fun _ never => (by cases never)⟩
    · cases taken
  | unsubscribe =>
    obtain rfl := Option.some.inj taken
    split
    · exact relaxed ⟨rfl, fun _ armed => armed, fun _ armed => armed⟩
    · exact relaxed (.close before)

/-- The request holds its pending record until the lock lapses. -/
theorem kept_of_step
    (timed : Timed (timerDelay timeoutMs) request.startedAt request.capture)
    (locked : Locked (config.lockTtlMs multipart) fingerprint ownerToken request)
    {action : KeyedAction Value Failure}
    (taken : request.step config multipart timeoutMs timeoutError fingerprint ownerToken action =
      some after) :
    Timed (timerDelay timeoutMs) after.startedAt after.capture ∧
      Locked (config.lockTtlMs multipart) fingerprint ownerToken after := by
  cases action with
  | capture action =>
    simp only [KeyedRequest.step] at taken
    split at taken
    case isFalse => exact nomatch taken
    rename_i punctual
    simp only [Option.bind_eq_bind, Option.pure_def, Option.bind_eq_some_iff] at taken
    obtain ⟨capture, captured, same⟩ := taken
    obtain rfl := Option.some.inj same
    obtain ⟨timed, later⟩ := timed.step punctual captured
    exact ⟨timed, locked.acquired, fun acquiredAt acquired unexpired =>
      locked.held acquiredAt acquired (Nat.le_trans later unexpired)⟩
  | acquire =>
    simp only [KeyedRequest.step] at taken
    split at taken
    case isFalse => exact nomatch taken
    cases free : live request.capture.now request.stored with
    | some found => simp [StoreCommand.run, free] at taken
    | none =>
      simp only [StoreCommand.run, free, Option.some.injEq] at taken
      subst taken
      refine ⟨timed, fun acquiredAt acquired => ?_, fun acquiredAt acquired _ => ?_⟩
      · obtain rfl := Option.mem_some_iff.mp acquired
        exact timed.started
      · obtain rfl := Option.mem_some_iff.mp acquired
        rfl
  | other command =>
    simp only [KeyedRequest.step] at taken
    split at taken
    case isTrue => exact nomatch taken
    rename_i another
    obtain rfl := Option.some.inj taken
    refine ⟨timed, locked.acquired, fun acquiredAt acquired unexpired => ?_⟩
    have held := locked.held acquiredAt acquired unexpired
    have present : live request.capture.now request.stored =
        some ⟨.pending fingerprint ownerToken, acquiredAt + config.lockTtlMs multipart⟩ := by
      rw [held]
      exact live_of_le unexpired
    refine run_of_not_owned present fun other brought => ?_
    simp only [IdempotencyRecord.ownedBy, decide_eq_false_iff_not]
    rintro rfl
    exact another brought

theorem kept_of_run {history : List (KeyedRequest Value Failure × KeyedAction Value Failure)}
    (run : (requestSystem config multipart timeoutMs timeoutError fingerprint ownerToken).Run
      history request) :
    Timed (timerDelay timeoutMs) request.startedAt request.capture ∧
      Locked (config.lockTtlMs multipart) fingerprint ownerToken request := by
  induction run with
  | start initial =>
    obtain ⟨now, stored, rfl⟩ := initial
    refine ⟨⟨Nat.le_refl _, fun due armed => ?_, fun _ never => (nomatch never)⟩,
      fun _ never => (nomatch never), fun _ never => (nomatch never)⟩
    obtain rfl := Option.mem_some_iff.mp armed
    exact ⟨rfl, Nat.le_add_right _ _⟩
  | step run taken kept => exact kept_of_step kept.1 kept.2 taken

theorem outlives_of_le (enough : ∀ timeoutMs ∈ config.requestTimeoutMs multipart,
      2 * timerDelay timeoutMs ≤ config.lockTtlMs multipart) :
    LockOutlivesCapture config multipart timeoutError fingerprint ownerToken Value := by
  intro timeoutMs chosen history request run acquired capturable
  obtain ⟨timed, locked⟩ := kept_of_run run
  obtain ⟨acquiredAt, acquired⟩ := Option.isSome_iff_exists.mp acquired
  have inWindow : request.capture.now ≤ request.startedAt + 2 * timerDelay timeoutMs := by
    rcases capturable.2 with armed | armed
    · obtain ⟨due, armed⟩ := Option.isSome_iff_exists.mp armed
      have := timed.timer due armed
      omega
    · obtain ⟨due, armed⟩ := Option.isSome_iff_exists.mp armed
      have := timed.lateTimer due armed
      omega
  have unexpired : request.capture.now ≤ acquiredAt + config.lockTtlMs multipart := by
    have := enough timeoutMs chosen
    have := locked.acquired acquiredAt acquired
    omega
  have present : live request.capture.now request.stored =
      some ⟨.pending fingerprint ownerToken, acquiredAt + config.lockTtlMs multipart⟩ := by
    rw [locked.held acquiredAt acquired unexpired]
    exact live_of_le unexpired
  exact ⟨_, present, fun completed =>
    complete_of_owned present (decide_eq_true rfl) completed _⟩

/-- A request that acquires its key at once and runs until its late window is about to end. -/
def lateRequest (timeoutError : Failure) (fingerprint : String) (ownerToken delay lockTtlMs : Nat) :
    KeyedRequest Value Failure where
  startedAt := 0
  capture := {
    now := delay + delay
    timedOut := true
    timer := none
    lateTimer := some (delay + delay)
    subscribing := false
    closed := true
    received := [.error timeoutError] }
  stored := some ⟨.pending fingerprint ownerToken, lockTtlMs⟩
  acquiredAt := some 0

theorem run_lateRequest (enabled : config.IDEMPOTENCY_ENABLED = true) : ∃ history,
    (requestSystem config multipart timeoutMs timeoutError fingerprint ownerToken).Run history
      (lateRequest timeoutError fingerprint ownerToken (timerDelay timeoutMs)
        (config.lockTtlMs multipart) : KeyedRequest Value Failure) := by
  let first : KeyedRequest Value Failure :=
    ⟨0, { timer := some (0 + timerDelay timeoutMs) }, none, none⟩
  have executed : (requestSystem config multipart timeoutMs timeoutError fingerprint
      ownerToken).execute (fun _ _ => true) first
        [.acquire, .capture .subscribed, .capture (.elapse (timerDelay timeoutMs)),
          .capture .timeout, .capture (.elapse (timerDelay timeoutMs))] =
      some (lateRequest timeoutError fingerprint ownerToken (timerDelay timeoutMs)
        (config.lockTtlMs multipart)) := by
    simp [TransitionSystem.execute, requestSystem, KeyedRequest.step, enabled, first,
      StoreCommand.run, live, onTime, Capture.step, Capture.due, Capture.onTimeout,
      Capture.deliver, Capture.close, Capture.teardown, lateRequest]
  have start : (requestSystem config multipart timeoutMs timeoutError fingerprint
      ownerToken).Run [] first := .start ⟨0, none, rfl⟩
  have unguarded : TransitionSystem.Guarded (fun _ _ => True)
      ([] : List (KeyedRequest Value Failure × KeyedAction Value Failure)) :=
    fun _ never => by cases never
  obtain ⟨history, run, -, -⟩ := start.execute (fun _ _ _ => trivial) unguarded executed
  exact ⟨history, run⟩

/-- Without enough time the lock lapses before the window does. -/
theorem le_of_outlives (enabled : config.IDEMPOTENCY_ENABLED = true)
    (outlives : LockOutlivesCapture config multipart timeoutError fingerprint ownerToken Value) :
    ∀ timeoutMs ∈ config.requestTimeoutMs multipart,
      2 * timerDelay timeoutMs ≤ config.lockTtlMs multipart := by
  intro timeoutMs chosen
  by_contra short
  obtain ⟨history, run⟩ := @run_lateRequest Value _ config multipart timeoutMs timeoutError
    fingerprint ownerToken enabled
  obtain ⟨expiresAt, present, -⟩ := outlives timeoutMs chosen history _ run rfl ⟨rfl, .inr rfl⟩
  have lapsed : live (timerDelay timeoutMs + timerDelay timeoutMs)
      (some ⟨.pending fingerprint ownerToken, config.lockTtlMs multipart⟩) = none :=
    live_of_lt (by simp only; omega)
  exact nomatch lapsed.symm.trans present

/-- The lock outlives the window exactly when it lasts for two timeouts. -/
theorem lockOutlivesCapture_iff (accepted : config.accepted = true)
    (enabled : config.IDEMPOTENCY_ENABLED = true) (limited : 0 < config.HTTP_REQUEST_TIMEOUT_MS) :
    (∀ multipart,
      LockOutlivesCapture config multipart timeoutError fingerprint ownerToken Value) ↔
    2 * timerDelay config.HTTP_REQUEST_TIMEOUT_MS ≤ config.IDEMPOTENCY_LOCK_TTL_SECONDS * 1000 ∧
      2 * config.UPLOAD_REQUEST_TIMEOUT_MS ≤ config.lockTtlMs true := by
  have outlives_iff : ∀ multipart,
      LockOutlivesCapture config multipart timeoutError fingerprint ownerToken Value ↔
        2 * timerDelay (if multipart then config.UPLOAD_REQUEST_TIMEOUT_MS
          else config.HTTP_REQUEST_TIMEOUT_MS) ≤ config.lockTtlMs multipart := by
    intro multipart
    have chosen : config.requestTimeoutMs multipart = some (if multipart then
        config.UPLOAD_REQUEST_TIMEOUT_MS else config.HTTP_REQUEST_TIMEOUT_MS) := by
      rw [EnvConfig.requestTimeoutMs, if_neg (by omega)]
    refine ⟨fun outlives => le_of_outlives enabled outlives _ chosen, fun enough => ?_⟩
    refine outlives_of_le fun timeoutMs other => ?_
    obtain rfl := Option.some.inj (chosen.symm.trans other)
    exact enough
  have upload : timerDelay config.UPLOAD_REQUEST_TIMEOUT_MS =
      config.UPLOAD_REQUEST_TIMEOUT_MS := by
    simp only [EnvConfig.accepted, EnvConfig.inBounds, Bool.and_eq_true,
      decide_eq_true_eq] at accepted
    rw [timerDelay, if_pos (by omega)]
  simp only [outlives_iff, Bool.forall_bool, Bool.false_eq_true, if_false, if_true, upload]
  rfl

/-! ### Particular configurations -/

/-- A lock of a minute outlives requests of half a minute. -/
theorem lockOutlivesCapture_example :
    LockOutlivesCapture { UPLOAD_REQUEST_TIMEOUT_MS := 30000 } true "timeout" "fingerprint" 1 Nat :=
  (lockOutlivesCapture_iff (by decide) rfl (by decide)).mpr (by decide) true

/-- By default the lock of an upload lapses after 930 seconds, and its window after 1800. -/
theorem upload_outlives_lock : ({} : EnvConfig).accepted = true ∧
    ¬ ∀ multipart, LockOutlivesCapture {} multipart "timeout" "fingerprint" 1 Nat := by
  refine ⟨by decide, fun outlives => ?_⟩
  have enough := le_of_outlives rfl (outlives true) 900000 rfl
  exact absurd enough (by decide)

end

end NestjsFastify.Idempotency
