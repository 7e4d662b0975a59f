import NestjsFastify.IdempotentRequests

/-! # What an idempotency key promises

As long as the record of a key lives, the handler runs once until the key is released.  Whatever is
replayed comes from an execution for the same request, and a record is changed by its owner only.
-/
namespace NestjsFastify.Idempotency

/-! ## The promise -/

/-- How often the handler was started since the key was released. -/
def startsSinceRelease : List KeyEvent → Nat
  | [] => 0
  | .released _ :: _ => 0
  | .started _ :: log => startsSinceRelease log + 1
  | .finished _ :: log | .replayed _ _ :: log => startsSinceRelease log

/-- The late capture reconstructs the response from the decorators of the route: the handler has
kept to them, and returns a text of a declared type or JSON. -/
def Outcome.Reconstructible (server : HttpServer) (route : Route) (outcome : Outcome) : Prop :=
  outcome.status = route.resolveSuccessStatus ∧
    (outcome.status = 204 ∨ outcome.contentType = route.resolveContentType ∧
      match outcome.value with
      | .text _ => outcome.contentType.isSome = true
      | .json _ => ∀ type ∈ outcome.contentType, server.isJson type = true
      | _ => False)

/-- The response repeats the execution.  An empty one that is no 204 gets a content type, and a late
one is made of the decorators and the value. -/
structure Execution.ReplayedAs (server : HttpServer) (execution : Execution)
    (response : Response) : Prop where
  inTime : execution.late = false → ((execution.outcome.reply server).payload ≠ .absent ∨
    (execution.outcome.reply server).status = 204) →
      response = server.write (execution.outcome.reply server)
  inTimeEmpty : execution.late = false → (execution.outcome.reply server).payload = .absent →
    response = server.write (server.send (execution.outcome.reply server).status
      (some ((execution.outcome.reply server).contentType.getD "application/json")) (.text ""))
  afterTimeout : execution.late = true → ∃ text,
    serializeReplayBody execution.outcome.value = some text ∧
      response = server.write (server.send execution.route.resolveSuccessStatus
        (some (execution.route.resolveContentType.getD "application/json")) (.text text))
  reconstructed : execution.late = true →
    execution.outcome.Reconstructible server execution.route →
      response = server.write (execution.outcome.reply server)

/-- No record has lapsed. -/
def KeyWorld.Unexpired (world : KeyWorld) : Prop :=
  ∀ stored ∈ world.stored, world.now ≤ stored.expiresAt

/-- A request that has the key looks at its reply before it is answered with a timeout, or when
nobody listens to it any more. -/
def KeyWorld.ClaimsInTime (world : KeyWorld) : KeyAction → Prop
  | .attempt owner .proceed => ∀ attempt ∈ world.attempts[owner]?,
      attempt.timedOut = false ∨ attempt.listening = false
  | _ => True

/-- The `onSend` hook and the late capture of a request. -/
def AttemptAction.isFinal : AttemptAction → Bool
  | settle | record => true
  | _ => false

structure KeyContract (config : EnvConfig) (server : HttpServer)
    (history : List (KeyWorld × KeyAction)) (world : KeyWorld) : Prop where
  once : TransitionSystem.Guarded (fun world _ => world.Unexpired) history →
    startsSinceRelease world.log ≤ 1
  faithful : TransitionSystem.Guarded KeyWorld.ClaimsInTime history →
    ∀ fingerprint response, .replayed fingerprint response ∈ world.log →
      ∃ execution, .finished execution ∈ world.log ∧ execution.fingerprint = fingerprint ∧
        execution.ReplayedAs server response
  owned : ∀ owner action after, action.isFinal = true →
    keyStep config server world (.attempt owner action) = some after →
      live world.now after.stored = live world.now world.stored ∨
        ∃ found fingerprint, live world.now world.stored = some found ∧
          found.record = .pending fingerprint owner

/-! ## Records and replays -/

/-- The record of an execution. -/
def Execution.record (server : HttpServer) (execution : Execution) : Option IdempotencyRecord :=
  if execution.late then lateRecord execution.fingerprint execution.route execution.outcome.value
  else
    let reply := execution.outcome.reply server
    if isSuccess reply.status then replyRecord execution.fingerprint reply else none

section
variable {server : HttpServer} {execution : Execution} {fingerprint : String}
  {status : Option Nat} {contentType body : Option String}

theorem replyRecord_eq {reply : Reply} {record : IdempotencyRecord}
    (recorded : replyRecord fingerprint reply = some record) :
    ∃ text, replayableBody reply.payload = some text ∧
      record = completedRecord fingerprint reply.status reply.contentType text := by
  obtain ⟨text, captured, same⟩ := Option.map_eq_some_iff.mp recorded
  exact ⟨text, captured, same.symm⟩

theorem lateRecord_eq {route : Route} {value : ReturnValue} {record : IdempotencyRecord}
    (recorded : lateRecord fingerprint route value = some record) :
    ∃ text, serializeReplayBody value = some text ∧ record =
      completedRecord fingerprint route.resolveSuccessStatus route.resolveContentType text := by
  unfold lateRecord at recorded
  split_ifs at recorded
  obtain ⟨text, captured, same⟩ := Option.map_eq_some_iff.mp recorded
  exact ⟨text, captured, same.symm⟩

/-- A record that is replayed says what was given to `completedRecord`. -/
theorem replayReply_completed {status : Nat} {contentType : Option String} {text : String} :
    replayReply server (some status) (some (contentType.getD "application/json")) (some text) =
      server.send status (some (contentType.getD "application/json")) (.text text) :=
  rfl

theorem reply_of_reconstructible (lawful : server.Lawful) {route : Route} {outcome : Outcome}
    (reconstructible : outcome.Reconstructible server route) {text : String}
    (captured : serializeReplayBody outcome.value = some text) :
    server.write (server.send route.resolveSuccessStatus
      (some (route.resolveContentType.getD "application/json")) (.text text)) =
        server.write (outcome.reply server) := by
  obtain ⟨sameStatus, noContent | ⟨sameType, kind⟩⟩ := reconstructible
  · apply lawful.noContent
    · rw [lawful.status_kept _ _ (.text text) (by simp), ← sameStatus, noContent]
    · have encodes : outcome.value ≠ .json none := by
        intro fails
        simp [fails, serializeReplayBody] at captured
      rw [Outcome.reply, lawful.status_kept _ _ _ encodes, noContent]
  · rw [Outcome.reply, ← sameStatus, ← sameType]
    cases value : outcome.value with
    | text returned =>
      simp only [value] at kind
      obtain ⟨type, declared⟩ := Option.isSome_iff_exists.mp kind
      obtain rfl : returned = text := by simpa [value, serializeReplayBody] using captured
      rw [declared, Option.getD_some]
    | json encoded =>
      simp only [value] at kind
      obtain rfl : encoded = some text := by simpa [value, serializeReplayBody] using captured
      cases declared : outcome.contentType with
      | none => rw [lawful.untyped, Option.getD_none]
      | some type => rw [Option.getD_some, lawful.typed _ _ _ (kind type declared)]
    | undefined | null | file | bytes => simp [value] at kind

/-- The record of an execution repeats it. -/
theorem replayedAs_of_record (lawful : server.Lawful)
    (recorded : execution.record server = some (.completed fingerprint status contentType body)) :
    execution.fingerprint = fingerprint ∧
      execution.ReplayedAs server (server.write (replayReply server status contentType body)) := by
  unfold Execution.record at recorded
  cases late : execution.late with
  | true =>
    simp only [late, if_true] at recorded
    obtain ⟨text, captured, same⟩ := lateRecord_eq recorded
    obtain ⟨rfl, rfl, rfl, rfl⟩ := IdempotencyRecord.completed.inj same
    refine ⟨rfl, by simp [late], by simp [late], fun _ => ⟨text, captured, rfl⟩, ?_⟩
    exact fun _ reconstructible => reply_of_reconstructible lawful reconstructible captured
  | false =>
    simp only [late, Bool.false_eq_true, if_false] at recorded
    split_ifs at recorded
    obtain ⟨text, captured, same⟩ := replyRecord_eq recorded
    obtain ⟨rfl, rfl, rfl, rfl⟩ := IdempotencyRecord.completed.inj same
    rw [replayReply_completed]
    generalize replied : execution.outcome.reply server = reply at captured
    refine ⟨rfl, fun _ repeatable => ?_, fun _ empty => ?_, by simp [late], by simp [late]⟩
    · rw [replied] at repeatable ⊢
      rcases repeatable with nonempty | noContent
      · cases payload : reply.payload with
        | absent => exact absurd payload nonempty
        | text sent =>
          obtain rfl : sent = text := by simpa [payload, replayableBody] using captured
          obtain ⟨type, typed, resent⟩ := lawful.resent _ _ _ sent (replied ▸ payload)
          rw [← Outcome.reply, replied] at typed resent
          rw [typed, Option.getD_some, resent]
        | other => simp [payload, replayableBody] at captured
      · apply lawful.noContent _ _ _ noContent
        rw [lawful.status_kept _ _ (.text text) (by simp), noContent]
    · rw [replied] at empty ⊢
      obtain rfl : "" = text := by simpa [empty, replayableBody] using captured
      rfl

end

end NestjsFastify.Idempotency
