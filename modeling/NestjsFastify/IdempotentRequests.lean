import NestjsFastify.CaptureWindow

/-! # Requests with one idempotency key

The requests that carry one key share its record.  One of them acquires it and runs its handler, and
the others are told to wait, refused or answered with the response that was recorded: by the
`onSend` hook if the handler was in time, and by the late capture if the request had been answered
with a timeout before.
-/
namespace NestjsFastify.Idempotency

/-! ## Responses -/

/-- What a handler returns.  A value that is no text comes with its JSON text, if it has one.  A
`file` is sent as bytes, although it is no `Buffer` and has no `pipe`. -/
inductive ReturnValue where
  | undefined
  | null
  | text (text : String)
  | json (encoded : Option String)
  | file (encoded : Option String)
  | bytes
  deriving DecidableEq, Repr

def serializeReplayBody : ReturnValue → Option String
  | .undefined | .null => some ""
  | .text text => some text
  | .json encoded | .file encoded => encoded
  | .bytes => none

/-- The payload that an `onSend` hook is given. -/
inductive Payload where
  | absent
  | text (text : String)
  | other
  deriving DecidableEq, Repr

def replayableBody : Payload → Option String
  | .absent => some ""
  | .text text => some text
  | .other => none

/-- A reply in the `onSend` hooks. -/
structure Reply where
  status : Nat
  contentType : Option String
  payload : Payload
  deriving DecidableEq, Repr

/-- What a client gets; a body that is no text is left out. -/
structure Response where
  status : Nat
  contentType : Option String
  body : Option String
  deriving DecidableEq, Repr

/-- The framework: `send` is `reply.status(…).header('content-type', …).send(…)` until the `onSend`
hooks, and `write` is what follows them. -/
structure HttpServer where
  send : Nat → Option String → ReturnValue → Reply
  write : Reply → Response
  isJson : String → Bool

/-- A text is sent as it is when it comes with a content type, which is at most completed; JSON is
sent as its text; nothing else is told of a response without content. -/
structure HttpServer.Lawful (server : HttpServer) : Prop where
  resent : ∀ status contentType value text,
    (server.send status contentType value).payload = .text text →
      ∃ type, (server.send status contentType value).contentType = some type ∧
        server.send (server.send status contentType value).status (some type) (.text text) =
          server.send status contentType value
  untyped : ∀ status text, server.send status none (.json (some text)) =
    server.send status (some "application/json") (.text text)
  typed : ∀ status type text, server.isJson type = true →
    server.send status (some type) (.json (some text)) = server.send status (some type) (.text text)
  status_kept : ∀ status contentType value, value ≠ .json none →
    (server.send status contentType value).status = status
  noContent : ∀ first second : Reply, first.status = 204 → second.status = 204 →
    server.write first = server.write second

/-! ## Records -/

def isSuccess (status : Nat) : Bool := 200 ≤ status && status < 300

/-- The method of a route, and what its decorators `@HttpCode` and `@Header` say. -/
structure Route where
  method : String
  httpCode : Option Nat := none
  headers : List (String × String) := []
  deriving DecidableEq, Repr

def Route.resolveSuccessStatus (route : Route) : Nat :=
  route.httpCode.getD (if route.method = "POST" then 201 else 200)

def Route.resolveContentType (route : Route) : Option String :=
  (route.headers.find? fun header => header.1.toLower = "content-type").map (·.2)

def completedRecord (fingerprint : String) (status : Nat) (contentType : Option String)
    (body : String) : IdempotencyRecord :=
  .completed fingerprint (some status) (some (contentType.getD "application/json")) (some body)

/-- What `completeSuccessRecord` records of a reply. -/
def replyRecord (fingerprint : String) (reply : Reply) : Option IdempotencyRecord :=
  (replayableBody reply.payload).map (completedRecord fingerprint reply.status reply.contentType)

/-- What `completeLate` records of a value. -/
def lateRecord (fingerprint : String) (route : Route) (value : ReturnValue) :
    Option IdempotencyRecord :=
  if isSuccess route.resolveSuccessStatus then
    (serializeReplayBody value).map
      (completedRecord fingerprint route.resolveSuccessStatus route.resolveContentType)
  else none

/-- What `finalizeIdempotentResponse` asks of the store. -/
def finalizeCommand (recordTtlMs : Nat) (fingerprint : String) (ownerToken : Nat) (reply : Reply) :
    Option StoreCommand :=
  if isSuccess reply.status then
    (replyRecord fingerprint reply).map (.completeIfOwner ownerToken · recordTtlMs)
  else if 500 ≤ reply.status then none
  else some (.releaseIfOwner ownerToken)

/-- The reply that repeats a record. -/
def replayReply (server : HttpServer) (status : Option Nat) (contentType body : Option String) :
    Reply :=
  server.send (status.getD 200) (some (contentType.getD "application/json"))
    ((body.map .text).getD .undefined)

/-! ## Executions -/

/-- How a handler ends: what it returns, or the document that the exception filter makes of its
error, with the status and the content type that the reply has then. -/
structure Outcome where
  failed : Bool := false
  status : Nat
  contentType : Option String := none
  value : ReturnValue
  deriving DecidableEq, Repr

/-- An execution that has ended, before or after the timeout of its request. -/
structure Execution where
  fingerprint : String
  route : Route
  outcome : Outcome
  late : Bool
  deriving DecidableEq, Repr

/-- The reply that it gives its client, or would have given it. -/
def Outcome.reply (server : HttpServer) (outcome : Outcome) : Reply :=
  server.send outcome.status outcome.contentType outcome.value

/-! ## Requests -/

/-- Where a request is.  A `refused` one has still to read the record, a `responding` one to finish
its response and a `recording` one to record its late value. -/
inductive Stage where
  | arriving
  | refused
  | claimed
  | running
  | responding (reply : Reply)
  | recording (record : IdempotencyRecord)
  | done
  deriving DecidableEq, Repr

/-- The timer of a request is cleared when its source has emitted. -/
def Stage.settled : Stage → Bool
  | arriving | refused | claimed | running => false
  | responding _ | recording _ | done => true

/-- `timedOut` says that the request has been answered with a timeout, and `listening` that the late
window is not over. -/
structure Attempt where
  fingerprint : String
  route : Route
  multipart : Bool
  timedOut : Bool := false
  listening : Bool := true
  stage : Stage := .arriving
  deriving DecidableEq, Repr

/-- What happened to the key, most recent first. -/
inductive KeyEvent where
  | started (owner : Nat)
  | finished (execution : Execution)
  | released (owner : Nat)
  | replayed (fingerprint : String) (response : Response)
  deriving DecidableEq, Repr

structure KeyWorld where
  now : Nat := 0
  stored : Option StoredRecord := none
  attempts : List Attempt := []
  log : List KeyEvent := []
  deriving DecidableEq, Repr

inductive AttemptAction where
  | setNx
  | get
  | proceed
  | finish (outcome : Outcome)
  | settle
  | record
  | timeout
  | closeWindow
  deriving DecidableEq, Repr

inductive KeyAction where
  | elapse (milliseconds : Nat)
  | arrive (fingerprint : String) (route : Route) (multipart : Bool)
  | attempt (owner : Nat) (action : AttemptAction)
  deriving DecidableEq, Repr

/-- A value after the timeout: it is recorded if it comes in the late window. -/
def Attempt.onLateValue (attempt : Attempt) (value : ReturnValue) : Stage :=
  if attempt.listening then
    match lateRecord attempt.fingerprint attempt.route value with
    | some record => .recording record
    | none => .done
  else .done

/-- The answer to a request that was refused the key, from the record that it found: a conflict, a
mismatch or a replay, unless it has been answered with a timeout. -/
def Attempt.answer (server : HttpServer) (attempt : Attempt) :
    Option IdempotencyRecord → Option Response
  | some (.completed fingerprint status contentType body) =>
      if fingerprint = attempt.fingerprint ∧ attempt.timedOut = false then
        some (server.write (replayReply server status contentType body))
      else none
  | _ => none

def KeyWorld.put (world : KeyWorld) (owner : Nat) (attempt : Attempt) : KeyWorld :=
  { world with attempts := world.attempts.set owner attempt }

section
variable (config : EnvConfig) (server : HttpServer)

/-- The stages of `acquire`, of the handler, of the `onSend` hook and of the late capture. -/
def attemptStep (world : KeyWorld) (owner : Nat) (attempt : Attempt) :
    Stage → AttemptAction → Option KeyWorld
  | .arriving, .setNx =>
      let acquire := StoreCommand.setNx attempt.fingerprint owner
        (config.lockTtlMs attempt.multipart)
      let (stored, reply) := acquire.run world.now world.stored
      some { world.put owner { attempt with
        stage := if reply = .done true then .claimed else .refused } with stored }
  | .refused, .get =>
      let found := (live world.now world.stored).map (·.record)
      let answered := world.put owner { attempt with stage := .done }
      match attempt.answer server found with
      | some response =>
          some { answered with log := .replayed attempt.fingerprint response :: world.log }
      | none => some answered
  | .claimed, .proceed =>
      -- the reply has been sent if and only if the request has timed out
      if attempt.timedOut then
        some (world.put owner { attempt with stage := attempt.onLateValue .undefined })
      else
        some { world.put owner { attempt with stage := .running } with
          log := .started owner :: world.log }
  | .running, .finish outcome =>
      let stage :=
        if attempt.timedOut then
          if outcome.failed then .done else attempt.onLateValue outcome.value
        else .responding (outcome.reply server)
      let execution : Execution := {
        fingerprint := attempt.fingerprint
        route := attempt.route
        outcome
        late := attempt.timedOut }
      some { world.put owner { attempt with stage } with log := .finished execution :: world.log }
  | .responding reply, .settle =>
      let finished := world.put owner { attempt with stage := .done }
      match finalizeCommand config.recordTtlMs attempt.fingerprint owner reply with
      | none => some finished
      | some command =>
          let (stored, result) := command.run world.now world.stored
          some { finished with
            stored
            log := if command = .releaseIfOwner owner ∧ result = .done true then
              .released owner :: world.log else world.log }
  | .recording record, .record =>
      let complete := StoreCommand.completeIfOwner owner record config.recordTtlMs
      some { world.put owner { attempt with stage := .done } with
        stored := (complete.run world.now world.stored).1 }
  | stage, .timeout =>
      if attempt.timedOut ∨ stage.settled then none
      else some (world.put owner { attempt with timedOut := true })
  | _, .closeWindow =>
      if attempt.timedOut ∧ attempt.listening then
        some (world.put owner { attempt with listening := false })
      else none
  | _, _ => none

def keyStep (world : KeyWorld) : KeyAction → Option KeyWorld
  | .elapse milliseconds => some { world with now := world.now + milliseconds }
  | .arrive fingerprint route multipart =>
      some { world with attempts := world.attempts ++ [{ fingerprint, route, multipart }] }
  | .attempt owner action => do
      let attempt ← world.attempts[owner]?
      attemptStep config server world owner attempt attempt.stage action

def keySystem : TransitionSystem KeyWorld KeyAction where
  initial world := ∃ now, world = { now }
  step := keyStep config server

end

end NestjsFastify.Idempotency
