import NestjsFastify.Base64Url
import NestjsFastify.RedisFixedWindow
import NestjsFastify.Utf8Decoding

/-! # Signing in to the queue dashboard

A request with the right credentials is let through.  Any other is counted against its address, in a
fixed window that the replicas share, and is refused in one way up to the budget and in another
beyond it.
-/
namespace NestjsFastify.BullBoardAuth
open RedisFixedWindow

/-! ### Credentials -/

structure BullBoardOptions where
  user : List Char
  password : List Char

structure BasicCredentials where
  user : List Char
  password : List Char
  deriving DecidableEq, Repr

/-- `BASIC_SCHEME` -/
def basicScheme : List Char := "basic ".toList

/-- The six bits of a character of either alphabet of base64. -/
def sextetOf (character : Char) : Option Nat :=
  if character = '+' then some 62
  else if character = '/' then some 63
  else Base64Url.sextetOf character

/-- `Buffer.from(text, 'base64')` -/
def decodeBase64 (text : List Char) : List UInt8 :=
  Base64Url.bytes ((Base64Url.unpadded text).filterMap sextetOf)

def parseBasicAuth (header : Option (List Char)) : Option BasicCredentials :=
  match header with
  | none => none
  | some header =>
    if (header.take basicScheme.length).map Char.toLower ≠ basicScheme then none
    else
      let decoded := Utf8Decoding.decode (decodeBase64 (header.drop basicScheme.length))
      -- without a colon everything is the user, and the password is empty
      some ⟨decoded.takeWhile (· ≠ ':'), (decoded.dropWhile (· ≠ ':')).drop 1⟩

/-- `Buffer.from(text)` -/
def bufferFrom (text : List Char) : List UInt8 := text.flatMap String.utf8EncodeChar

def safeEqual (first second : List Char) : Bool :=
  if (bufferFrom first).length ≠ (bufferFrom second).length then false
  else bufferFrom first = bufferFrom second

/-- `userOk && passOk` -/
def authorized (opts : BullBoardOptions) (authorization : Option (List Char)) : Bool :=
  match parseBasicAuth authorization with
  | some credentials =>
    safeEqual credentials.user opts.user && safeEqual credentials.password opts.password
  | none => false

/-! ### Answers -/

/-- What `sendProblem` is given. -/
structure Problem where
  status : Nat
  detail : String
  code : String
  headers : List (String × String)
  deriving DecidableEq, Repr

inductive Answer where
  | proceed
  | problem (problem : Problem)
  deriving DecidableEq, Repr

/-- `BULL_BOARD_AUTH_FAILURE_MAX` -/
def authFailureMax : Nat := 10

/-- `BULL_BOARD_AUTH_FAILURE_WINDOW_MS` -/
def authFailureWindowMs : Int := 60000

def unavailable : Problem where
  status := 503
  detail := "Bull Board is temporarily unavailable. Retry shortly."
  code := "service_unavailable"
  headers := [("retry-after", "5")]

def retryAfter (failure : FixedWindowState) : Int := max 1 (-(-failure.ttlMs / 1000))

def tooManyFailures (failure : FixedWindowState) : Problem where
  status := 429
  detail := "Too many failed sign-in attempts. Try again in " ++ toString (retryAfter failure) ++
    " seconds."
  code := "rate_limited"
  headers := [("retry-after", toString (retryAfter failure))]

def credentialsRequired : Problem where
  status := 401
  detail := "Valid Basic Auth credentials are required to access Bull Board."
  code := "unauthorized"
  headers := [("WWW-Authenticate", "Basic realm=\"Bull Board\"")]

def refusal (failure : FixedWindowState) : Problem :=
  if failure.count > authFailureMax then tooManyFailures failure else credentialsRequired

/-! ### The hook -/

/-- A request from the address, at the time of the store. -/
structure AuthRequest where
  now : Int
  authorization : Option (List Char)
  deriving DecidableEq, Repr

/-- `recordAuthFailure`, at the key of the address. -/
def recordAuthFailure (now : Int) (stored : Option Counter) : Counter × FixedWindowState :=
  redisFixedWindowIncr authFailureWindowMs now stored

/-- The `onRequest` hook: what the key holds afterwards, and the answer. -/
def onRequest (opts : BullBoardOptions) (storeFails : Bool) (stored : Option Counter)
    (request : AuthRequest) : Option Counter × Answer :=
  if authorized opts request.authorization then (stored, .proceed)
  else if storeFails then (stored, .problem unavailable)
  else
    let (counter, failure) := recordAuthFailure request.now stored
    (some counter, .problem (refusal failure))

/-- A request with its answer, and the key before and after it. -/
structure Exchange where
  stored : Option Counter
  request : AuthRequest
  after : Option Counter
  answer : Answer
  deriving DecidableEq, Repr

/-- The exchanges with an address while the store does not fail.  The store runs the scripts of all
replicas one after the other, and a replica keeps nothing from one request to the next. -/
def exchanges (opts : BullBoardOptions) : Option Counter → List AuthRequest → List Exchange
  | _, [] => []
  | stored, request :: requests =>
    let (after, answer) := onRequest opts false stored request
    ⟨stored, request, after, answer⟩ :: exchanges opts after requests

/-! ### The property -/

/-- More failures than the budget are counted in the window that is open. -/
def OverBudget (now : Int) (stored : Option Counter) : Prop :=
  ∃ counter, current now stored = some counter ∧ authFailureMax < counter.count

/-- The answer is the one that any wrong credentials would have had in its place. -/
def Exchange.Blind (opts : BullBoardOptions) (exchange : Exchange) : Prop :=
  ∀ authorization, authorized opts authorization = false → exchange.answer =
    (onRequest opts false exchange.stored { exchange.request with authorization }).2

/-- The exchange has opened a window. -/
def Exchange.Opens (opts : BullBoardOptions) (exchange : Exchange) : Prop :=
  authorized opts exchange.request.authorization = false ∧
    current exchange.request.now exchange.stored = none

/-- The ceiling on guesses, for the requests of an address. -/
structure GuessCeiling (opts : BullBoardOptions) (requests : List AuthRequest) : Prop where
  blind : ∀ exchange ∈ exchanges opts none requests,
    OverBudget exchange.request.now exchange.stored → exchange.Blind opts
  /-- A window is an exchange that opens it and the ones after it that do not. -/
  tested : ∀ before window after, exchanges opts none requests = before ++ window ++ after →
    (∀ exchange ∈ window.tail, ¬ exchange.Opens opts) →
      window.countP (·.answer = .problem credentialsRequired) ≤ authFailureMax
  deadline : ∀ exchange ∈ exchanges opts none requests, ∀ counter,
    current exchange.request.now exchange.stored = some counter →
      exchange.after.bind (·.expiresAt) = counter.expiresAt

/-- No right credentials come once more failures than the budget are counted. -/
def WrongOverBudget (opts : BullBoardOptions) (requests : List AuthRequest) : Prop :=
  ∀ exchange ∈ exchanges opts none requests,
    OverBudget exchange.request.now exchange.stored →
      authorized opts exchange.request.authorization = false

/-! ### One exchange -/

variable {opts : BullBoardOptions} {stored : Option Counter} {request : AuthRequest}
  {requests : List AuthRequest} {exchange : Exchange} {held : Option FixedWindow}

theorem onRequest_right (right : authorized opts request.authorization = true) :
    onRequest opts false stored request = (stored, .proceed) := if_pos right

theorem onRequest_wrong (wrong : authorized opts request.authorization = false) :
    onRequest opts false stored request = (some (recordAuthFailure request.now stored).1,
      .problem (refusal (recordAuthFailure request.now stored).2)) :=
  if_neg (by simp [wrong])

theorem exchanges_cons : exchanges opts stored (request :: requests) =
    ⟨stored, request, (onRequest opts false stored request).1,
      (onRequest opts false stored request).2⟩ ::
        exchanges opts (onRequest opts false stored request).1 requests := rfl

theorem exchange_of_mem (member : exchange ∈ exchanges opts stored requests) :
    onRequest opts false exchange.stored exchange.request = (exchange.after, exchange.answer) := by
  induction requests generalizing stored with
  | nil => cases member
  | cons request requests ih =>
    rcases List.mem_cons.mp member with rfl | later
    · rfl
    · exact ih later

/-- Wrong credentials are answered alike, whatever they are. -/
theorem blind_of_wrong (member : exchange ∈ exchanges opts stored requests)
    (wrong : authorized opts exchange.request.authorization = false) : exchange.Blind opts := by
  intro authorization other
  have own := exchange_of_mem member
  rw [onRequest_wrong wrong] at own
  rw [onRequest_wrong other, ← (Prod.mk.inj own).2]

/-- Right credentials are answered as no wrong ones are. -/
theorem not_blind_of_right (member : exchange ∈ exchanges opts stored requests)
    (right : authorized opts exchange.request.authorization = true) : ¬ exchange.Blind opts := by
  intro blind
  have own := exchange_of_mem member
  have other := blind none rfl
  rw [onRequest_right right] at own
  rw [onRequest_wrong rfl, ← (Prod.mk.inj own).2] at other
  cases other

theorem blind_iff (opts : BullBoardOptions) (requests : List AuthRequest) :
    (∀ exchange ∈ exchanges opts none requests,
      OverBudget exchange.request.now exchange.stored → exchange.Blind opts) ↔
      WrongOverBudget opts requests := by
  refine forall₂_congr fun exchange member => imp_congr_right fun _ => ?_
  constructor
  · intro blind
    by_contra right
    exact not_blind_of_right member (by simpa using right) blind
  · exact blind_of_wrong member

/-! ### The windows of an address -/

/-- The credentials were wrong. -/
def Exchange.failed (opts : BullBoardOptions) (exchange : Exchange) : Bool :=
  !authorized opts exchange.request.authorization

/-- A failure as a hit in a fixed window. -/
def Exchange.toHit (exchange : Exchange) : FixedWindow.Hit where
  now := exchange.request.now
  held := exchange.stored.map (toWindow authFailureWindowMs)
  window := toWindow authFailureWindowMs (exchange.after.getD ⟨0, none⟩)

/-- The windows that a key stands for. -/
def Counts (stored : Option Counter) (held : Option FixedWindow) : Prop :=
  (∀ window ∈ held, 1 ≤ window.count) ∧ stored = held.map (ofWindow authFailureWindowMs)

theorem Counts.hit (counts : Counts stored held) (now : Int) :
    Counts (some (recordAuthFailure now stored).1)
      (some (FixedWindow.hit (authFailureWindowMs + 1) held now)) := by
  refine ⟨fun window own => ?_, ?_⟩
  · cases own
    exact FixedWindow.count_hit_pos
  · rw [recordAuthFailure, counts.2, redisFixedWindowIncr_ofWindow counts.1]
    rfl

theorem Counts.toWindow (counts : Counts stored held) :
    stored.map (RedisFixedWindow.toWindow authFailureWindowMs) = held := by
  rw [counts.2, Option.map_map]
  cases held <;> simp

theorem counts_of_mem (counts : Counts stored held)
    (member : exchange ∈ exchanges opts stored requests) :
    ∃ held, Counts exchange.stored held := by
  induction requests generalizing stored held with
  | nil => cases member
  | cons request requests ih =>
    rw [exchanges_cons] at member
    rcases List.mem_cons.mp member with rfl | later
    · exact ⟨held, counts⟩
    · cases right : authorized opts request.authorization with
      | true =>
        rw [onRequest_right right] at later
        exact ih counts later
      | false =>
        rw [onRequest_wrong right] at later
        exact ih (counts.hit request.now) later

/-- The failures are hits in fixed windows; the other requests leave no trace. -/
theorem toHit_failed (counts : Counts stored held) :
    ((exchanges opts stored requests).filter (·.failed opts)).map (·.toHit) =
      FixedWindow.hits (authFailureWindowMs + 1) held
        ((requests.filter fun request => !authorized opts request.authorization).map
          (·.now)) := by
  induction requests generalizing stored held with
  | nil => rfl
  | cons request requests ih =>
    cases right : authorized opts request.authorization with
    | true =>
      rw [exchanges_cons, onRequest_right right, List.filter_cons_of_neg (by simp [Exchange.failed, right]),
        List.filter_cons_of_neg (by simp [right])]
      exact ih counts
    | false =>
      have next := counts.hit request.now
      rw [exchanges_cons, onRequest_wrong right,
        List.filter_cons_of_pos (by simp [Exchange.failed, right]),
        List.filter_cons_of_pos (by simp [right]), List.map_cons, List.map_cons, FixedWindow.hits,
        ih next]
      congr 1
      rw [Exchange.toHit, counts.toWindow]
      congr 1
      exact Option.some.inj next.toWindow

/-- The credentials were asked for when they were wrong and the count was within the budget. -/
theorem credentialsRequired_iff (member : exchange ∈ exchanges opts stored requests) :
    exchange.answer = .problem credentialsRequired ↔
      exchange.toHit.window.count ≤ authFailureMax ∧ exchange.failed opts = true := by
  have own := exchange_of_mem member
  cases right : authorized opts exchange.request.authorization with
  | true =>
    rw [onRequest_right right] at own
    simp [← (Prod.mk.inj own).2, Exchange.failed, right]
  | false =>
    rw [onRequest_wrong right] at own
    obtain ⟨after, answer⟩ := Prod.mk.inj own
    have count : exchange.toHit.window.count =
        (recordAuthFailure exchange.request.now exchange.stored).2.count := by
      rw [Exchange.toHit, ← after]
      rfl
    rw [← answer, count, refusal]
    split_ifs with exceeded
    · simp [tooManyFailures, credentialsRequired, exceeded]
    · simp [Exchange.failed, right, Nat.not_lt.mp exceeded]

theorem opens_toHit (counts : Counts exchange.stored held) (wrong : exchange.failed opts = true)
    (opens : FixedWindow.Opens (authFailureWindowMs + 1) exchange.toHit.held exchange.toHit.now) :
    exchange.Opens opts := by
  refine ⟨by simpa [Exchange.failed] using wrong, ?_⟩
  rw [counts.2, current_ofWindow, if_pos]
  rwa [Exchange.toHit, counts.toWindow] at opens

/-! ### The ceiling -/

private theorem counts_none : Counts none none :=
  ⟨fun _ own => absurd own (Option.not_mem_none _), rfl⟩

theorem tested_of_window {before window after : List Exchange}
    (split : exchanges opts none requests = before ++ window ++ after)
    (inside : ∀ exchange ∈ window.tail, ¬ exchange.Opens opts) :
    window.countP (·.answer = .problem credentialsRequired) ≤ authFailureMax := by
  have member : ∀ exchange ∈ window, exchange ∈ exchanges opts none requests := by
    intro exchange own
    rw [split]
    exact List.mem_append_left _ (List.mem_append_right _ own)
  have counted : window.countP (·.answer = .problem credentialsRequired) =
      ((window.filter (·.failed opts)).map (·.toHit)).countP (·.window.count ≤ authFailureMax) := by
    rw [List.countP_map, List.countP_filter]
    refine List.countP_congr fun exchange own => ?_
    simp [credentialsRequired_iff (member exchange own)]
  have hits := @toHit_failed opts none requests none counts_none
  rw [split, List.filter_append, List.filter_append, List.map_append, List.map_append] at hits
  rw [counted]
  refine FixedWindow.countP_window hits.symm ?_
  rw [← List.map_tail]
  refine List.forall_mem_map.mpr fun exchange later opens => ?_
  have failed : exchange.failed opts = true :=
    (List.mem_filter.mp (List.mem_of_mem_tail later)).2
  have listed : exchange ∈ window.tail := List.filter_sublist.tail.subset later
  obtain ⟨held, counts⟩ := counts_of_mem counts_none
    (member exchange (List.mem_of_mem_tail listed))
  exact inside exchange listed (opens_toHit counts failed opens)

/-- The expiry of a key that lives stays as it is. -/
theorem deadline_kept {counter : Counter} (member : exchange ∈ exchanges opts none requests)
    (lives : current exchange.request.now exchange.stored = some counter) :
    exchange.after.bind (·.expiresAt) = counter.expiresAt := by
  obtain ⟨held, counted, stored⟩ := counts_of_mem counts_none member
  have own := exchange_of_mem member
  have found : exchange.stored = some counter := (Option.filter_eq_some_iff.mp lives).1
  cases right : authorized opts exchange.request.authorization with
  | true =>
    rw [onRequest_right right] at own
    rw [← (Prod.mk.inj own).1, found]
    rfl
  | false =>
    rw [onRequest_wrong right] at own
    rw [← (Prod.mk.inj own).1, Option.bind_some]
    refine expiresAt_redisFixedWindowIncr lives ?_
    rw [found] at stored
    obtain ⟨window, rfl, rfl⟩ := Option.map_eq_some_iff.mp stored.symm
    exact counted window rfl

def sampleOptions : BullBoardOptions := ⟨"admin".toList, "secret".toList⟩

/-- Eleven requests without credentials, and one with the right ones in the same window. -/
def elevenGuesses : List AuthRequest :=
  List.replicate 11 ⟨0, none⟩ ++ [⟨1, some "Basic YWRtaW46c2VjcmV0".toList⟩]

end NestjsFastify.BullBoardAuth
