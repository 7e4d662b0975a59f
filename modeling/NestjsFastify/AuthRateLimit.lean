import NestjsFastify.RedisFixedWindow
import NestjsFastify.ScriptText
import NestjsFastify.WsMessageLimit

/-! # The budget of an account

Requests with credentials are counted against the account that they name, whatever address they
come from, in a fixed window that the replicas share.  The store may fail, before or after it has
counted.
-/
namespace NestjsFastify.AuthRateLimit
open RedisFixedWindow
open ScriptText (trim)
open WsMessageLimit (ceilSeconds)

def strictAuthPaths : List String :=
  ["/api/auth/sign-in/email", "/api/auth/sign-up/email", "/api/auth/request-password-reset",
    "/api/auth/reset-password"]

def retryAfterAuthUnavailableSeconds : Int := 5

structure AuthRateLimitConfig where
  authRateLimitMax : Nat
  authRateLimitWindowMs : Int
  authRateLimitFailOpen : Bool

/-- The digest and the lower case of the platform. -/
structure Platform where
  sha256Hex : List Char → String
  toLowerCase : List Char → List Char

/-- Whether the store answers, or fails although it has counted or not. -/
inductive StoreCourse where
  | answers
  | fails (counted : Bool)
  deriving DecidableEq, Repr

/-- The route that the server has matched, the email of the body if it is a text, and how the call
of the store will go. -/
structure AuthRequest where
  now : Int
  matchedRoute : Option String
  email : Option (List Char)
  store : StoreCourse

structure ProblemReply where
  status : Nat
  detail : String
  retryAfterHeader : String
  retryAfter : Option Int := none
  deriving DecidableEq, Repr

def tooManyRequests (retryAfter : Int) : ProblemReply where
  status := 429
  detail := "Rate limit exceeded. Try again in " ++ toString retryAfter ++ " seconds."
  retryAfterHeader := toString retryAfter
  retryAfter := some retryAfter

def authUnavailable : ProblemReply where
  status := 503
  detail := "Authentication is temporarily unavailable. Retry shortly."
  retryAfterHeader := toString retryAfterAuthUnavailableSeconds

abbrev Store : Type := String → Option Counter

section Hook
variable (platform : Platform) (config : AuthRateLimitConfig)

/-- The key of the account that a request is counted against, if it is. -/
def accountKey (request : AuthRequest) : Option String :=
  if request.matchedRoute.all (· ∉ strictAuthPaths) then none
  else
    match request.email with
    | none => none
    | some email =>
        let email := platform.toLowerCase (trim email)
        if email = [] then none else some ("auth:account:" ++ platform.sha256Hex email)

/-- What the store holds after the hook, and how the hook ends. -/
def preHandler (store : Store) (request : AuthRequest) : Store × Except ProblemReply Unit :=
  match accountKey platform request with
  | none => (store, .ok ())
  | some key =>
      let (counter, window) :=
        redisFixedWindowIncr config.authRateLimitWindowMs request.now (store key)
      match request.store with
      | .answers =>
          (Function.update store key (some counter),
            if window.count ≤ config.authRateLimitMax then .ok ()
            else .error (tooManyRequests (max 1 (ceilSeconds window.ttlMs))))
      | .fails counted =>
          (if counted then Function.update store key (some counter) else store,
            if config.authRateLimitFailOpen then .ok () else .error authUnavailable)

/-- A request, and how the hook has ended for it. -/
structure Exchange where
  request : AuthRequest
  outcome : Except ProblemReply Unit

/-- The requests that come to all replicas, in the order in which the store gets them. -/
def serve : Store → List AuthRequest → List Exchange
  | _, [] => []
  | store, request :: later =>
      let (store, outcome) := preHandler platform config store request
      ⟨request, outcome⟩ :: serve store later

/-- The request was let through after the store had counted it against the account. -/
def Exchange.Counted (key : String) (exchange : Exchange) : Prop :=
  accountKey platform exchange.request = some key ∧ exchange.request.store = .answers ∧
    exchange.outcome.isOk = true

instance (key : String) (exchange : Exchange) : Decidable (exchange.Counted platform key) :=
  inferInstanceAs (Decidable (_ ∧ _ ∧ _))

/-- What holds of the requests that name accounts. -/
structure AccountLimited (exchanges : List Exchange) : Prop where
  /-- A window of the store is a millisecond longer than configured. -/
  interval : ∀ key start, (exchanges.countP fun exchange => exchange.Counted platform key ∧
    start ≤ exchange.request.now ∧
      exchange.request.now < start + (config.authRateLimitWindowMs + 1)) ≤
        2 * config.authRateLimitMax
  /-- Nobody else is let through but those for whom the store has failed under fail-open. -/
  passed : ∀ exchange ∈ exchanges, ∀ key, accountKey platform exchange.request = some key →
    exchange.outcome.isOk = true → exchange.Counted platform key ∨
      config.authRateLimitFailOpen = true ∧ exchange.request.store ≠ .answers
  failClosed : config.authRateLimitFailOpen = false → ∀ key start,
    (exchanges.countP fun exchange => accountKey platform exchange.request = some key ∧
      exchange.outcome.isOk = true ∧ start ≤ exchange.request.now ∧
        exchange.request.now < start + (config.authRateLimitWindowMs + 1)) ≤
          2 * config.authRateLimitMax
  /-- Other accounts and other routes do not matter. -/
  apart : ∀ key, (exchanges.filter fun exchange =>
      accountKey platform exchange.request = some key) =
    serve platform config (fun _ => none) ((exchanges.map Exchange.request).filter fun request =>
      accountKey platform request = some key)
  /-- Whoever waits longer than told is let through, if nobody else tries the account meanwhile. -/
  waited : 1 ≤ config.authRateLimitMax → ∀ before first middle second after,
    exchanges = before ++ first :: middle ++ second :: after → ∀ key retryAfter,
    accountKey platform first.request = some key →
    first.outcome = .error (tooManyRequests retryAfter) →
    (∀ exchange ∈ middle, accountKey platform exchange.request ≠ some key) →
    accountKey platform second.request = some key → second.request.store = .answers →
    first.request.now + 1000 * retryAfter < second.request.now →
      second.outcome.isOk = true

end Hook

/-! ### One request -/

section Step
variable {platform : Platform} {config : AuthRateLimitConfig} {store : Store}
  {request : AuthRequest} {key : String} {held : Option FixedWindow}

/-- The key holds a window, if anything. -/
def Holds (config : AuthRateLimitConfig) (store : Store) (key : String)
    (held : Option FixedWindow) : Prop :=
  store key = held.map (ofWindow config.authRateLimitWindowMs) ∧
    ∀ window ∈ held, 1 ≤ window.count

/-- The script goes on with the window that the key holds. -/
theorem Holds.incr (holds : Holds config store key held) (now : Int) :
    (redisFixedWindowIncr config.authRateLimitWindowMs now (store key)).1 =
      ofWindow config.authRateLimitWindowMs
        (FixedWindow.hit (config.authRateLimitWindowMs + 1) held now) := by
  rw [holds.1]
  exact redisFixedWindowIncr_ofWindow holds.2

/-- The store counts the request against the account. -/
def Counts (platform : Platform) (key : String) (request : AuthRequest) : Prop :=
  accountKey platform request = some key ∧ request.store ≠ .fails false

instance (key : String) (request : AuthRequest) : Decidable (Counts platform key request) :=
  inferInstanceAs (Decidable (_ ∧ _))

/-- A request that is not counted against the account leaves what its key holds. -/
theorem preHandler_of_not_counts (other : ¬Counts platform key request) :
    (preHandler platform config store request).1 key = store key := by
  unfold preHandler
  cases account : accountKey platform request with
  | none => rfl
  | some own =>
    by_cases same : own = key
    · subst same
      have fails : request.store = .fails false := by
        by_contra counted
        exact other ⟨account, counted⟩
      simp [fails]
    · cases request.store with
      | answers => exact Function.update_of_ne (Ne.symm same) _ _
      | fails counted =>
        cases counted with
        | false => rfl
        | true => exact Function.update_of_ne (Ne.symm same) _ _

/-- A request that is counted is counted in a fixed window. -/
theorem preHandler_of_counts (holds : Holds config store key held)
    (counts : Counts platform key request) :
    Holds config (preHandler platform config store request).1 key
      (some (FixedWindow.hit (config.authRateLimitWindowMs + 1) held request.now)) := by
  obtain ⟨account, counted⟩ := counts
  have next := holds.incr request.now
  refine ⟨?_, ?_⟩
  · rw [Option.map_some, ← next]
    unfold preHandler
    rw [account]
    cases course : request.store with
    | answers => simp
    | fails written =>
      cases written with
      | false => exact absurd course counted
      | true => simp
  · rintro window ⟨rfl⟩
    exact FixedWindow.count_hit_pos

/-- Whoever is let through by the store was counted up to the maximum. -/
theorem count_le_of_isOk (holds : Holds config store key held)
    (account : accountKey platform request = some key) (answers : request.store = .answers)
    (passed : (preHandler platform config store request).2.isOk = true) :
    (FixedWindow.hit (config.authRateLimitWindowMs + 1) held request.now).count ≤
      config.authRateLimitMax := by
  have next := holds.incr request.now
  simp only [preHandler, account, answers] at passed
  split_ifs at passed with within
  · rw [count_redisFixedWindowIncr, next] at within
    exact within
  · cases passed

end Step

/-! ### All requests -/

section Serve
variable {platform : Platform} {config : AuthRateLimitConfig} {store : Store}
  {requests : List AuthRequest} {key : String}

theorem serve_cons (store : Store) (request : AuthRequest) (later : List AuthRequest) :
    serve platform config store (request :: later) =
      ⟨request, (preHandler platform config store request).2⟩ ::
        serve platform config (preHandler platform config store request).1 later :=
  rfl

theorem map_request_serve (store : Store) (requests : List AuthRequest) :
    (serve platform config store requests).map Exchange.request = requests := by
  induction requests generalizing store with
  | nil => rfl
  | cons request requests ih =>
    rw [serve_cons, List.map_cons, ih]

/-- What the store holds after the requests. -/
def stored (platform : Platform) (config : AuthRateLimitConfig) :
    Store → List AuthRequest → Store
  | store, [] => store
  | store, request :: later =>
      stored platform config (preHandler platform config store request).1 later

theorem serve_append (store : Store) (early late : List AuthRequest) :
    serve platform config store (early ++ late) = serve platform config store early ++
      serve platform config (stored platform config store early) late := by
  induction early generalizing store with
  | nil => rfl
  | cons request early ih =>
    rw [List.cons_append, serve_cons, serve_cons, ih, List.cons_append, stored]

/-- A part of the exchanges is what comes of its own requests. -/
theorem serve_split {before after : List Exchange}
    (split : serve platform config store requests = before ++ after) :
    before = serve platform config store (before.map Exchange.request) ∧
      after = serve platform config (stored platform config store (before.map Exchange.request))
        (after.map Exchange.request) := by
  have own : (serve platform config store requests).map Exchange.request = requests :=
    map_request_serve store requests
  rw [split, List.map_append] at own
  rw [← own, serve_append] at split
  have same : (serve platform config store (before.map Exchange.request)).length =
      before.length := by
    rw [← List.length_map (f := Exchange.request), map_request_serve, List.length_map]
  obtain ⟨first, second⟩ := List.append_inj split same
  exact ⟨first.symm, second.symm⟩

/-- Whoever is let through is counted in a window of its account. -/
theorem countP_serve {held : Option FixedWindow} (holds : Holds config store key held)
    (start : Int) :
    ((serve platform config store requests).countP fun exchange =>
      exchange.Counted platform key ∧ start ≤ exchange.request.now ∧
        exchange.request.now < start + (config.authRateLimitWindowMs + 1)) ≤
    (FixedWindow.hits (config.authRateLimitWindowMs + 1) held
      ((requests.filter fun request => Counts platform key request).map AuthRequest.now)).countP
        (·.Counted config.authRateLimitMax (config.authRateLimitWindowMs + 1) start) := by
  induction requests generalizing store held with
  | nil => exact Nat.le_refl _
  | cons request requests ih =>
    rw [serve_cons, List.countP_cons]
    by_cases counts : Counts platform key request
    · have tail := ih (preHandler_of_counts holds counts)
      rw [List.filter_cons_of_pos (by simpa using counts), List.map_cons, FixedWindow.hits,
        List.countP_cons]
      by_cases passed : (⟨request, (preHandler platform config store request).2⟩ :
          Exchange).Counted platform key ∧ start ≤ request.now ∧
            request.now < start + (config.authRateLimitWindowMs + 1)
      · obtain ⟨⟨account, answers, ok⟩, within⟩ := passed
        have few := count_le_of_isOk holds account answers ok
        rw [if_pos (decide_eq_true ⟨⟨account, answers, ok⟩, within⟩),
          if_pos (decide_eq_true ⟨few, within⟩)]
        omega
      · rw [if_neg (by simpa using passed)]
        omega
    · have same : (preHandler platform config store request).1 key = store key :=
        preHandler_of_not_counts counts
      have kept : Holds config (preHandler platform config store request).1 key held :=
        ⟨same.trans holds.1, holds.2⟩
      have tail := ih kept
      rw [List.filter_cons_of_neg (by simpa using counts), if_neg]
      · exact tail
      · rw [decide_eq_true_iff]
        rintro ⟨⟨account, answers, -⟩, -⟩
        exact counts ⟨account, by simp [show request.store = .answers from answers]⟩

/-- What a key holds after requests, none of which is counted against it. -/
theorem stored_of_others
    (others : ∀ request ∈ requests, accountKey platform request ≠ some key) :
    stored platform config store requests key = store key := by
  induction requests generalizing store with
  | nil => rfl
  | cons request requests ih =>
    obtain ⟨here, later⟩ := List.forall_mem_cons.mp others
    rw [stored, ih later, preHandler_of_not_counts fun counts => here counts.1]

/-- After any requests every key holds a window, if anything. -/
theorem holds_stored (windows : ∀ key, ∃ held, Holds config store key held) (key : String) :
    ∃ held, Holds config (stored platform config store requests) key held := by
  induction requests generalizing store with
  | nil => exact windows key
  | cons request requests ih =>
    apply ih
    intro key
    obtain ⟨held, holds⟩ := windows key
    by_cases counts : Counts platform key request
    · exact ⟨_, preHandler_of_counts holds counts⟩
    · have same : (preHandler platform config store request).1 key = store key :=
        preHandler_of_not_counts counts
      exact ⟨held, same.trans holds.1, holds.2⟩

/-- How the hook ends depends on what the key of the request holds. -/
theorem preHandler_congr {other : Store} {request : AuthRequest}
    (account : accountKey platform request = some key) (same : store key = other key) :
    (preHandler platform config store request).1 key =
        (preHandler platform config other request).1 key ∧
      (preHandler platform config store request).2 =
        (preHandler platform config other request).2 := by
  unfold preHandler
  rw [account]
  cases request.store with
  | answers => simp [same]
  | fails counted => cases counted <;> simp [same]

theorem filter_serve {other : Store} (same : store key = other key) :
    ((serve platform config store requests).filter fun exchange =>
      accountKey platform exchange.request = some key) =
    serve platform config other (requests.filter fun request =>
      accountKey platform request = some key) := by
  induction requests generalizing store other with
  | nil => rfl
  | cons request requests ih =>
    rw [serve_cons]
    by_cases account : accountKey platform request = some key
    · have both : (preHandler platform config store request).1 key =
            (preHandler platform config other request).1 key ∧
          (preHandler platform config store request).2 =
            (preHandler platform config other request).2 :=
        preHandler_congr account same
      rw [List.filter_cons_of_pos (by simpa using account),
        List.filter_cons_of_pos (by simpa using account), serve_cons, ih both.1, both.2]
    · have kept : (preHandler platform config store request).1 key = store key :=
        preHandler_of_not_counts fun counts => account counts.1
      rw [List.filter_cons_of_neg (by simpa using account),
        List.filter_cons_of_neg (by simpa using account)]
      exact ih (kept.trans same)

/-- A refused request has found a full window, which is over after the time that the reply tells. -/
theorem window_of_tooManyRequests {request : AuthRequest} {retryAfter : Int}
    {held : Option FixedWindow} (holds : Holds config store key held)
    (account : accountKey platform request = some key)
    (refused : (preHandler platform config store request).2 =
      .error (tooManyRequests retryAfter)) :
    ∃ window, Holds config (preHandler platform config store request).1 key (some window) ∧
      window.startedAt + config.authRateLimitWindowMs ≤ request.now + 1000 * retryAfter := by
  have answers : request.store = .answers := by
    cases course : request.store with
    | answers => rfl
    | fails counted =>
      simp only [preHandler, account, course] at refused
      split_ifs at refused
      simp [authUnavailable, tooManyRequests] at refused
  refine ⟨_, preHandler_of_counts holds ⟨account, by simp [answers]⟩, ?_⟩
  have next := holds.incr request.now
  simp only [preHandler, account, answers] at refused
  split_ifs at refused
  have same := congrArg ProblemReply.retryAfter (Except.error.inj refused)
  simp only [tooManyRequests, Option.some.injEq] at same
  have ttl : (redisFixedWindowIncr config.authRateLimitWindowMs request.now (store key)).2.ttlMs =
      max 0 (pttl request.now
        (redisFixedWindowIncr config.authRateLimitWindowMs request.now (store key)).1) := rfl
  rw [next] at ttl
  simp only [pttl, ofWindow] at ttl
  rw [ttl, ceilSeconds] at same
  omega

/-- The first request after the end of the window is let through. -/
theorem isOk_of_opens {request : AuthRequest} {window : FixedWindow}
    (positive : 1 ≤ config.authRateLimitMax) (holds : Holds config store key (some window))
    (account : accountKey platform request = some key) (answers : request.store = .answers)
    (past : window.startedAt + config.authRateLimitWindowMs < request.now) :
    (preHandler platform config store request).2.isOk = true := by
  have next := holds.incr request.now
  have opens : FixedWindow.Opens (config.authRateLimitWindowMs + 1) (some window) request.now :=
    FixedWindow.opens_some.mpr (by omega)
  simp only [preHandler, account, answers]
  rw [count_redisFixedWindowIncr, next, FixedWindow.hit_of_opens opens, if_pos]
  · rfl
  · exact positive

/-- The requests that name an account and are let through, though the store has not counted them up to
the maximum, are those for which it has failed under fail-open. -/
theorem counted_of_isOk {exchange : Exchange}
    (member : exchange ∈ serve platform config store requests)
    (account : accountKey platform exchange.request = some key)
    (ok : exchange.outcome.isOk = true) : exchange.Counted platform key ∨
      config.authRateLimitFailOpen = true ∧ exchange.request.store ≠ .answers := by
  obtain ⟨before, after, split⟩ := List.append_of_mem member
  obtain ⟨-, rest⟩ := serve_split split
  rw [List.map_cons, serve_cons] at rest
  obtain ⟨own, -⟩ := List.cons.inj rest
  cases course : exchange.request.store with
  | answers => exact .inl ⟨account, course, ok⟩
  | fails counted =>
    refine .inr ⟨?_, by simp⟩
    rw [own] at ok
    by_contra closed
    simp [preHandler, account, course, closed, Except.isOk, Except.toBool] at ok

/-- The hook keeps its promises for any requests that the store gets in the order of its clock. -/
theorem accountLimited (platform : Platform) (config : AuthRateLimitConfig)
    {requests : List AuthRequest}
    (sorted : requests.Pairwise fun first second => first.now ≤ second.now) :
    AccountLimited platform config (serve platform config (fun _ => none) requests) := by
  have empty : ∀ key, Holds config (fun _ => none) key none := by
    intro key
    exact ⟨rfl, by simp⟩
  have interval : ∀ key start, ((serve platform config (fun _ => none) requests).countP
      fun exchange => exchange.Counted platform key ∧ start ≤ exchange.request.now ∧
        exchange.request.now < start + (config.authRateLimitWindowMs + 1)) ≤
          2 * config.authRateLimitMax := by
    intro key start
    refine (countP_serve (empty key) start).trans (FixedWindow.countP_interval ?_)
    apply List.pairwise_map.mpr
    exact sorted.filter _
  constructor
  case interval => exact interval
  case passed => exact fun exchange member key => counted_of_isOk member
  case failClosed =>
    intro closed key start
    refine le_trans (List.countP_mono_left fun exchange member selected => ?_) (interval key start)
    obtain ⟨account, ok, within⟩ := of_decide_eq_true selected
    apply decide_eq_true
    refine ⟨(counted_of_isOk member account ok).resolve_right ?_, within⟩
    rintro ⟨opened, -⟩
    exact Bool.noConfusion (opened.symm.trans closed)
  case apart =>
    intro key
    rw [map_request_serve]
    exact filter_serve rfl
  case waited =>
    intro positive before first middle second after split key retryAfter account refused others
      account' answers later
    rw [List.append_assoc, List.cons_append] at split
    obtain ⟨-, rest⟩ := serve_split split
    obtain ⟨held, holds⟩ : ∃ held, Holds config
        (stored platform config (fun _ => none) (before.map Exchange.request)) key held :=
      holds_stored (fun key => ⟨none, empty key⟩) key
    rw [List.map_cons, serve_cons] at rest
    obtain ⟨own, rest⟩ := List.cons.inj rest
    rw [own] at refused
    obtain ⟨window, holds, ends⟩ := window_of_tooManyRequests holds account refused
    obtain ⟨-, rest⟩ := serve_split rest.symm
    rw [List.map_cons, serve_cons] at rest
    obtain ⟨own, -⟩ := List.cons.inj rest
    have kept : ∀ store, stored platform config store (middle.map Exchange.request) key =
        store key := by
      intro store
      apply stored_of_others
      intro request member
      obtain ⟨exchange, among, rfl⟩ := List.mem_map.mp member
      exact others exchange among
    rw [own]
    exact isOk_of_opens positive ⟨(kept _).trans holds.1, holds.2⟩ account' answers (by omega)

end Serve

/-- Two spellings of one email, the second one too early for a budget of one; then the store fails,
and then the client has waited. -/
theorem accountLimited_example :
    AccountLimited ⟨String.ofList, List.map Char.toLower⟩ ⟨1, 60000, true⟩
      (serve ⟨String.ofList, List.map Char.toLower⟩ ⟨1, 60000, true⟩ (fun _ => none)
        [⟨0, some "/api/auth/sign-in/email", some "Ann@example.org".toList, .answers⟩,
          ⟨5000, some "/api/auth/sign-in/email", some " ann@example.org".toList, .answers⟩,
          ⟨6000, some "/api/auth/sign-in/email", some "ann@example.org".toList, .fails false⟩,
          ⟨60001, some "/api/auth/sign-in/email", some "ann@example.org".toList, .answers⟩]) :=
  accountLimited _ _ (by decide)

end NestjsFastify.AuthRateLimit
