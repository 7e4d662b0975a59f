import NestjsFastify.FixedWindow

/-! # The cap on the messages of a web socket

The inbound frames of a socket are counted in fixed windows, in memory.  A frame over the budget is
answered with an error, and the socket stays open.
-/
namespace NestjsFastify.WsMessageLimit

structure WsMessageRateLimitOptions where
  max : Nat
  windowMs : Int

structure WsMessageBudget where
  windowStartedAt : Int
  count : Nat
  deriving DecidableEq, Repr

/-- `Math.ceil(milliseconds / 1000)` -/
def ceilSeconds (milliseconds : Int) : Int := -(-milliseconds / 1000)

def WsMessageBudget.retryAfterMs (options : WsMessageRateLimitOptions) (budget : WsMessageBudget)
    (now : Int) : Int :=
  options.windowMs - (now - budget.windowStartedAt)

def tooManyMessages (options : WsMessageRateLimitOptions) (retryAfterMs : Int) : String :=
  "TOO_MANY_MESSAGES: message rate limit exceeded (" ++ toString options.max ++ " per " ++
    toString options.windowMs ++ "ms); retry in " ++ toString (ceilSeconds retryAfterMs) ++ "s"

/-- What the socket holds after a frame, and what the middleware passes to `next`. -/
def applyWsMessageRateLimit (options : WsMessageRateLimitOptions)
    (messageBudget : Option WsMessageBudget) (now : Int) : WsMessageBudget × Except String Unit :=
  match messageBudget with
  | none => (⟨now, 1⟩, .ok ())
  | some budget =>
    if now - budget.windowStartedAt ≥ options.windowMs then (⟨now, 1⟩, .ok ())
    else
      let budget := { budget with count := budget.count + 1 }
      if budget.count > options.max then
        (budget, .error (tooManyMessages options (budget.retryAfterMs options now)))
      else (budget, .ok ())

/-- A frame that was received: the budget before it and after it, and the outcome. -/
structure WsFrame where
  now : Int
  held : Option WsMessageBudget
  messageBudget : WsMessageBudget
  outcome : Except String Unit

def WsFrame.accepted (frame : WsFrame) : Bool := frame.outcome.isOk

/-- The frame has found no window that was still open. -/
def WsFrame.Opens (options : WsMessageRateLimitOptions) (frame : WsFrame) : Prop :=
  ∀ budget ∈ frame.held, frame.now - budget.windowStartedAt ≥ options.windowMs

/-- The frames of a socket that come at these times. -/
def received (options : WsMessageRateLimitOptions) :
    Option WsMessageBudget → List Int → List WsFrame
  | _, [] => []
  | held, now :: later =>
    let (messageBudget, outcome) := applyWsMessageRateLimit options held now
    ⟨now, held, messageBudget, outcome⟩ :: received options (some messageBudget) later

/-! ### The property -/

/-- What holds of the frames that a socket has received. -/
structure MessageLimit (options : WsMessageRateLimitOptions) (frames : List WsFrame) : Prop where
  /-- A window is a frame that opens it and the ones after it that do not. -/
  window : ∀ before window after, frames = before ++ window ++ after →
    (∀ frame ∈ window.tail, ¬ frame.Opens options) → window.countP (·.accepted) ≤ options.max
  interval : ∀ start, (frames.countP fun frame => frame.accepted ∧ start ≤ frame.now ∧
    frame.now < start + options.windowMs) ≤ 2 * options.max
  kept : ∀ frame ∈ frames, frame.accepted = false → ∃ budget, frame.held = some budget ∧
    frame.messageBudget.windowStartedAt = budget.windowStartedAt
  /-- The frames that were accepted would have been, in the same windows, without the others. -/
  dropped : (received options none ((frames.filter (·.accepted)).map (·.now))).map
      (fun frame => (frame.now, frame.messageBudget, frame.accepted)) =
    (frames.filter (·.accepted)).map
      fun frame => (frame.now, frame.messageBudget, frame.accepted)
  pause : ∀ before first second after, frames = before ++ first :: second :: after →
    first.now + options.windowMs ≤ second.now → second.accepted = true

/-! ### The budget as a window -/

def WsMessageBudget.toWindow (budget : WsMessageBudget) : FixedWindow :=
  ⟨budget.windowStartedAt, budget.count⟩

def WsFrame.toHit (frame : WsFrame) : FixedWindow.Hit :=
  ⟨frame.now, frame.held.map (·.toWindow), frame.messageBudget.toWindow⟩

variable {options : WsMessageRateLimitOptions} {held : Option WsMessageBudget} {now : Int}
  {times : List Int} {frame : WsFrame}

/-- The budget counts the frames in fixed windows. -/
theorem toWindow_apply :
    (applyWsMessageRateLimit options held now).1.toWindow =
      FixedWindow.hit options.windowMs (held.map (·.toWindow)) now := by
  cases held with
  | none => rfl
  | some budget =>
    simp only [applyWsMessageRateLimit, FixedWindow.hit, Option.map_some,
      WsMessageBudget.toWindow, ge_iff_le]
    split_ifs <;> rfl

/-- The middleware accepts what is counted up to the maximum. -/
theorem accepts_iff (positive : 1 ≤ options.max) :
    (applyWsMessageRateLimit options held now).2.isOk = true ↔
      (applyWsMessageRateLimit options held now).1.count ≤ options.max := by
  cases held with
  | none => simpa [applyWsMessageRateLimit, Except.toBool] using positive
  | some budget =>
    simp only [applyWsMessageRateLimit]
    split_ifs with passed full
    · simpa [Except.toBool] using positive
    · simpa [Except.toBool] using full
    · simpa [Except.toBool] using full

theorem received_toHit :
    (received options held times).map (·.toHit) =
      FixedWindow.hits options.windowMs (held.map (·.toWindow)) times := by
  induction times generalizing held with
  | nil => rfl
  | cons now times ih =>
    rw [received, List.map_cons, ih, Option.map_some, toWindow_apply, FixedWindow.hits,
      WsFrame.toHit, toWindow_apply]

theorem opens_toHit : FixedWindow.Opens options.windowMs frame.toHit.held frame.toHit.now ↔
    frame.Opens options := by
  simp [FixedWindow.Opens, WsFrame.Opens, WsFrame.toHit, WsMessageBudget.toWindow]

/-- A frame that was received is the middleware's work on the budget that it has found. -/
theorem frame_of_received (member : frame ∈ received options held times) :
    (frame.messageBudget, frame.outcome) = applyWsMessageRateLimit options frame.held frame.now := by
  induction times generalizing held with
  | nil => simp [received] at member
  | cons now times ih =>
    rcases List.mem_cons.mp member with rfl | later
    · rfl
    · exact ih later

theorem accepted_of_opens (member : frame ∈ received options held times)
    (opens : frame.Opens options) : frame.accepted = true := by
  have own := frame_of_received member
  unfold WsFrame.accepted
  cases found : frame.held with
  | none =>
    rw [found] at own
    rw [(Prod.mk.inj own).2]
    rfl
  | some budget =>
    rw [found, applyWsMessageRateLimit, if_pos (opens budget found)] at own
    rw [(Prod.mk.inj own).2]
    rfl

theorem accepted_iff (positive : 1 ≤ options.max) (member : frame ∈ received options held times) :
    frame.accepted = true ↔ frame.toHit.window.count ≤ options.max := by
  have own := frame_of_received member
  have accepts := @accepts_iff options frame.held frame.now positive
  rw [← own] at accepts
  exact accepts

theorem filter_accepted (positive : 1 ≤ options.max) :
    ((received options held times).filter (·.accepted)).map (·.toHit) =
      (FixedWindow.hits options.windowMs (held.map (·.toWindow)) times).filter
        (·.window.count ≤ options.max) := by
  rw [← received_toHit, List.filter_map]
  congr 1
  refine List.filter_congr fun frame member => ?_
  rw [Bool.eq_iff_iff, accepted_iff positive member]
  simp

theorem countP_accepted (positive : 1 ≤ options.max) {frames : List WsFrame}
    (own : ∀ frame ∈ frames, frame ∈ received options held times) :
    frames.countP (·.accepted) =
      (frames.map (·.toHit)).countP (·.window.count ≤ options.max) := by
  rw [List.countP_map]
  refine List.countP_congr fun frame member => ?_
  rw [accepted_iff positive (own frame member)]
  simp

/-- What the fixed windows tell of a frame. -/
private theorem shown (positive : 1 ≤ options.max)
    {frames : List WsFrame} (own : ∀ frame ∈ frames, frame ∈ received options held times) :
    (frames.map fun frame => (frame.now, frame.messageBudget, frame.accepted)) =
      ((frames.map (·.toHit)).map fun hit => (hit.now, hit.window)).map fun (now, window) =>
        (now, (⟨window.startedAt, window.count⟩ : WsMessageBudget),
          decide (window.count ≤ options.max)) := by
  rw [List.map_map, List.map_map]
  refine List.map_congr_left fun frame member => ?_
  have accepted : frame.accepted = decide (frame.toHit.window.count ≤ options.max) := by
    rw [Bool.eq_iff_iff, accepted_iff positive (own frame member)]
    simp
  simp only [accepted]
  rfl

/-! ### The middleware keeps the limit -/

theorem messageLimit_of_sorted (options : WsMessageRateLimitOptions) (times : List Int)
    (positive : 1 ≤ options.max) (sorted : times.Pairwise (· ≤ ·)) :
    MessageLimit options (received options none times) where
  window before window after split inside := by
    have hits : FixedWindow.hits options.windowMs none times = before.map (·.toHit) ++
        window.map (·.toHit) ++ after.map (·.toHit) := by
      rw [← List.map_append, ← List.map_append, ← split, received_toHit, Option.map_none]
    have own : ∀ frame ∈ window, frame ∈ received options none times := by
      intro frame member
      rw [split]
      exact List.mem_append_left _ (List.mem_append_right _ member)
    rw [countP_accepted positive own]
    refine FixedWindow.countP_window hits ?_
    rw [← List.map_tail]
    refine List.forall_mem_map.mpr fun frame member => ?_
    exact mt opens_toHit.mp (inside frame member)
  interval start := by
    have counted := @FixedWindow.countP_interval options.windowMs none times options.max start sorted
    rw [← Option.map_none, ← received_toHit, List.countP_map] at counted
    refine le_of_eq_of_le (List.countP_congr fun frame member => ?_) counted
    simp only [decide_eq_true_eq, Function.comp_apply, accepted_iff positive member]
    rfl
  kept frame member rejected := by
    have inside : ¬ frame.Opens options := fun opens =>
      absurd (accepted_of_opens member opens) (by simp [rejected])
    obtain ⟨budget, held, early⟩ : ∃ budget, frame.held = some budget ∧
        ¬ frame.now - budget.windowStartedAt ≥ options.windowMs := by
      simpa [WsFrame.Opens, Option.mem_def] using inside
    have own := frame_of_received member
    rw [held, applyWsMessageRateLimit, if_neg early] at own
    refine ⟨budget, held, ?_⟩
    dsimp only at own
    split_ifs at own <;> rw [(Prod.mk.inj own).1]
  dropped := by
    have same := @FixedWindow.hits_counted options.windowMs none times options.max none positive
      .same
    rw [← Option.map_none, ← filter_accepted positive, List.map_map] at same
    rw [shown positive fun _ member => member, shown positive fun _ member =>
      List.mem_of_mem_filter member, received_toHit, ← same]
    rfl
  pause before first second after split pause := by
    have hits : FixedWindow.hits options.windowMs none times = before.map (·.toHit) ++
        first.toHit :: second.toHit :: after.map (·.toHit) := by
      rw [← List.map_cons, ← List.map_cons, ← List.map_append, ← split, received_toHit,
        Option.map_none]
    have opens := FixedWindow.opens_of_pause sorted (by simp) hits pause
    have member : second ∈ received options none times := by simp [split]
    exact accepted_of_opens member (opens_toHit.mp opens)

/-- Who waits as long as the error says finds the window over. -/
theorem ok_of_retry {budget : WsMessageBudget} {later : Int}
    (waited : now + 1000 * ceilSeconds (budget.retryAfterMs options now) ≤ later) :
    (applyWsMessageRateLimit options (some budget) later).2 = .ok () := by
  have passed : later - budget.windowStartedAt ≥ options.windowMs := by
    unfold ceilSeconds WsMessageBudget.retryAfterMs at waited
    omega
  rw [applyWsMessageRateLimit, if_pos passed]

theorem messageLimit_example :
    (received ⟨2, 1000⟩ none [0, 10, 20, 1000]).map (·.accepted) = [true, true, false, true] ∧
      MessageLimit ⟨2, 1000⟩ (received ⟨2, 1000⟩ none [0, 10, 20, 1000]) :=
  ⟨by decide, messageLimit_of_sorted ⟨2, 1000⟩ [0, 10, 20, 1000] (by decide) (by decide)⟩

end NestjsFastify.WsMessageLimit
