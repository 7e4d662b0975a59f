import NestjsFastify.FixedWindow

/-! # Fixed windows in Redis

The counter of a window is a key that expires.  One script counts a hit, lets the key expire when the
hit was the first, and tells the count and the time that is left.
-/
namespace NestjsFastify.RedisFixedWindow

/-- A counter at its key, and the time at which the key expires. -/
structure Counter where
  count : Nat
  expiresAt : Option Int
  deriving DecidableEq, Repr

/-- What a command finds at the key. -/
def current (now : Int) (stored : Option Counter) : Option Counter :=
  stored.filter fun counter => counter.expiresAt.all (now ≤ ·)

/-- `incr` -/
def incr (now : Int) (stored : Option Counter) : Counter :=
  match current now stored with
  | some counter => { counter with count := counter.count + 1 }
  | none => ⟨1, none⟩

/-- `pexpire` -/
def pexpire (now milliseconds : Int) (counter : Counter) : Counter :=
  { counter with expiresAt := some (now + milliseconds) }

/-- `pttl` -/
def pttl (now : Int) (counter : Counter) : Int :=
  match counter.expiresAt with
  | some expiresAt => expiresAt - now
  | none => -1

/-- `FIXED_WINDOW_INCR_SCRIPT` -/
def fixedWindowIncrScript (windowMs now : Int) (stored : Option Counter) :
    Counter × (Nat × Int) :=
  let counter := incr now stored
  let counter := if counter.count = 1 then pexpire now windowMs counter else counter
  (counter, (counter.count, pttl now counter))

structure FixedWindowState where
  count : Nat
  ttlMs : Int
  deriving DecidableEq, Repr

/-- What the key holds afterwards, and what the caller gets. -/
def redisFixedWindowIncr (windowMs now : Int) (stored : Option Counter) :
    Counter × FixedWindowState :=
  let (counter, (countRaw, ttlRaw)) := fixedWindowIncrScript windowMs now stored
  (counter, { count := countRaw, ttlMs := max 0 ttlRaw })

/-! ### The key as a window -/

variable {windowMs now : Int} {held : Option FixedWindow} {counter : Counter}

/-- The counter of a window. -/
def ofWindow (windowMs : Int) (window : FixedWindow) : Counter :=
  ⟨window.count, some (window.startedAt + windowMs)⟩

/-- The window of a counter that expires. -/
def toWindow (windowMs : Int) (counter : Counter) : FixedWindow :=
  ⟨counter.expiresAt.getD 0 - windowMs, counter.count⟩

@[simp] theorem toWindow_ofWindow (window : FixedWindow) :
    toWindow windowMs (ofWindow windowMs window) = window := by
  simp [toWindow, ofWindow]

/-- A key lives for a millisecond longer than its window is long. -/
theorem current_ofWindow : current now (held.map (ofWindow windowMs)) =
    if FixedWindow.Opens (windowMs + 1) held now then none else held.map (ofWindow windowMs) := by
  cases held with
  | none => simp [current]
  | some window =>
    rw [current, Option.map_some, Option.filter_some]
    by_cases opens : FixedWindow.Opens (windowMs + 1) (some window) now
    · have passed := FixedWindow.opens_some.mp opens
      rw [if_pos opens, if_neg]
      simp only [ofWindow, Option.all_some, decide_eq_true_eq]
      omega
    · have inside := mt FixedWindow.opens_some.mpr opens
      rw [if_neg opens, if_pos]
      simp only [ofWindow, Option.all_some, decide_eq_true_eq]
      omega

/-- The script counts in fixed windows. -/
theorem redisFixedWindowIncr_ofWindow (counted : ∀ window ∈ held, 1 ≤ window.count) :
    (redisFixedWindowIncr windowMs now (held.map (ofWindow windowMs))).1 =
      ofWindow windowMs (FixedWindow.hit (windowMs + 1) held now) := by
  change (if (incr now (held.map (ofWindow windowMs))).count = 1 then
    pexpire now windowMs (incr now (held.map (ofWindow windowMs)))
      else incr now (held.map (ofWindow windowMs))) = _
  by_cases opens : FixedWindow.Opens (windowMs + 1) held now
  · rw [incr, current_ofWindow, if_pos opens, FixedWindow.hit_of_opens opens]
    rfl
  · cases held with
    | none => exact absurd FixedWindow.opens_none opens
    | some window =>
      have positive := counted window rfl
      have next : incr now ((some window).map (ofWindow windowMs)) =
          ofWindow windowMs { window with count := window.count + 1 } := by
        rw [incr, current_ofWindow, if_neg opens]
        rfl
      have many : (ofWindow windowMs { window with count := window.count + 1 }).count ≠ 1 :=
        Nat.ne_of_gt (Nat.lt_succ_of_le positive)
      rw [next, if_neg many, FixedWindow.hit_of_not_opens opens]

/-- The count that the caller gets is that of the key. -/
theorem count_redisFixedWindowIncr (stored : Option Counter) :
    (redisFixedWindowIncr windowMs now stored).2.count =
      (redisFixedWindowIncr windowMs now stored).1.count := rfl

/-- A hit on a key that lives does not move its expiry. -/
theorem expiresAt_redisFixedWindowIncr {stored : Option Counter} (lives : current now stored = some counter)
    (counted : 1 ≤ counter.count) :
    (redisFixedWindowIncr windowMs now stored).1.expiresAt = counter.expiresAt := by
  change (if (incr now stored).count = 1 then pexpire now windowMs (incr now stored)
    else incr now stored).expiresAt = _
  have next : incr now stored = { counter with count := counter.count + 1 } := by rw [incr, lives]
  rw [next, if_neg (by simp only; omega)]

end NestjsFastify.RedisFixedWindow
