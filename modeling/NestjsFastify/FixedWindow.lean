import Mathlib.Data.List.Basic
import Mathlib.Algebra.Order.Group.Int

/-! # Counting in fixed windows

A counter counts the hits of a window.  A hit that comes a full length or more after the start of
the window opens the next one.  At most `limit` hits of a window are counted up to `limit`, and at
most twice as many of any interval of a window's length.
-/

/-- A window that is open: when it has started and how many hits it has seen. -/
structure FixedWindow where
  startedAt : Int
  count : Nat
  deriving DecidableEq, Repr

namespace FixedWindow

/-- A hit at this time opens a window. -/
def Opens (length : Int) (held : Option FixedWindow) (now : Int) : Prop :=
  ∀ window ∈ held, length ≤ now - window.startedAt

instance (length : Int) (held : Option FixedWindow) (now : Int) :
    Decidable (Opens length held now) :=
  inferInstanceAs (Decidable (∀ window ∈ held, length ≤ now - window.startedAt))

/-- The window that a hit is counted in, with the hit. -/
def hit (length : Int) (held : Option FixedWindow) (now : Int) : FixedWindow :=
  match held with
  | none => ⟨now, 1⟩
  | some window =>
    if length ≤ now - window.startedAt then ⟨now, 1⟩ else { window with count := window.count + 1 }

/-- A hit, with the window that was open when it came and the one that it is counted in. -/
structure Hit where
  now : Int
  held : Option FixedWindow
  window : FixedWindow
  deriving DecidableEq, Repr

/-- The hits that come at these times. -/
def hits (length : Int) : Option FixedWindow → List Int → List Hit
  | _, [] => []
  | held, now :: later =>
    ⟨now, held, hit length held now⟩ :: hits length (some (hit length held now)) later

variable {length : Int} {held : Option FixedWindow} {window : FixedWindow} {now : Int}
  {times : List Int} {limit : Nat}

@[simp] theorem opens_none : Opens length none now := by simp [Opens]

@[simp] theorem opens_some : Opens length (some window) now ↔ length ≤ now - window.startedAt := by
  simp [Opens]

theorem hit_of_opens (opens : Opens length held now) : hit length held now = ⟨now, 1⟩ := by
  cases held with
  | none => rfl
  | some window => exact if_pos (opens_some.mp opens)

theorem hit_of_not_opens (inside : ¬ Opens length (some window) now) :
    hit length (some window) now = { window with count := window.count + 1 } :=
  if_neg (mt opens_some.mpr inside)

theorem count_hit_pos : 1 ≤ (hit length held now).count := by
  by_cases opens : Opens length held now
  · exact (congrArg count (hit_of_opens opens)).ge
  · cases held with
    | none => exact absurd opens_none opens
    | some window =>
      rw [hit_of_not_opens opens]
      exact Nat.le_add_left 1 _

/-! ### A stretch of the hits -/

/-- Any stretch of the hits is what comes of the times of its own, from the window that was open. -/
theorem hits_split {before after : List Hit} (split : hits length held times = before ++ after) :
    ∃ early late held', times = early ++ late ∧ before = hits length held early ∧
      after = hits length held' late := by
  induction before generalizing held times with
  | nil => exact ⟨[], times, held, rfl, rfl, split.symm⟩
  | cons first before ih =>
    cases times with
    | nil => simp [hits] at split
    | cons now times =>
      simp only [hits, List.cons_append, List.cons.injEq] at split
      obtain ⟨early, late, held', rfl, same, rest⟩ := ih split.2
      exact ⟨now :: early, late, held', rfl, by rw [hits, ← split.1, same], rest⟩

/-! ### The hits of a window -/

theorem countP_inside
    (inside : ∀ hit ∈ hits length (some window) times, ¬ Opens length hit.held hit.now) :
    (hits length (some window) times).countP (·.window.count ≤ limit) ≤ limit - window.count := by
  induction times generalizing window with
  | nil => simp [hits]
  | cons now times ih =>
    obtain ⟨here, later⟩ := List.forall_mem_cons.mp inside
    have tail := ih later
    rw [hits, List.countP_cons]
    simp only [hit_of_not_opens here] at tail ⊢
    by_cases within : window.count + 1 ≤ limit
    · simp only [within, decide_true, if_true]
      omega
    · simp only [within, decide_false, Bool.false_eq_true, if_false]
      omega

/-- Up to `limit`, a window counts at most `limit` hits. -/
theorem countP_window {before stretch after : List Hit}
    (split : hits length held times = before ++ stretch ++ after)
    (inside : ∀ hit ∈ stretch.tail, ¬ Opens length hit.held hit.now) :
    stretch.countP (·.window.count ≤ limit) ≤ limit := by
  obtain ⟨early, -, -, -, within, -⟩ := hits_split split
  obtain ⟨-, own, held', -, -, rfl⟩ := hits_split within.symm
  cases own with
  | nil => simp [hits]
  | cons now later =>
    have tail := @countP_inside _ _ _ limit inside
    have positive : 1 ≤ (hit length held' now).count := count_hit_pos
    rw [hits, List.countP_cons]
    by_cases counted : (hit length held' now).count ≤ limit
    · simp only [counted, decide_true, if_true]
      omega
    · simp only [counted, decide_false, Bool.false_eq_true, if_false]
      omega

/-! ### The hits of an interval -/

theorem now_mem {hit : Hit} (member : hit ∈ hits length held times) : hit.now ∈ times := by
  induction times generalizing held with
  | nil => simp [hits] at member
  | cons now times ih =>
    rcases List.mem_cons.mp member with rfl | later
    · exact List.mem_cons_self
    · exact List.mem_cons_of_mem _ (ih later)

/-- The hit is counted up to `limit`, and comes in the interval of a window's length. -/
abbrev Hit.Counted (limit : Nat) (length start : Int) (hit : Hit) : Prop :=
  hit.window.count ≤ limit ∧ start ≤ hit.now ∧ hit.now < start + length

variable {start : Int}

/-- Once the interval has seen the start of a window, it ends before the next one. -/
theorem countP_begun (sorted : times.Pairwise (· ≤ ·)) (begun : start ≤ window.startedAt) :
    (hits length (some window) times).countP (·.Counted limit length start) ≤
      limit - window.count := by
  induction times generalizing window with
  | nil => simp [hits]
  | cons now times ih =>
    obtain ⟨first, sorted⟩ := List.pairwise_cons.mp sorted
    by_cases opens : Opens length (some window) now
    · have passed : start + length ≤ now := by
        have := opens_some.mp opens
        omega
      have none : (hits length (some window) (now :: times)).countP
          (·.Counted limit length start) = 0 := by
        refine List.countP_eq_zero.mpr fun hit member => ?_
        have later : now ≤ hit.now := by
          rcases List.mem_cons.mp (now_mem member) with same | later
          · exact same ▸ Int.le_refl _
          · exact first _ later
        simp only [decide_eq_true_eq]
        omega
      exact none ▸ Nat.zero_le _
    · have tail : _ ≤ limit - (window.count + 1) :=
        @ih { window with count := window.count + 1 } sorted begun
      rw [hits, List.countP_cons, hit_of_not_opens opens]
      by_cases within : window.count + 1 ≤ limit
      · split_ifs <;> omega
      · rw [if_neg (by simp [within])]
        omega

theorem countP_from (sorted : times.Pairwise (· ≤ ·)) (all : ∀ now ∈ times, start ≤ now) :
    (hits length held times).countP (·.Counted limit length start) ≤
      limit - held.elim 0 count + limit := by
  induction times generalizing held with
  | nil => simp [hits]
  | cons now times ih =>
    obtain ⟨here, later⟩ := List.forall_mem_cons.mp all
    have sorted := (List.pairwise_cons.mp sorted).2
    rw [hits, List.countP_cons]
    by_cases opens : Opens length held now
    · have tail : _ ≤ limit - 1 := @countP_begun length ⟨now, 1⟩ times limit start sorted here
      rw [hit_of_opens opens]
      by_cases positive : 1 ≤ limit
      · split_ifs <;> omega
      · rw [if_neg (by simp [positive])]
        omega
    · cases held with
      | none => exact absurd opens_none opens
      | some window =>
        have tail : _ ≤ limit - (window.count + 1) + limit :=
          @ih (some { window with count := window.count + 1 }) sorted later
        rw [hit_of_not_opens opens]
        rw [Option.elim_some]
        by_cases within : window.count + 1 ≤ limit
        · split_ifs <;> omega
        · rw [if_neg (by simp [within])]
          omega

/-- Of an interval of a window's length, at most twice `limit` hits are counted up to `limit`. -/
theorem countP_interval (sorted : times.Pairwise (· ≤ ·)) :
    (hits length held times).countP (·.Counted limit length start) ≤ 2 * limit := by
  induction times generalizing held with
  | nil => simp [hits]
  | cons now times ih =>
    obtain ⟨first, rest⟩ := List.pairwise_cons.mp sorted
    by_cases early : now < start
    · rw [hits, List.countP_cons]
      have tail := @ih (some (hit length held now)) rest
      rw [if_neg (by simp [Int.not_le.mpr early])]
      omega
    · have reached : start ≤ now := Int.not_lt.mp early
      have counted : (hits length held (now :: times)).countP (·.Counted limit length start) ≤ _ :=
        countP_from sorted
          (List.forall_mem_cons.mpr ⟨reached, fun time later => reached.trans (first time later)⟩)
      omega

/-! ### Hits apart, and hits over the limit -/

theorem startedAt_hit_le (begun : ∀ window ∈ held, window.startedAt ≤ now) :
    (hit length held now).startedAt ≤ now := by
  by_cases opens : Opens length held now
  · exact (congrArg startedAt (hit_of_opens opens)).le
  · cases held with
    | none => exact absurd opens_none opens
    | some window =>
      rw [hit_of_not_opens opens]
      exact begun window rfl

/-- A hit that comes a full length or more after the one before opens a window. -/
theorem opens_of_pause {before after : List Hit} {first second : Hit}
    (sorted : times.Pairwise (· ≤ ·)) (begun : ∀ window ∈ held, ∀ now ∈ times, window.startedAt ≤ now)
    (split : hits length held times = before ++ first :: second :: after)
    (pause : first.now + length ≤ second.now) : Opens length second.held second.now := by
  induction before generalizing held times with
  | nil =>
    match times, split with
    | now :: next :: times, split =>
      simp only [hits, List.nil_append, List.cons.injEq] at split
      obtain ⟨rfl, rfl, -⟩ := split
      have started : (hit length held now).startedAt ≤ now :=
        startedAt_hit_le fun window own => begun window own now List.mem_cons_self
      simp only [opens_some] at pause ⊢
      omega
  | cons earlier before ih =>
    cases times with
    | nil => simp [hits] at split
    | cons now times =>
      simp only [hits, List.cons_append, List.cons.injEq] at split
      obtain ⟨later, sorted⟩ := List.pairwise_cons.mp sorted
      refine ih sorted ?_ split.2
      intro window own time member
      cases Option.mem_some.mp own
      exact (startedAt_hit_le fun window own => begun window own now List.mem_cons_self).trans
        (later time member)

/-- Two windows that differ at most in how far they are over the limit. -/
inductive Alike (limit : Nat) : Option FixedWindow → Option FixedWindow → Prop
  | same {held : Option FixedWindow} : Alike limit held held
  | exceeding {startedAt : Int} {count count' : Nat} : limit ≤ count → limit ≤ count' →
      Alike limit (some ⟨startedAt, count⟩) (some ⟨startedAt, count'⟩)

theorem Alike.opens_iff {held' : Option FixedWindow} (alike : Alike limit held held') :
    Opens length held now ↔ Opens length held' now := by
  cases alike with
  | same => rfl
  | exceeding => simp

/-- Without the hits over the limit, the others are counted in the same windows. -/
theorem hits_counted {held' : Option FixedWindow} (positive : 1 ≤ limit)
    (alike : Alike limit held held') :
    (hits length held' (((hits length held times).filter (·.window.count ≤ limit)).map
      Hit.now)).map (fun hit => (hit.now, hit.window)) =
      ((hits length held times).filter (·.window.count ≤ limit)).map
        fun hit => (hit.now, hit.window) := by
  induction times generalizing held held' with
  | nil => rfl
  | cons now times ih =>
    rw [hits]
    by_cases opens : Opens length held now
    · have within : (hit length held now).count ≤ limit := hit_of_opens opens ▸ positive
      have same : hit length held' now = hit length held now := by
        rw [hit_of_opens opens, hit_of_opens (alike.opens_iff.mp opens)]
      rw [List.filter_cons_of_pos (by simpa using within)]
      simp only [List.map_cons, hits, same, ih .same]
    · have opens' := mt alike.opens_iff.mpr opens
      cases alike with
      | same =>
        cases held with
        | none => exact absurd opens_none opens
        | some window =>
          by_cases within : (hit length (some window) now).count ≤ limit
          · rw [List.filter_cons_of_pos (by simpa using within)]
            simp only [List.map_cons, hits, ih .same]
          · rw [List.filter_cons_of_neg (by simpa using within)]
            rw [hit_of_not_opens opens] at within ⊢
            simp only [Nat.not_le] at within
            exact ih (.exceeding (by omega) (by omega))
      | exceeding first second =>
        have exceeds := Nat.lt_succ_of_le first
        rw [List.filter_cons_of_neg (by simpa [hit_of_not_opens opens] using exceeds),
          hit_of_not_opens opens]
        exact ih (.exceeding exceeds.le second)

end FixedWindow
