import Mathlib.Data.List.Basic

/-! # Walking a sorted list page by page

A page is what comes after a row, cut at a limit, and says whether more follows.  The next page is
asked for with the key of the last row.
-/
namespace KeysetWalk

structure Slice (Row : Type) where
  items : List Row
  hasMore : Bool
  deriving DecidableEq, Repr

section Walk
variable {Row Key : Type}

def slice (limit : Nat) (rows : List Row) : Slice Row where
  items := rows.take limit
  hasMore := limit < rows.length

/-- Fetch pages until one is the last; `page` fails for a key that it cannot read. -/
def walk (page : Option Key → Option (Slice Row)) (next : List Row → Option Key) :
    Nat → Option Key → Option (List (Slice Row))
  | 0, _ => none
  | fuel + 1, key =>
      match page key with
      | none => none
      | some slice =>
          if slice.hasMore then
            match next slice.items with
            | none => none
            | some key => (walk page next fuel (some key)).map (slice :: ·)
          else some [slice]

/-- Only the last page says that nothing follows. -/
def EndsOnce (pages : List (Slice Row)) : Prop :=
  ∀ before page after, pages = before ++ page :: after → (page.hasMore = false ↔ after = [])

theorem endsOnce_singleton {page : Slice Row} (last : page.hasMore = false) : EndsOnce [page] := by
  intro before current after split
  have whole := congrArg List.length split
  simp only [List.length_cons, List.length_nil, List.length_append] at whole
  obtain rfl : before = [] := List.eq_nil_of_length_eq_zero (by omega)
  obtain ⟨rfl, rfl⟩ := List.cons.inj split
  exact ⟨fun _ => rfl, fun _ => last⟩

theorem EndsOnce.cons {page : Slice Row} {pages : List (Slice Row)} (more : page.hasMore = true)
    (some : pages ≠ []) (ends : EndsOnce pages) : EndsOnce (page :: pages) := by
  intro before current after split
  cases before with
  | nil =>
    obtain ⟨rfl, rfl⟩ := List.cons.inj split
    simp [more, some]
  | cons first before => exact ends before current after (List.cons.inj split).2

/-- In a list that is sorted, the rows after one of them are those behind it. -/
theorem filter_behind {comesAfter : Row → Row → Bool}
    (asymm : ∀ first second, comesAfter first second = true → comesAfter second first = false)
    {before behind : List Row} {row : Row}
    (sorted : (before ++ row :: behind).Pairwise fun first second => comesAfter first second) :
    (before ++ row :: behind).filter (comesAfter row) = behind := by
  obtain ⟨-, tail, across⟩ := List.pairwise_append.mp sorted
  obtain ⟨later, -⟩ := List.pairwise_cons.mp tail
  have self : comesAfter row row = false := by
    by_contra reflexive
    have holds := (Bool.not_eq_false _).mp reflexive
    exact reflexive (asymm row row holds)
  have none : before.filter (comesAfter row) = [] := List.filter_eq_nil_iff.mpr fun other own => by
    simp [asymm other row (across other own row List.mem_cons_self)]
  rw [List.filter_append, none, List.nil_append, List.filter_cons_of_neg (by simp [self]),
    List.filter_eq_self.mpr later]

variable {page : Option Key → Option (Slice Row)} {next : List Row → Option Key} {key : Row → Key}
  {comesAfter : Row → Row → Bool} {rows : List Row} {limit : Nat}

/-- From a page that begins a part of the rows, the walk gives this part. -/
theorem walk_behind (positive : 0 < limit)
    (asymm : ∀ first second, comesAfter first second = true → comesAfter second first = false)
    (sorted : rows.Pairwise fun first second => comesAfter first second)
    (follows : ∀ row ∈ rows, page (some (key row)) = some (slice limit (rows.filter (comesAfter row))))
    (keyed : ∀ front, ∀ row ∈ rows, next (front ++ [row]) = some (key row))
    {fuel : Nat} {before behind : List Row} (split : rows = before ++ behind)
    {cursor : Option Key} (start : page cursor = some (slice limit behind))
    (enough : behind.length < fuel) :
    ∃ pages, walk page next fuel cursor = some pages ∧ pages.flatMap Slice.items = behind ∧
      pages ≠ [] ∧ EndsOnce pages := by
  induction fuel generalizing before behind cursor with
  | zero => exact absurd enough (Nat.not_lt_zero _)
  | succ fuel ih =>
    by_cases more : limit < behind.length
    · have full : behind.take limit ≠ [] := by
        intro empty
        have none := congrArg List.length empty
        simp only [List.length_take, List.length_nil] at none
        omega
      obtain ⟨front, row, cut⟩ := (List.eq_nil_or_concat (behind.take limit)).resolve_left full
      rw [List.concat_eq_append] at cut
      have parts := List.take_append_drop limit behind
      rw [cut, List.append_assoc, List.singleton_append] at parts
      have whole : rows = (before ++ front) ++ row :: behind.drop limit := by
        rw [split, List.append_assoc, parts]
      have member : row ∈ rows := by
        rw [whole]
        exact List.mem_append_right _ List.mem_cons_self
      have rest : rows.filter (comesAfter row) = behind.drop limit := by
        rw [whole] at sorted ⊢
        exact filter_behind asymm sorted
      have later : rows = (before ++ front ++ [row]) ++ behind.drop limit := by
        rw [List.append_assoc, List.singleton_append]
        exact whole
      obtain ⟨pages, walked, items, nonempty, ends⟩ := ih later
        (by rw [follows row member, rest]) (by rw [List.length_drop]; omega)
      refine ⟨slice limit behind :: pages, ?_, ?_, List.cons_ne_nil _ _,
        ends.cons (decide_eq_true more) nonempty⟩
      · have asked : next (slice limit behind).items = some (key row) := by
          rw [slice, cut, keyed front row member]
        simp only [walk, start, asked, walked, Option.map_some]
        exact if_pos (decide_eq_true more)
      · rw [List.flatMap_cons, items]
        exact List.take_append_drop limit behind
    · have last : (slice limit behind).hasMore = false := decide_eq_false more
      refine ⟨[slice limit behind], ?_, ?_, List.cons_ne_nil _ _, endsOnce_singleton last⟩
      · simp only [walk, start, last, Bool.false_eq_true, if_false]
      · rw [List.flatMap_singleton]
        exact List.take_of_length_le (Nat.not_lt.mp more)

/-- The walk from the first page gives every row once, in order. -/
theorem walk_complete (positive : 0 < limit)
    (asymm : ∀ first second, comesAfter first second = true → comesAfter second first = false)
    (sorted : rows.Pairwise fun first second => comesAfter first second)
    (first : page none = some (slice limit rows))
    (follows : ∀ row ∈ rows, page (some (key row)) = some (slice limit (rows.filter (comesAfter row))))
    (keyed : ∀ front, ∀ row ∈ rows, next (front ++ [row]) = some (key row)) :
    ∃ pages, walk page next (rows.length + 1) none = some pages ∧
      pages.flatMap Slice.items = rows ∧ EndsOnce pages := by
  obtain ⟨pages, walked, items, -, ends⟩ := walk_behind positive asymm sorted follows keyed
    (List.nil_append rows).symm first (Nat.lt_succ_self _)
  exact ⟨pages, walked, items, ends⟩

end Walk
end KeysetWalk
