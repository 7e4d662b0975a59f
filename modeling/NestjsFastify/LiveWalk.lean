import Mathlib.Data.List.Nodup
import Mathlib.Data.List.Perm.Subperm
import NestjsFastify.KeysetWalk

/-! # Walking a table that changes

Each page is cut from the table as it is when it is asked for.  Rows come and go between two pages,
and what they hold may change; a row is known by its position in the order.
-/
namespace KeysetWalk

section Live
variable {Table Row Key Position : Type}

/-- Fetch pages until one is the last or nobody asks for more; each request finds a table of its
own. -/
def liveWalk (page : Table → Option Key → Option (Slice Row)) (next : List Row → Option Key) :
    List Table → Option Key → Option (List (Slice Row))
  | [], _ => some []
  | table :: tables, key =>
      match page table key with
      | none => none
      | some slice =>
          if slice.hasMore then
            match next slice.items with
            | none => none
            | some key => (liveWalk page next tables (some key)).map (slice :: ·)
          else some [slice]

variable (position : Row → Position) (comesAfter : Position → Position → Bool) (limit : Nat)

/-- The rows behind a position, all of them without one. -/
def behind (cursor : Option Position) (rows : List Row) : List Row :=
  match cursor with
  | none => rows
  | some cursor => rows.filter fun row => comesAfter cursor (position row)

/-- `Walked cursor tables pages`: the pages that begin behind the cursor, in the tables of their
moments. -/
inductive Walked : Option Position → List (List Row) → List (Slice Row) → Prop
  | stopped {cursor : Option Position} : Walked cursor [] []
  | last {cursor : Option Position} {rows : List Row} {tables : List (List Row)}
      (short : (behind position comesAfter cursor rows).length ≤ limit) :
      Walked cursor (rows :: tables) [slice limit (behind position comesAfter cursor rows)]
  | more {cursor : Option Position} {rows front : List Row} {row : Row}
      {tables : List (List Row)} {pages : List (Slice Row)}
      (long : limit < (behind position comesAfter cursor rows).length)
      (cut : (behind position comesAfter cursor rows).take limit = front ++ [row])
      (rest : Walked (some (position row)) tables pages) :
      Walked cursor (rows :: tables) (slice limit (behind position comesAfter cursor rows) :: pages)

/-- A page has said that nothing follows. -/
def Finished (pages : List (Slice Row)) : Prop :=
  ∃ page ∈ pages, page.hasMore = false

variable {position comesAfter limit}

theorem behind_subset {cursor : Option Position} {rows : List Row} {row : Row}
    (member : row ∈ behind position comesAfter cursor rows) : row ∈ rows := by
  cases cursor with
  | none => exact member
  | some cursor => exact (List.mem_filter.mp member).1

theorem mem_behind_some {cursor : Position} {rows : List Row} {row : Row} :
    row ∈ behind position comesAfter (some cursor) rows ↔
      row ∈ rows ∧ comesAfter cursor (position row) = true :=
  List.mem_filter

theorem pairwise_behind {relation : Row → Row → Prop} {rows : List Row}
    (sorted : rows.Pairwise relation) (cursor : Option Position) :
    (behind position comesAfter cursor rows).Pairwise relation := by
  cases cursor with
  | none => exact sorted
  | some cursor => exact sorted.filter _

/-- The client walks as the relation says, if each request is answered with the rows behind its
key. -/
theorem liveWalk_walked {page : Table → Option Key → Option (Slice Row)}
    {next : List Row → Option Key} {rows : Table → List Row} {encode : Position → Key}
    (positive : 0 < limit) {tables : List Table} {cursor : Option Position}
    (start : ∀ table ∈ tables, page table (cursor.map encode) =
      some (slice limit (behind position comesAfter cursor (rows table))))
    (follows : ∀ earlier ∈ tables, ∀ row ∈ rows earlier, ∀ table ∈ tables,
      page table (some (encode (position row))) =
        some (slice limit (behind position comesAfter (some (position row)) (rows table))))
    (keyed : ∀ table ∈ tables, ∀ row ∈ rows table, ∀ front,
      next (front ++ [row]) = some (encode (position row))) :
    ∃ pages, liveWalk page next tables (cursor.map encode) = some pages ∧
      Walked position comesAfter limit cursor (tables.map rows) pages := by
  induction tables generalizing cursor with
  | nil => exact ⟨[], rfl, .stopped⟩
  | cons table tables ih =>
    have here := start table List.mem_cons_self
    by_cases long : limit < (behind position comesAfter cursor (rows table)).length
    · have full : (behind position comesAfter cursor (rows table)).take limit ≠ [] := by
        intro empty
        have none := congrArg List.length empty
        rw [List.length_take, List.length_nil] at none
        omega
      obtain ⟨front, row, cut⟩ := (List.eq_nil_or_concat _).resolve_left full
      rw [List.concat_eq_append] at cut
      have own : row ∈ rows table := by
        apply @behind_subset _ _ position comesAfter cursor
        apply List.mem_of_mem_take (i := limit)
        rw [cut]
        exact List.mem_append_right _ List.mem_cons_self
      have asked : next (slice limit (behind position comesAfter cursor (rows table))).items =
          some (encode (position row)) := by
        rw [slice, cut]
        exact keyed table List.mem_cons_self row own front
      have later := follows table List.mem_cons_self row own
      obtain ⟨pages, walked, rest⟩ := @ih (some (position row))
        (fun other member => later other (List.mem_cons_of_mem _ member))
        (fun earlier first row own other member =>
          follows earlier (List.mem_cons_of_mem _ first) row own other
            (List.mem_cons_of_mem _ member))
        (fun other member => keyed other (List.mem_cons_of_mem _ member))
      rw [Option.map_some] at walked
      refine ⟨_ :: pages, ?_, .more long cut rest⟩
      simp only [liveWalk, here, asked, walked, Option.map_some]
      exact if_pos (decide_eq_true long)
    · have short :
          (slice limit (behind position comesAfter cursor (rows table))).hasMore = false :=
        decide_eq_false long
      refine ⟨[_], ?_, .last (Nat.not_lt.mp long)⟩
      simp only [liveWalk, here, short, Bool.false_eq_true, if_false]

section Facts
variable {cursor : Option Position} {tables : List (List Row)} {pages : List (Slice Row)}

/-- Every page is cut from the table of its moment. -/
theorem Walked.drawn (walked : Walked position comesAfter limit cursor tables pages) :
    ∀ entry ∈ tables.zip pages, ∀ row ∈ entry.2.items, row ∈ entry.1 := by
  induction walked with
  | stopped => simp
  | last short =>
    intro entry member row own
    rw [List.zip_cons_cons, List.zip_nil_right, List.mem_singleton] at member
    subst member
    exact behind_subset (List.mem_of_mem_take own)
  | more long cut rest ih =>
    intro entry member row own
    rw [List.zip_cons_cons] at member
    rcases List.mem_cons.mp member with rfl | later
    · exact behind_subset (List.mem_of_mem_take own)
    · exact ih entry later row own

/-- A page before others is full. -/
theorem Walked.full (walked : Walked position comesAfter limit cursor tables pages) :
    ∀ page ∈ pages, page.hasMore = true → page.items.length = limit := by
  have cut : ∀ rows : List Row, (slice limit rows).hasMore = true →
      (slice limit rows).items.length = limit := by
    intro rows more
    have long : limit < rows.length := of_decide_eq_true more
    rw [slice, List.length_take]
    omega
  induction walked with
  | stopped => simp
  | last short =>
    intro page member
    obtain rfl := List.mem_singleton.mp member
    exact cut _
  | more long _ rest ih =>
    intro page member
    rcases List.mem_cons.mp member with rfl | later
    · exact cut _
    · exact ih page later

/-- The client asks until a page is the last one. -/
theorem Walked.stops (walked : Walked position comesAfter limit cursor tables pages) :
    Finished pages ∨ pages.length = tables.length := by
  induction walked with
  | stopped => exact .inr rfl
  | last short =>
    left
    exact ⟨_, List.mem_cons_self, decide_eq_false (Nat.not_lt.mpr short)⟩
  | more long cut rest ih =>
    rcases ih with ⟨page, member, last⟩ | same
    · left
      exact ⟨page, List.mem_cons_of_mem _ member, last⟩
    · right
      rw [List.length_cons, List.length_cons, same]

theorem Walked.length_le (walked : Walked position comesAfter limit cursor tables pages) :
    pages.length ≤ tables.length := by
  induction walked with
  | stopped => exact Nat.le_refl _
  | last short => simp
  | more long cut rest ih => exact Nat.succ_le_succ ih

/-- Every row is behind the cursor. -/
theorem Walked.behind
    (trans : ∀ first second third, comesAfter first second = true →
      comesAfter second third = true → comesAfter first third = true)
    {start : Position} (walked : Walked position comesAfter limit (some start) tables pages) :
    ∀ row ∈ pages.flatMap Slice.items, comesAfter start (position row) = true := by
  generalize startEq : some start = cursor at walked
  induction walked generalizing start with
  | stopped => simp
  | last short =>
    subst startEq
    intro row own
    rw [List.flatMap_singleton] at own
    exact (mem_behind_some.mp (List.mem_of_mem_take own)).2
  | @more _ rows front last tables pages long cut rest ih =>
    subst startEq
    intro row own
    rw [List.flatMap_cons] at own
    rcases List.mem_append.mp own with here | later
    · exact (mem_behind_some.mp (List.mem_of_mem_take here)).2
    · have reached :
          last ∈ (KeysetWalk.behind position comesAfter (some start) rows).take limit := by
        rw [cut]
        exact List.mem_append_right _ List.mem_cons_self
      apply trans _ _ _ (mem_behind_some.mp (List.mem_of_mem_take reached)).2
      exact ih rfl row later

/-- The rows of all pages are in order, so that none appears twice. -/
theorem Walked.sorted
    (trans : ∀ first second third, comesAfter first second = true →
      comesAfter second third = true → comesAfter first third = true)
    (ordered : ∀ rows ∈ tables, rows.Pairwise fun first second =>
      comesAfter (position first) (position second) = true)
    (walked : Walked position comesAfter limit cursor tables pages) :
    (pages.flatMap Slice.items).Pairwise fun first second =>
      comesAfter (position first) (position second) = true := by
  induction walked with
  | stopped => simp
  | last short =>
    rw [List.flatMap_singleton]
    exact (pairwise_behind (ordered _ List.mem_cons_self) _).take
  | @more cursor rows front last tables pages long cut rest ih =>
    have here : ((KeysetWalk.behind position comesAfter cursor rows).take limit).Pairwise
        fun first second => comesAfter (position first) (position second) = true :=
      (pairwise_behind (ordered _ List.mem_cons_self) cursor).take
    rw [List.flatMap_cons, List.pairwise_append]
    refine ⟨here, ih fun rows member => ordered rows (List.mem_cons_of_mem _ member), ?_⟩
    intro first own second later
    have reached := rest.behind trans second later
    change first ∈ List.take limit _ at own
    rw [cut] at here own
    rcases List.mem_append.mp own with front | same
    · have before := (List.pairwise_append.mp here).2.2 first front last List.mem_cons_self
      exact trans _ _ _ before reached
    · obtain rfl := List.mem_singleton.mp same
      exact reached

/-- A walk that has come to its end has had every position that was there at each request. -/
theorem Walked.covers
    (ordered : ∀ rows ∈ tables, rows.Pairwise fun first second =>
      comesAfter (position first) (position second) = true)
    (walked : Walked position comesAfter limit cursor tables pages) (finished : Finished pages)
    {place : Position} (ahead : ∀ start ∈ cursor, comesAfter start place = true)
    (present : ∀ rows ∈ tables.take pages.length, place ∈ rows.map position) :
    place ∈ (pages.flatMap Slice.items).map position := by
  have own : ∀ {cursor : Option Position} {rows : List Row},
      (∀ start ∈ cursor, comesAfter start place = true) → place ∈ rows.map position →
        ∃ row ∈ KeysetWalk.behind position comesAfter cursor rows, position row = place := by
    intro cursor rows ahead member
    obtain ⟨row, own, rfl⟩ := List.mem_map.mp member
    cases cursor with
    | none => exact ⟨row, own, rfl⟩
    | some start => exact ⟨row, mem_behind_some.mpr ⟨own, ahead start rfl⟩, rfl⟩
  induction walked with
  | stopped =>
    obtain ⟨page, member, -⟩ := finished
    cases member
  | last short =>
    obtain ⟨row, member, rfl⟩ := own ahead (present _ List.mem_cons_self)
    rw [List.flatMap_singleton, slice, List.take_of_length_le short]
    exact List.mem_map_of_mem member
  | @more cursor rows front last tables pages long cut rest ih =>
    obtain ⟨row, member, rfl⟩ := own ahead (present rows List.mem_cons_self)
    rw [List.flatMap_cons, List.map_append, List.mem_append]
    have sorted : (KeysetWalk.behind position comesAfter cursor rows).Pairwise
        fun first second => comesAfter (position first) (position second) = true :=
      pairwise_behind (ordered _ List.mem_cons_self) cursor
    rw [← List.take_append_drop limit (KeysetWalk.behind position comesAfter cursor rows)]
      at member sorted
    rcases List.mem_append.mp member with here | later
    · left
      exact List.mem_map_of_mem here
    · right
      rw [cut] at sorted
      have reached : comesAfter (position last) (position row) = true :=
        (List.pairwise_append.mp sorted).2.2 last
          (List.mem_append_right _ List.mem_cons_self) row later
      apply ih (fun rows member => ordered rows (List.mem_cons_of_mem _ member))
      · obtain ⟨page, among, final⟩ := finished
        rcases List.mem_cons.mp among with rfl | among
        · exact absurd long (of_decide_eq_false final)
        · exact ⟨page, among, final⟩
      · rintro start ⟨rfl⟩
        exact reached
      · intro rows member
        apply present
        rw [List.length_cons, List.take_succ_cons]
        exact List.mem_cons_of_mem _ member

/-- A full page uses up as many of the positions that it may draw from. -/
theorem length_filter_add_le
    (trans : ∀ first second third, comesAfter first second = true →
      comesAfter second third = true → comesAfter first third = true)
    (irrefl : ∀ place, comesAfter place place = false) {front : List Row} {last : Row}
    (sorted : (front ++ [last]).Pairwise fun first second =>
      comesAfter (position first) (position second) = true)
    {old : List Position} (known : ∀ row ∈ front ++ [last], position row ∈ old) :
    (old.filter (comesAfter (position last))).length + (front ++ [last]).length ≤ old.length := by
  have distinct : ((front ++ [last]).map position).Nodup := by
    apply List.pairwise_map.mpr
    apply sorted.imp
    intro first second later same
    rw [same, irrefl] at later
    cases later
  have upTo : ∀ row ∈ front ++ [last], comesAfter (position last) (position row) = false := by
    intro row member
    rcases List.mem_append.mp member with before | same
    · rw [← Bool.not_eq_true]
      intro back
      have round := trans _ _ _ back
        ((List.pairwise_append.mp sorted).2.2 row before last List.mem_cons_self)
      rw [irrefl] at round
      cases round
    · obtain rfl := List.mem_singleton.mp same
      exact irrefl _
  have among : (front ++ [last]).map position ⊆
      old.filter fun place => !comesAfter (position last) place := by
    intro place member
    obtain ⟨row, own, rfl⟩ := List.mem_map.mp member
    exact List.mem_filter.mpr ⟨known row own, by rw [upTo row own]; rfl⟩
  have fits := (List.subperm_of_subset distinct among).length_le
  have parts := List.length_eq_length_filter_add (l := old) (comesAfter (position last))
  rw [List.length_map] at fits
  omega

/-- Nothing new appears behind the rows that the first request found behind its cursor. -/
def Settled (position : Row → Position) (comesAfter : Position → Position → Bool)
    (cursor : Option Position) (old : List Position) : List (List Row) → Prop
  | [] => True
  | rows :: later =>
      (∀ row ∈ behind position comesAfter cursor rows, position row ∈ old) ∧
        ∀ other ∈ later, ∀ row ∈ other, ∀ first ∈ behind position comesAfter cursor rows,
          comesAfter (position first) (position row) = true → position row ∈ old

/-- What is settled at a request is settled behind the rows that it gave. -/
theorem Settled.rest
    (trans : ∀ first second third, comesAfter first second = true →
      comesAfter second third = true → comesAfter first third = true)
    {rows : List Row} {later : List (List Row)} {old : List Position}
    (settled : Settled position comesAfter cursor old (rows :: later)) {last : Row}
    (drawn : last ∈ KeysetWalk.behind position comesAfter cursor rows) :
    Settled position comesAfter (some (position last)) (old.filter (comesAfter (position last)))
      later := by
  cases later with
  | nil => trivial
  | cons next later =>
    obtain ⟨-, known⟩ := settled
    constructor
    · intro row own
      obtain ⟨there, behind⟩ := mem_behind_some.mp own
      exact List.mem_filter.mpr ⟨known next List.mem_cons_self row there last drawn behind, behind⟩
    · intro other member row own first among behind
      have reached := trans _ _ _ (mem_behind_some.mp among).2 behind
      exact List.mem_filter.mpr
        ⟨known other (List.mem_cons_of_mem _ member) row own last drawn reached, reached⟩

/-- Where nothing new appears behind the rows that were there at the start, the walk ends by
itself. -/
theorem Walked.finishes (positive : 0 < limit)
    (trans : ∀ first second third, comesAfter first second = true →
      comesAfter second third = true → comesAfter first third = true)
    (irrefl : ∀ place, comesAfter place place = false)
    (ordered : ∀ rows ∈ tables, rows.Pairwise fun first second =>
      comesAfter (position first) (position second) = true)
    (walked : Walked position comesAfter limit cursor tables pages) {old : List Position}
    (settled : Settled position comesAfter cursor old tables)
    (enough : old.length / limit < tables.length) :
    Finished pages ∧ pages.length ≤ old.length / limit + 1 := by
  induction walked generalizing old with
  | stopped => exact absurd enough (Nat.not_lt_zero _)
  | last short =>
    refine ⟨⟨_, List.mem_cons_self, decide_eq_false (Nat.not_lt.mpr short)⟩, ?_⟩
    simp
  | @more cursor rows front last tables pages long cut rest ih =>
    have drawn : ∀ row ∈ front ++ [last],
        row ∈ KeysetWalk.behind position comesAfter cursor rows := by
      intro row member
      rw [← cut] at member
      exact List.mem_of_mem_take member
    have sorted : ((KeysetWalk.behind position comesAfter cursor rows).take limit).Pairwise
        fun first second => comesAfter (position first) (position second) = true :=
      (pairwise_behind (ordered _ List.mem_cons_self) cursor).take
    rw [cut] at sorted
    have used := length_filter_add_le trans irrefl sorted fun row member =>
      settled.1 row (drawn row member)
    rw [← cut, List.length_take, Nat.min_eq_left (Nat.le_of_lt long)] at used
    have fewer := Nat.div_le_div_right (c := limit) used
    rw [Nat.add_div_right _ positive] at fewer
    rw [List.length_cons] at enough
    obtain ⟨⟨page, among, final⟩, few⟩ := ih
      (fun rows member => ordered rows (List.mem_cons_of_mem _ member))
      (settled.rest trans (drawn last (List.mem_append_right _ List.mem_cons_self)))
      (by omega)
    refine ⟨⟨page, List.mem_cons_of_mem _ among, final⟩, ?_⟩
    rw [List.length_cons]
    omega

end Facts
end Live
end KeysetWalk
