import Mathlib.Data.List.TakeWhile
import Mathlib.Logic.Relation

/-! # Regular expressions as a backtracking matcher reads them

A matcher tries the alternatives of an expression in order and takes the first way to read the text
after which the rest of the expression can be read too.  What it may read is given by the relation
`Reads`, and for expressions that do not look around by the words of a language, with the texts
that groups capture.
-/
namespace BacktrackingRegex

inductive Regex where
  | empty
  | char (accepts : Char → Bool)
  | boundary
  | seq (first second : Regex)
  | alt (first second : Regex)
  | star (body : Regex)
  | group (body : Regex)

/-- A place in a text: the character before it, the text from it on, and what the groups closed so
far have captured. -/
structure Cursor where
  previous : Option Char
  rest : List Char
  groups : List (List Char)

/-- The characters of `\w`. -/
def isWord (character : Char) : Bool :=
  character.isAlphanum || character = '_'

/-- `\b` holds between a word character and something else. -/
def Cursor.atBoundary (cursor : Cursor) : Bool :=
  cursor.previous.any isWord != cursor.rest.head?.any isWord

section Matching
variable {α : Type*}

/-- Read the body as often as the bound allows before going on, each time at least one character. -/
def iterate (body : (Cursor → Option α) → Cursor → Option α) (next : Cursor → Option α) :
    Nat → Cursor → Option α
  | 0, cursor => next cursor
  | bound + 1, cursor =>
      (body (fun later => if later.rest.length < cursor.rest.length then
        iterate body next bound later else none) cursor).or (next cursor)

/-- The first way to read the expression from here after which `next` succeeds. -/
def Regex.run : Regex → (Cursor → Option α) → Cursor → Option α
  | empty, next, cursor => next cursor
  | char accepts, next, cursor =>
      match cursor.rest with
      | character :: rest =>
          if accepts character then next { cursor with previous := some character, rest } else none
      | [] => none
  | boundary, next, cursor => if cursor.atBoundary then next cursor else none
  | seq first second, next, cursor => first.run (second.run next) cursor
  | alt first second, next, cursor => (first.run next cursor).or (second.run next cursor)
  | star body, next, cursor => iterate body.run next cursor.rest.length cursor
  | group body, next, cursor =>
      body.run (fun later => next { later with
        groups := later.groups ++ [cursor.rest.take (cursor.rest.length - later.rest.length)] })
        cursor

end Matching

/-- The expression can be read without reading a character. -/
def Regex.nullable : Regex → Bool
  | empty | boundary | star _ => true
  | char _ => false
  | seq first second => first.nullable && second.nullable
  | alt first second => first.nullable || second.nullable
  | group body => body.nullable

/-! ### Expressions built from others -/

def Regex.plus (body : Regex) : Regex := .seq body (.star body)

def Regex.optional (body : Regex) : Regex := .alt body .empty

/-- At least two. -/
def Regex.twice (body : Regex) : Regex := .seq body body.plus

/-- The characters one after another. -/
def Regex.sequence : List Regex → Regex
  | [] => .empty
  | [last] => last
  | first :: rest => .seq first (sequence rest)

def Regex.choice : List Regex → Regex
  | [] => .char fun _ => false
  | [last] => last
  | first :: rest => .alt first (choice rest)

/-- A literal text. -/
def Regex.literal (text : List Char) : Regex :=
  text.foldr (fun character rest => .seq (.char (· = character)) rest) .empty

/-- A literal text in letters of either case. -/
def Regex.caseless (text : List Char) : Regex :=
  text.foldr (fun character rest => .seq (.char (·.toLower = character.toLower)) rest) .empty

/-! ### What an expression may read -/

/-- The expression can be read from the first place to the second. -/
def Regex.Reads : Regex → Cursor → Cursor → Prop
  | empty, before, after => after = before
  | char accepts, before, after => ∃ character, before.rest = character :: after.rest ∧
      accepts character = true ∧ after.previous = some character ∧ after.groups = before.groups
  | boundary, before, after => after = before ∧ before.atBoundary = true
  | seq first second, before, after => ∃ between, first.Reads before between ∧
      second.Reads between after
  | alt first second, before, after => first.Reads before after ∨ second.Reads before after
  | star body, before, after => Relation.ReflTransGen
      (fun here there => body.Reads here there ∧ there.rest.length < here.rest.length) before after
  | group body, before, after => ∃ inner, body.Reads before inner ∧
      after = { inner with
        groups := inner.groups ++ [before.rest.take (before.rest.length - inner.rest.length)] }

section Matching
variable {α : Type*}

theorem exists_of_iterate {body : (Cursor → Option α) → Cursor → Option α}
    {reads : Cursor → Cursor → Prop}
    (sound : ∀ next cursor result, body next cursor = some result →
      ∃ later, reads cursor later ∧ next later = some result)
    {next : Cursor → Option α} {bound : Nat} {cursor : Cursor} {result : α}
    (found : iterate body next bound cursor = some result) :
    ∃ later, Relation.ReflTransGen
      (fun here there => reads here there ∧ there.rest.length < here.rest.length) cursor later ∧
      next later = some result := by
  induction bound generalizing cursor with
  | zero => exact ⟨cursor, .refl, found⟩
  | succ bound ih =>
    rw [iterate, Option.or_eq_some_iff] at found
    rcases found with again | ⟨-, now⟩
    · obtain ⟨later, read, continued⟩ := sound _ _ _ again
      by_cases shorter : later.rest.length < cursor.rest.length
      · rw [if_pos shorter] at continued
        obtain ⟨last, reads, result⟩ := ih continued
        exact ⟨last, .head ⟨read, shorter⟩ reads, result⟩
      · simp [shorter] at continued
    · exact ⟨cursor, .refl, now⟩

/-- What the matcher finds can be read. -/
theorem Regex.reads_of_run (regex : Regex) {next : Cursor → Option α} {cursor : Cursor}
    {result : α} (found : regex.run next cursor = some result) :
    ∃ later, regex.Reads cursor later ∧ next later = some result := by
  induction regex generalizing next cursor result with
  | empty => exact ⟨cursor, rfl, found⟩
  | char accepts =>
    obtain ⟨previous, rest, groups⟩ := cursor
    cases rest with
    | nil => simp [Regex.run] at found
    | cons character rest =>
      simp only [Regex.run] at found
      split at found
      · rename_i accepted
        exact ⟨⟨some character, rest, groups⟩, ⟨character, rfl, accepted, rfl, rfl⟩, found⟩
      · simp at found
  | boundary =>
    simp only [Regex.run] at found
    split at found
    · rename_i atBoundary
      exact ⟨cursor, ⟨rfl, atBoundary⟩, found⟩
    · simp at found
  | seq first second firstIh secondIh =>
    obtain ⟨between, readsFirst, continued⟩ := firstIh found
    obtain ⟨later, readsSecond, result⟩ := secondIh continued
    exact ⟨later, ⟨between, readsFirst, readsSecond⟩, result⟩
  | alt first second firstIh secondIh =>
    rw [Regex.run, Option.or_eq_some_iff] at found
    rcases found with left | ⟨-, right⟩
    · obtain ⟨later, reads, result⟩ := firstIh left
      exact ⟨later, .inl reads, result⟩
    · obtain ⟨later, reads, result⟩ := secondIh right
      exact ⟨later, .inr reads, result⟩
  | star body ih => exact exists_of_iterate (fun _ _ _ found => ih found) found
  | group body ih =>
    obtain ⟨inner, reads, result⟩ := ih found
    exact ⟨_, ⟨inner, reads, rfl⟩, result⟩

theorem isSome_iterate {body : (Cursor → Option α) → Cursor → Option α}
    {reads : Cursor → Cursor → Prop}
    (complete : ∀ next cursor later, reads cursor later → (next later).isSome = true →
      (body next cursor).isSome = true)
    {next : Cursor → Option α} {cursor later : Cursor}
    (path : Relation.ReflTransGen
      (fun here there => reads here there ∧ there.rest.length < here.rest.length) cursor later)
    (goes : (next later).isSome = true) (bound : Nat) (enough : cursor.rest.length ≤ bound) :
    (iterate body next bound cursor).isSome = true := by
  induction path using Relation.ReflTransGen.head_induction_on generalizing bound with
  | refl => cases bound <;> simp [iterate, goes]
  | head step path ih =>
    obtain ⟨read, shorter⟩ := step
    cases bound with
    | zero => omega
    | succ bound =>
      rw [iterate, Option.isSome_or, Bool.or_eq_true]
      refine .inl (complete _ _ _ read ?_)
      rw [if_pos shorter]
      exact ih bound (by omega)

/-- The matcher finds a way whenever there is one. -/
theorem Regex.isSome_run (regex : Regex) {next : Cursor → Option α} {cursor later : Cursor}
    (reads : regex.Reads cursor later) (goes : (next later).isSome = true) :
    (regex.run next cursor).isSome = true := by
  induction regex generalizing next cursor later with
  | empty =>
    obtain rfl : later = cursor := reads
    exact goes
  | char accepts =>
    obtain ⟨previous, rest, groups⟩ := cursor
    obtain ⟨character, same, accepted, before, captured⟩ := reads
    obtain ⟨previous', rest', groups'⟩ := later
    obtain rfl : rest = character :: rest' := same
    obtain rfl : previous' = some character := before
    obtain rfl : groups' = groups := captured
    simp only [Regex.run, accepted, if_true]
    exact goes
  | boundary =>
    obtain ⟨rfl, atBoundary⟩ := reads
    simp only [Regex.run, atBoundary, if_true]
    exact goes
  | seq first second firstIh secondIh =>
    obtain ⟨between, readsFirst, readsSecond⟩ := reads
    exact firstIh readsFirst (secondIh readsSecond goes)
  | alt first second firstIh secondIh =>
    rw [Regex.run, Option.isSome_or, Bool.or_eq_true]
    rcases reads with left | right
    · exact .inl (firstIh left goes)
    · exact .inr (secondIh right goes)
  | star body ih =>
    exact @isSome_iterate _ body.run body.Reads (fun _ _ _ read goes => ih read goes) _ _ _ reads
      goes _ (Nat.le_refl _)
  | group body ih =>
    obtain ⟨inner, reads, rfl⟩ := reads
    exact ih reads goes

end Matching

theorem Regex.length_of_reads (regex : Regex) {before after : Cursor}
    (reads : regex.Reads before after) : after.rest.length ≤ before.rest.length ∧
      (regex.nullable = false → after.rest.length < before.rest.length) := by
  induction regex generalizing before after with
  | empty =>
    obtain rfl : after = before := reads
    exact ⟨Nat.le_refl _, nofun⟩
  | char accepts =>
    obtain ⟨character, same, -, -, -⟩ := reads
    rw [same, List.length_cons]
    exact ⟨by omega, fun _ => by omega⟩
  | boundary =>
    obtain ⟨rfl, -⟩ := reads
    exact ⟨Nat.le_refl _, nofun⟩
  | seq first second firstIh secondIh =>
    obtain ⟨between, readsFirst, readsSecond⟩ := reads
    obtain ⟨le₁, lt₁⟩ := firstIh readsFirst
    obtain ⟨le₂, lt₂⟩ := secondIh readsSecond
    refine ⟨le₂.trans le₁, fun solid => ?_⟩
    rcases Bool.and_eq_false_iff.mp solid with solid | solid
    · exact Nat.lt_of_le_of_lt le₂ (lt₁ solid)
    · exact Nat.lt_of_lt_of_le (lt₂ solid) le₁
  | alt first second firstIh secondIh =>
    rcases reads with left | right
    · exact ⟨(firstIh left).1, fun solid => (firstIh left).2 (Bool.or_eq_false_iff.mp solid).1⟩
    · exact ⟨(secondIh right).1, fun solid => (secondIh right).2 (Bool.or_eq_false_iff.mp solid).2⟩
  | star body ih =>
    refine ⟨?_, nofun⟩
    have path : Relation.ReflTransGen (fun here there => body.Reads here there ∧
      there.rest.length < here.rest.length) before after := reads
    induction path with
    | refl => exact Nat.le_refl _
    | tail path step shorter => exact (Nat.le_of_lt step.2).trans (shorter path)
  | group body ih =>
    obtain ⟨inner, reads, rfl⟩ := reads
    exact ⟨(ih reads).1, (ih reads).2⟩

/-! ### The words of an expression -/

/-- Nonempty words one after another, and what they capture. -/
inductive Repeats (word : List Char → List (List Char) → Prop) :
    List Char → List (List Char) → Prop
  | nil : Repeats word [] []
  | cons {first rest : List Char} {groups more : List (List Char)} (nonempty : first ≠ [])
      (holds : word first groups) (repeats : Repeats word rest more) :
      Repeats word (first ++ rest) (groups ++ more)

/-- The words of an expression without boundaries, with the texts that its groups capture. -/
def Regex.Word : Regex → List Char → List (List Char) → Prop
  | empty, word, groups => word = [] ∧ groups = []
  | char accepts, word, groups =>
      (∃ character, word = [character] ∧ accepts character = true) ∧ groups = []
  | boundary, _, _ => False
  | seq first second, word, groups => ∃ left right captured more,
      first.Word left captured ∧ second.Word right more ∧
        word = left ++ right ∧ groups = captured ++ more
  | alt first second, word, groups => first.Word word groups ∨ second.Word word groups
  | star body, word, groups => Repeats body.Word word groups
  | group body, word, groups => ∃ inner, body.Word word inner ∧ groups = inner ++ [word]

/-- The expression does not look around. -/
def Regex.plain : Regex → Bool
  | boundary => false
  | seq first second | alt first second => first.plain && second.plain
  | star body | group body => body.plain
  | _ => true

/-- The place after a word has been read. -/
def Cursor.after (cursor : Cursor) (word rest : List Char) (groups : List (List Char)) : Cursor :=
  ⟨word.getLast?.or cursor.previous, rest, cursor.groups ++ groups⟩

theorem Cursor.after_after (cursor : Cursor) (left right middle rest : List Char)
    (captured more : List (List Char)) :
    (cursor.after left middle captured).after right rest more =
      cursor.after (left ++ right) rest (captured ++ more) := by
  simp [Cursor.after, List.getLast?_append, Option.or_assoc]

/-- From this place the text goes on with a word of the expression, up to the other place. -/
def Regex.Passes (regex : Regex) (before later : Cursor) : Prop :=
  ∃ word groups, regex.Word word groups ∧ before.rest = word ++ later.rest ∧
    later = before.after word later.rest groups

theorem passes_of_path {body : Regex} {before later : Cursor}
    (sound : ∀ before later, body.Reads before later → body.Passes before later)
    (path : Relation.ReflTransGen (fun here there => body.Reads here there ∧
      there.rest.length < here.rest.length) before later) :
    (Regex.star body).Passes before later := by
  induction path using Relation.ReflTransGen.head_induction_on with
  | refl => exact ⟨[], [], .nil, rfl, by simp [Cursor.after]⟩
  | @head here there step path ih =>
    obtain ⟨first, captured, isWord, same, moved⟩ := sound _ _ step.1
    obtain ⟨rest, more, repeats, same', moved'⟩ := ih
    have nonempty : first ≠ [] := by
      rintro rfl
      have shorter := step.2
      rw [same, List.nil_append] at shorter
      exact Nat.lt_irrefl _ shorter
    refine ⟨first ++ rest, captured ++ more, .cons nonempty isWord repeats, ?_, ?_⟩
    · rw [same, same', List.append_assoc]
    · rw [← Cursor.after_after here first rest there.rest, ← moved]
      exact moved'

theorem path_of_repeats {body : Regex} {word : List Char} {groups : List (List Char)}
    (complete : ∀ before word groups rest, body.Word word groups → before.rest = word ++ rest →
      body.Reads before (before.after word rest groups))
    (repeats : Repeats body.Word word groups) (before : Cursor) (rest : List Char)
    (same : before.rest = word ++ rest) :
    Relation.ReflTransGen (fun here there => body.Reads here there ∧
      there.rest.length < here.rest.length) before (before.after word rest groups) := by
  induction repeats generalizing before with
  | nil =>
    obtain ⟨previous, text, captured⟩ := before
    obtain rfl : text = rest := same
    simpa [Cursor.after] using Relation.ReflTransGen.refl
  | @cons first later captured more nonempty isWord repeats ih =>
    rw [List.append_assoc] at same
    have step := complete before first captured (later ++ rest) isWord same
    have shorter : (later ++ rest).length < before.rest.length := by
      have positive := List.length_pos_iff.mpr nonempty
      simp only [same, List.length_append]
      omega
    have path := ih (before.after first (later ++ rest) captured) rfl
    rw [Cursor.after_after] at path
    exact .head ⟨step, shorter⟩ path

/-- An expression that does not look around reads its words. -/
theorem Regex.reads_iff (regex : Regex) (plain : regex.plain = true) (before later : Cursor) :
    regex.Reads before later ↔ regex.Passes before later := by
  induction regex generalizing before later with
  | empty =>
    constructor
    · intro reads
      obtain rfl : later = before := reads
      exact ⟨[], [], ⟨rfl, rfl⟩, rfl, by simp [Cursor.after]⟩
    · rintro ⟨word, groups, ⟨rfl, rfl⟩, same, moved⟩
      rw [moved, ← List.nil_append later.rest, ← same]
      simp [Regex.Reads, Cursor.after]
  | char accepts =>
    constructor
    · rintro ⟨character, same, accepted, previous, groups⟩
      refine ⟨[character], [], ⟨⟨character, rfl, accepted⟩, rfl⟩, same, ?_⟩
      obtain ⟨previous', rest, groups'⟩ := later
      obtain rfl : previous' = some character := previous
      obtain rfl : groups' = before.groups := groups
      simp [Cursor.after]
    · rintro ⟨word, groups, ⟨⟨character, rfl, accepted⟩, rfl⟩, same, moved⟩
      refine ⟨character, same, accepted, ?_, ?_⟩ <;> rw [moved] <;> simp [Cursor.after]
  | boundary => simp [Regex.plain] at plain
  | seq first second firstIh secondIh =>
    rw [Regex.plain, Bool.and_eq_true] at plain
    constructor
    · rintro ⟨between, readsFirst, readsSecond⟩
      obtain ⟨left, captured, isLeft, same, moved⟩ := (firstIh plain.1 _ _).mp readsFirst
      obtain ⟨right, more, isRight, same', moved'⟩ := (secondIh plain.2 _ _).mp readsSecond
      refine ⟨left ++ right, captured ++ more, ⟨_, _, _, _, isLeft, isRight, rfl, rfl⟩, ?_, ?_⟩
      · rw [same, same', List.append_assoc]
      · rw [← Cursor.after_after before left right between.rest, ← moved]
        exact moved'
    · rintro ⟨word, groups, ⟨left, right, captured, more, isLeft, isRight, rfl, rfl⟩, same, moved⟩
      rw [List.append_assoc] at same
      refine ⟨before.after left (right ++ later.rest) captured, (firstIh plain.1 _ _).mpr
        ⟨left, captured, isLeft, same, rfl⟩, (secondIh plain.2 _ _).mpr
        ⟨right, more, isRight, rfl, ?_⟩⟩
      rw [Cursor.after_after]
      exact moved
  | alt first second firstIh secondIh =>
    rw [Regex.plain, Bool.and_eq_true] at plain
    rw [Regex.Reads, firstIh plain.1, secondIh plain.2]
    constructor
    · rintro (⟨word, groups, isWord, rest⟩ | ⟨word, groups, isWord, rest⟩)
      · exact ⟨word, groups, .inl isWord, rest⟩
      · exact ⟨word, groups, .inr isWord, rest⟩
    · rintro ⟨word, groups, isWord | isWord, rest⟩
      · exact .inl ⟨word, groups, isWord, rest⟩
      · exact .inr ⟨word, groups, isWord, rest⟩
  | star body ih =>
    constructor
    · exact passes_of_path fun _ _ reads => (ih plain _ _).mp reads
    · rintro ⟨word, groups, repeats, same, moved⟩
      have path := path_of_repeats (fun before word groups rest isWord same =>
        (ih plain before _).mpr ⟨word, groups, isWord, same, rfl⟩) repeats before later.rest same
      rw [← moved] at path
      exact path
  | group body ih =>
    constructor
    · rintro ⟨inner, reads, rfl⟩
      obtain ⟨word, groups, isWord, same, moved⟩ := (ih plain _ _).mp reads
      refine ⟨word, groups ++ [word], ⟨groups, isWord, rfl⟩, same, ?_⟩
      rw [same, moved]
      simp [Cursor.after]
    · rintro ⟨word, groups, ⟨captured, isWord, rfl⟩, same, moved⟩
      refine ⟨before.after word later.rest captured, (ih plain _ _).mpr
        ⟨word, captured, isWord, same, rfl⟩, ?_⟩
      rw [moved, same]
      simp [Cursor.after]

/-! ### Words of the expressions built from others -/

@[simp] theorem word_literal {text word : List Char} {groups : List (List Char)} :
    (Regex.literal text).Word word groups ↔ word = text ∧ groups = [] := by
  induction text generalizing word groups with
  | nil => rfl
  | cons character text ih =>
    constructor
    · rintro ⟨left, right, captured, more, ⟨⟨first, rfl, same⟩, rfl⟩, rest, rfl, rfl⟩
      obtain ⟨rfl, rfl⟩ := ih.mp rest
      simpa using same
    · rintro ⟨rfl, rfl⟩
      exact ⟨[character], text, [], [], ⟨⟨character, rfl, by simp⟩, rfl⟩, ih.mpr ⟨rfl, rfl⟩, rfl,
        rfl⟩

@[simp] theorem word_caseless {text word : List Char} {groups : List (List Char)} :
    (Regex.caseless text).Word word groups ↔
      word.map Char.toLower = text.map Char.toLower ∧ groups = [] := by
  induction text generalizing word groups with
  | nil => simp [Regex.caseless, Regex.Word]
  | cons character text ih =>
    constructor
    · rintro ⟨left, right, captured, more, ⟨⟨first, rfl, same⟩, rfl⟩, rest, rfl, rfl⟩
      obtain ⟨lower, rfl⟩ := ih.mp rest
      simpa [lower] using same
    · rintro ⟨lower, rfl⟩
      cases word with
      | nil => simp at lower
      | cons first word =>
        obtain ⟨same, rest⟩ := List.cons.inj lower
        exact ⟨[first], word, [], [], ⟨⟨first, rfl, by simpa using same⟩, rfl⟩,
          ih.mpr ⟨rest, rfl⟩, rfl, rfl⟩

@[simp] theorem word_star_char {accepts : Char → Bool} {word : List Char}
    {groups : List (List Char)} : (Regex.star (.char accepts)).Word word groups ↔
      (∀ character ∈ word, accepts character = true) ∧ groups = [] := by
  constructor
  · intro repeats
    change Repeats (Regex.char accepts).Word word groups at repeats
    induction repeats with
    | nil => simp
    | cons nonempty holds repeats ih =>
      obtain ⟨⟨character, rfl, accepted⟩, rfl⟩ := holds
      simpa [accepted] using ih
  · rintro ⟨accepted, rfl⟩
    change Repeats (Regex.char accepts).Word word []
    induction word with
    | nil => exact .nil
    | cons character word ih =>
      have first : (Regex.char accepts).Word [character] [] :=
        ⟨⟨character, rfl, accepted character List.mem_cons_self⟩, rfl⟩
      exact .cons (List.cons_ne_nil _ _) first
        (ih fun other member => accepted other (List.mem_cons_of_mem _ member))

@[simp] theorem word_plus_char {accepts : Char → Bool} {word : List Char}
    {groups : List (List Char)} : (Regex.plus (.char accepts)).Word word groups ↔
      (word ≠ [] ∧ ∀ character ∈ word, accepts character = true) ∧ groups = [] := by
  constructor
  · rintro ⟨left, right, captured, more, ⟨⟨character, rfl, accepted⟩, rfl⟩, rest, rfl, rfl⟩
    obtain ⟨all, rfl⟩ := word_star_char.mp rest
    simpa [accepted] using all
  · rintro ⟨⟨nonempty, accepted⟩, rfl⟩
    cases word with
    | nil => exact absurd rfl nonempty
    | cons character word =>
      exact ⟨[character], word, [], [], ⟨⟨character, rfl, accepted _ List.mem_cons_self⟩, rfl⟩,
        word_star_char.mpr ⟨fun other member => accepted other (List.mem_cons_of_mem _ member), rfl⟩,
        rfl, rfl⟩

/-! ### Matches at a place -/

/-- The match that begins here, if there is one. -/
def Regex.matchAt (regex : Regex) (previous : Option Char) (text : List Char) : Option Cursor :=
  regex.run some ⟨previous, text, []⟩

section
variable {regex body : Regex} {accepts : Char → Bool} {previous : Option Char}
  {text word rest : List Char} {groups : List (List Char)} {found : Cursor}

theorem exists_word_of_matchAt (plain : regex.plain = true)
    (matched : regex.matchAt previous text = some found) :
    ∃ word, regex.Word word found.groups ∧ text = word ++ found.rest := by
  obtain ⟨later, reads, same⟩ := regex.reads_of_run matched
  obtain rfl := Option.some.inj same
  obtain ⟨word, groups, isWord, text_eq, moved⟩ := (regex.reads_iff plain _ _).mp reads
  have captured : later.groups = groups := by
    rw [moved]
    rfl
  exact ⟨word, captured ▸ isWord, text_eq⟩

theorem isSome_matchAt (plain : regex.plain = true) (isWord : regex.Word word groups) :
    (regex.matchAt previous (word ++ rest)).isSome = true :=
  @Regex.isSome_run _ regex _ _ (Cursor.after ⟨previous, word ++ rest, []⟩ word rest groups)
    ((regex.reads_iff plain _ _).mpr ⟨word, groups, isWord, rfl, rfl⟩) rfl

/-- A repeated character class at the end of an expression reads as far as it can. -/
theorem run_star_char (cursor : Cursor) : (Regex.star (.char accepts)).run some cursor =
    some (cursor.after (cursor.rest.takeWhile accepts) (cursor.rest.dropWhile accepts) []) := by
  have reads : ∀ (rest : List Char) (previous : Option Char) (captured : List (List Char))
      (bound : Nat), rest.length ≤ bound →
      iterate (Regex.char accepts).run some bound ⟨previous, rest, captured⟩ =
        some (Cursor.after ⟨previous, rest, captured⟩ (rest.takeWhile accepts)
          (rest.dropWhile accepts) []) := by
    intro rest
    induction rest with
    | nil => intro previous captured bound _; cases bound <;> simp [iterate, Regex.run, Cursor.after]
    | cons character rest ih =>
      intro previous captured bound enough
      cases bound with
      | zero => simp at enough
      | succ bound =>
        have more := ih (some character) captured bound (by simpa using enough)
        by_cases accepted : accepts character = true
        · have first : ∀ next : Cursor → Option Cursor,
              (Regex.char accepts).run next ⟨previous, character :: rest, captured⟩ =
                next ⟨some character, rest, captured⟩ := by simp [Regex.run, accepted]
          rw [iterate, first, if_pos (by simp), more, Option.some_or,
            List.takeWhile_cons_of_pos accepted, List.dropWhile_cons_of_pos accepted]
          simp only [Cursor.after, List.getLast?_cons]
          cases (List.takeWhile accepts rest).getLast? <;> rfl
        · simp [iterate, Regex.run, accepted, Cursor.after]
  exact reads cursor.rest cursor.previous cursor.groups _ (Nat.le_refl _)

theorem exists_word_of_greedy (plain : body.plain = true)
    (matched : (Regex.seq body (.star (.char accepts))).matchAt previous text = some found) :
    ∃ word tail, body.Word word found.groups ∧ text = word ++ (tail ++ found.rest) ∧
      (∀ character ∈ tail, accepts character = true) ∧
      ∀ character ∈ found.rest.head?, accepts character = false := by
  obtain ⟨later, reads, rest⟩ := body.reads_of_run matched
  rw [run_star_char] at rest
  obtain rfl := Option.some.inj rest
  obtain ⟨word, groups, isWord, text_eq, moved⟩ := (body.reads_iff plain _ _).mp reads
  refine ⟨word, later.rest.takeWhile accepts, ?_, ?_, fun _ => List.mem_takeWhile_imp, ?_⟩
  · rw [moved]
    simpa [Cursor.after] using isWord
  · simpa [Cursor.after] using text_eq
  · intro character first
    have stopped := List.head?_dropWhile_not accepts later.rest
    simp only [Cursor.after, Option.mem_def] at first
    simpa [first] using stopped

theorem isSome_greedy (plain : body.plain = true) (isWord : body.Word word groups) :
    ((Regex.seq body (.star (.char accepts))).matchAt previous (word ++ rest)).isSome = true := by
  refine @Regex.isSome_run _ body _ _ (Cursor.after ⟨previous, word ++ rest, []⟩ word rest groups)
    ((body.reads_iff plain _ _).mpr ⟨word, groups, isWord, rfl, rfl⟩) ?_
  rw [run_star_char]
  rfl

end

end BacktrackingRegex
