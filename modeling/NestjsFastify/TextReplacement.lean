import NestjsFastify.BacktrackingRegex

/-! # Replacing all matches in a text

The text is scanned from its beginning, and each match of the expression is replaced before the scan
goes on behind it.  A text may be divided in two where a match that runs across the division leaves
the first part as it is; what the scan makes of the first part then depends on the second one only
by its first character, for rules whose matches end where a character does not fit.
-/
namespace TextReplacement
open BacktrackingRegex

/-- `text.replace(regex, render)` with the flag `g`, for an expression that reads no empty text. -/
structure Rule where
  regex : Regex
  render : (matched : List Char) → (groups : List (List Char)) → List Char
  solid : regex.nullable = false

/-- No character comes next that would still fit. -/
def Stops (fits : Char → Bool) (rest : List Char) : Prop :=
  ∀ character ∈ rest.head?, fits character = false

theorem stops_cons {fits : Char → Bool} {character : Char} {rest : List Char}
    (unfit : fits character = false) : Stops fits (character :: rest) := by
  intro first same
  obtain rfl := Option.some.inj same
  exact unfit

theorem stops_append {fits : Char → Bool} {text rest : List Char} (nonempty : text ≠ [])
    (unfit : ∀ character ∈ text, fits character = false) : Stops fits (text ++ rest) := by
  cases text with
  | nil => exact absurd rfl nonempty
  | cons character text => exact stops_cons (unfit _ List.mem_cons_self)

theorem stops_append_cons {fits : Char → Bool} {text rest : List Char} {character : Char}
    (unfit : ∀ other ∈ text, fits other = false) (last : fits character = false) :
    Stops fits (text ++ character :: rest) := by
  cases text with
  | nil => exact stops_cons last
  | cons first text => exact stops_cons (unfit _ List.mem_cons_self)

namespace Rule

/-- The length of the match that begins here and what it is replaced by. -/
def find (rule : Rule) (previous : Option Char) (text : List Char) : Option (Nat × List Char) :=
  (rule.regex.matchAt previous text).map fun found =>
    let length := text.length - found.rest.length
    (length, rule.render (text.take length) found.groups)

/-- The scan: the first `skip` characters belong to a match that has been replaced. -/
def pass (rule : Rule) : Nat → Option Char → List Char → List Char
  | _, _, [] => []
  | skip + 1, _, character :: rest => rule.pass skip (some character) rest
  | 0, previous, character :: rest =>
      match rule.find previous (character :: rest) with
      | some (length, replaced) => replaced ++ rule.pass (length - 1) (some character) rest
      | none => character :: rule.pass 0 (some character) rest

def replaceAll (rule : Rule) (text : List Char) : List Char := rule.pass 0 none text

/-- What a match that runs across a division has still to do behind it: put a text in the place of
some characters. -/
structure Pending where
  count : Nat := 0
  replaced : List Char := []
  deriving DecidableEq, Repr

/-- What the scan makes of the first part of a text, `back` being the rest, and what is pending
then; nothing if a match runs across the division and changes the first part. -/
def upTo (rule : Rule) (back : List Char) :
    Nat → Option Char → List Char → Option (List Char × Pending)
  | 0, _, [] => some ([], {})
  | _ + 1, _, [] => none
  | skip + 1, _, character :: front => rule.upTo back skip (some character) front
  | 0, previous, character :: front =>
      match rule.find previous (character :: (front ++ back)) with
      | some (length, replaced) =>
          if length ≤ (character :: front).length then
            (rule.upTo back (length - 1) (some character) front).map (Prod.map (replaced ++ ·) id)
          else if character :: front <+: replaced then
            some (character :: front, ⟨length - (character :: front).length,
              replaced.drop (character :: front).length⟩)
          else none
      | none => (rule.upTo back 0 (some character) front).map (Prod.map (character :: ·) id)

/-- What the scan makes of a text up to the end of a match that runs across a division of it, and
how much of the second part that match takes; nothing if there is no such match. -/
def across (rule : Rule) (back : List Char) :
    Nat → Option Char → List Char → Option (List Char × Nat)
  | _, _, [] => none
  | skip + 1, _, character :: front => rule.across back skip (some character) front
  | 0, previous, character :: front =>
      match rule.find previous (character :: (front ++ back)) with
      | some (length, replaced) =>
          if length ≤ (character :: front).length then
            (rule.across back (length - 1) (some character) front).map
              (Prod.map (replaced ++ ·) id)
          else some (replaced, length - (character :: front).length)
      | none => (rule.across back 0 (some character) front).map (Prod.map (character :: ·) id)

/-- The scan makes `made` of the first part of a text, and something is pending behind it. -/
inductive Turns (rule : Rule) (back : List Char) :
    Option Char → List Char → List Char → Pending → Prop
  | nil {previous : Option Char} : Turns rule back previous [] [] {}
  | run {previous : Option Char} {kept : List Char} {pending : Pending} (nonempty : kept ≠ [])
      (positive : 0 < pending.count)
      (matched : rule.find previous (kept ++ back) =
        some (kept.length + pending.count, kept ++ pending.replaced)) :
      Turns rule back previous kept kept pending
  | keep {previous : Option Char} {character : Char} {front made : List Char} {pending : Pending}
      (unmatched : rule.find previous (character :: (front ++ back)) = none)
      (rest : Turns rule back (some character) front made pending) :
      Turns rule back previous (character :: front) (character :: made) pending
  | replace {previous : Option Char} {word front replaced made : List Char} {pending : Pending}
      (nonempty : word ≠ [])
      (matched : rule.find previous (word ++ (front ++ back)) = some (word.length, replaced))
      (rest : Turns rule back word.getLast? front made pending) :
      Turns rule back previous (word ++ front) (replaced ++ made) pending

variable {rule : Rule} {previous : Option Char} {text front back back' word made made' : List Char}
  {length : Nat} {replaced : List Char} {pending pending' : Pending}

theorem length_pos_of_find (found : rule.find previous text = some (length, replaced)) :
    0 < length ∧ length ≤ text.length := by
  obtain ⟨cursor, matched, same⟩ := Option.map_eq_some_iff.mp found
  obtain ⟨later, reads, here⟩ := rule.regex.reads_of_run matched
  obtain rfl := Option.some.inj here
  have shorter : later.rest.length < text.length :=
    (rule.regex.length_of_reads reads).2 rule.solid
  simp only [Prod.mk.injEq] at same
  omega

theorem upTo_skip {skip : Nat} {result : List Char × Pending}
    (scanned : rule.upTo back skip previous front = some result) :
    skip ≤ front.length ∧ rule.upTo back 0 ((front.take skip).getLast?.or previous)
      (front.drop skip) = some result := by
  induction front generalizing skip previous with
  | nil =>
    cases skip with
    | zero => exact ⟨Nat.le_refl _, scanned⟩
    | succ skip => simp [upTo] at scanned
  | cons character front ih =>
    cases skip with
    | zero => exact ⟨Nat.zero_le _, scanned⟩
    | succ skip =>
      obtain ⟨le, rest⟩ := ih scanned
      refine ⟨Nat.succ_le_succ le, ?_⟩
      rw [List.take_succ_cons, List.drop_succ_cons, List.getLast?_cons]
      cases last : (front.take skip).getLast? <;> simpa [last] using rest

theorem turns_of_upTo (scanned : rule.upTo back 0 previous front = some (made, pending)) :
    rule.Turns back previous front made pending := by
  induction size : front.length using Nat.strong_induction_on generalizing front previous made with
  | _ size ih =>
    cases front with
    | nil =>
      obtain ⟨rfl, rfl⟩ := Prod.mk.inj (Option.some.inj scanned)
      exact .nil
    | cons character front =>
      simp only [upTo] at scanned
      split at scanned
      · rename_i length replaced found
        split at scanned
        · obtain ⟨⟨rest, later⟩, behind, same⟩ := Option.map_eq_some_iff.mp scanned
          obtain ⟨rfl, rfl⟩ := Prod.mk.inj same
          obtain ⟨le, behind⟩ := upTo_skip behind
          have positive := (length_pos_of_find found).1
          have divided : character :: front =
              (character :: front.take (length - 1)) ++ front.drop (length - 1) := by simp
          have measured : (character :: front.take (length - 1)).length = length := by
            rw [List.length_cons, List.length_take]
            omega
          have last : (character :: front.take (length - 1)).getLast? =
              (front.take (length - 1)).getLast?.or (some character) := by
            rw [List.getLast?_cons]
            cases (front.take (length - 1)).getLast? <;> rfl
          rw [divided]
          refine .replace (List.cons_ne_nil _ _) ?_ (last ▸ ih _ ?_ behind rfl)
          · rw [measured, ← List.append_assoc, ← divided]
            exact found
          · simp only [List.length_drop, List.length_cons] at size ⊢
            omega
        · rename_i long
          obtain ⟨⟨text, rfl⟩, same⟩ := Option.ite_none_right_eq_some.mp scanned
          obtain ⟨rfl, rfl⟩ := Prod.mk.inj (Option.some.inj same)
          refine .run (List.cons_ne_nil _ _) (Nat.sub_pos_of_lt (Nat.lt_of_not_le long)) ?_
          rw [List.drop_left, Nat.add_sub_cancel' (Nat.le_of_not_le long)]
          exact found
      · rename_i unmatched
        obtain ⟨⟨rest, later⟩, behind, same⟩ := Option.map_eq_some_iff.mp scanned
        obtain ⟨rfl, rfl⟩ := Prod.mk.inj same
        exact .keep unmatched (ih _ (by simp [← size]) behind rfl)

/-- Where nothing has to be replaced behind the division, nothing is put there. -/
theorem Turns.pending_eq (turns : rule.Turns back previous front made pending)
    (none : pending.count = 0) : pending = {} := by
  induction turns with
  | nil => rfl
  | run _ positive => omega
  | keep _ _ ih => exact ih none
  | replace _ _ _ ih => exact ih none

/-! ### The scan -/

theorem pass_skip (word rest : List Char) (previous : Option Char) :
    rule.pass word.length previous (word ++ rest) =
      rule.pass 0 (word.getLast?.or previous) rest := by
  induction word generalizing previous with
  | nil => rfl
  | cons character word ih =>
    rw [List.length_cons, List.cons_append, pass, ih, List.getLast?_cons]
    cases word.getLast? <;> rfl

/-- Behind a match the scan begins anew. -/
theorem pass_of_find {rest : List Char} (nonempty : word ≠ [])
    (matched : rule.find previous (word ++ rest) = some (word.length, replaced)) :
    rule.pass 0 previous (word ++ rest) = replaced ++ rule.pass 0 word.getLast? rest := by
  cases word with
  | nil => exact absurd rfl nonempty
  | cons character word =>
    rw [List.cons_append] at matched ⊢
    rw [pass, matched]
    simp only [List.length_cons, Nat.add_sub_cancel, pass_skip, List.getLast?_cons]
    cases word.getLast? <;> rfl

/-- The scan goes on behind what is pending. -/
theorem Turns.pass (turns : rule.Turns back previous front made pending) :
    rule.pass 0 previous (front ++ back) = made ++ (pending.replaced ++
      rule.pass 0 ((front ++ back.take pending.count).getLast?.or previous)
        (back.drop pending.count)) := by
  induction turns with
  | nil => simp
  | @run previous kept pending nonempty positive matched =>
    obtain ⟨-, short⟩ := length_pos_of_find matched
    have long : pending.count ≤ back.length := by
      rw [List.length_append] at short
      omega
    have read : (kept ++ back.take pending.count).length = kept.length + pending.count := by
      rw [List.length_append, List.length_take_of_le long]
    have whole : kept ++ back = kept ++ back.take pending.count ++ back.drop pending.count := by
      rw [List.append_assoc, List.take_append_drop]
    have some : kept ++ back.take pending.count ≠ [] := by simp [nonempty]
    rw [whole, ← read] at matched
    rw [whole, pass_of_find some matched, List.append_assoc]
    cases last : (kept ++ back.take pending.count).getLast? with
    | none => exact absurd (List.getLast?_eq_none_iff.mp last) some
    | some character => rfl
  | @keep previous character front made pending unmatched rest ih =>
    rw [List.cons_append, Rule.pass, unmatched]
    simp only [ih, List.cons_append, List.getLast?_cons]
    cases (front ++ back.take pending.count).getLast? <;> rfl
  | @replace previous word front replaced made pending nonempty matched rest ih =>
    have joined : (word ++ front ++ back.take pending.count).getLast? =
        (front ++ back.take pending.count).getLast?.or word.getLast? := by
      rw [List.append_assoc, List.getLast?_append]
    rw [List.append_assoc, pass_of_find nonempty matched, ih, List.append_assoc, joined]
    cases last : word.getLast? with
    | none => exact absurd (List.getLast?_eq_none_iff.mp last) nonempty
    | some character => cases (front ++ back.take pending.count).getLast? <;> rfl

/-- The scan goes on behind a match that runs across a division. -/
theorem pass_of_across {skip count : Nat}
    (found : rule.across back skip previous front = some (made, count)) :
    rule.pass skip previous (front ++ back) = made ++
      rule.pass 0 ((front ++ back.take count).getLast?.or previous) (back.drop count) := by
  induction front generalizing skip previous made with
  | nil => simp [across] at found
  | cons character front ih =>
    have last (text : List Char) : (character :: text).getLast?.or previous =
        text.getLast?.or (some character) := by
      rw [List.getLast?_cons]
      cases text.getLast? <;> rfl
    rw [List.cons_append, List.cons_append, last]
    cases skip with
    | succ skip => exact ih found
    | zero =>
      simp only [across] at found
      rw [pass]
      split at found
      · rename_i length replaced matched
        split at found
        · obtain ⟨⟨rest, later⟩, behind, same⟩ := Option.map_eq_some_iff.mp found
          obtain ⟨rfl, rfl⟩ := Prod.mk.inj same
          simp only [ih behind, List.append_assoc]
        · rename_i long
          obtain ⟨rfl, rfl⟩ := Prod.mk.inj (Option.some.inj found)
          have short := (length_pos_of_find matched).2
          simp only [List.length_cons, List.length_append] at short long ⊢
          have read : (front ++ back.take (length - (front.length + 1))).length = length - 1 := by
            rw [List.length_append, List.length_take_of_le (by omega)]
            omega
          have whole : front ++ back = front ++ back.take (length - (front.length + 1)) ++
              back.drop (length - (front.length + 1)) := by
            rw [List.append_assoc, List.take_append_drop]
          simp only [whole, ← read, pass_skip]
      · rename_i unmatched
        obtain ⟨⟨rest, later⟩, behind, same⟩ := Option.map_eq_some_iff.mp found
        obtain ⟨rfl, rfl⟩ := Prod.mk.inj same
        simp only [ih behind, List.cons_append]

/-- What precedes the text does not matter if it does not matter for a match at its beginning. -/
theorem pass_previous {previous' : Option Char}
    (same : rule.find previous text = rule.find previous' text) :
    rule.pass 0 previous text = rule.pass 0 previous' text := by
  cases text with
  | nil => rfl
  | cons character rest => rw [pass, pass, same]

/-- Behind a common part the scan goes on alike, whatever precedes that part. -/
theorem pass_behind (alike : ∀ previous previous', rule.find previous text =
    rule.find previous' text) (before before' : List Char) (count : Nat) :
    rule.pass 0 (before ++ text.take count).getLast? (text.drop count) =
      rule.pass 0 (before' ++ text.take count).getLast? (text.drop count) := by
  cases count with
  | zero => exact pass_previous (alike _ _)
  | succ count =>
    cases text with
    | nil => rfl
    | cons character text =>
      rw [List.take_succ_cons, List.getLast?_append, List.getLast?_append, List.getLast?_cons]
      rfl

/-- The text keeps its first character if a match at its beginning does. -/
theorem head_pass (keeps : ∀ length replaced,
    rule.find previous text = some (length, replaced) → replaced.head? = text.head?) :
    (rule.pass 0 previous text).head? = text.head? := by
  cases text with
  | nil => rfl
  | cons character rest =>
    rw [pass]
    split
    · rename_i length replaced found
      have first := keeps _ _ found
      cases replaced with
      | nil => simp at first
      | cons head replaced => exact first
    · rfl

/-! ### Divisions -/

/-- A match within the first part of a text depends on the rest only by its first character. -/
def Local (rule : Rule) : Prop :=
  ∀ previous front back back' length replaced, back.head? = back'.head? →
    rule.find previous (front ++ back) = some (length, replaced) → length ≤ front.length →
    rule.find previous (front ++ back') = some (length, replaced)

/-- A part in which no match begins stays as it is. -/
theorem Turns.eq_self_of_none (turns : rule.Turns back previous front made pending)
    (none : ∀ left right previous, front = left ++ right → right ≠ [] →
      rule.find previous (right ++ back) = none) : made = front := by
  induction turns with
  | nil => rfl
  | run => rfl
  | @keep previous character front made pending unmatched rest ih =>
    rw [ih fun left right previous same => none (character :: left) right previous (by rw [same]; rfl)]
  | @replace previous word front replaced made pending nonempty matched =>
    have unmatched := none [] (word ++ front) previous rfl (by simp [nonempty])
    rw [List.append_assoc, matched] at unmatched
    simp at unmatched

/-- A match begins with `kept`, leaves it as it is, and something is pending behind it. -/
def Runs (rule : Rule) (kept back : List Char) (pending : Pending) : Prop :=
  kept ≠ [] ∧ ∃ previous, rule.find previous (kept ++ back) =
    some (kept.length + pending.count, kept ++ pending.replaced)

theorem Turns.exists_runs (turns : rule.Turns back previous front made pending)
    (positive : 0 < pending.count) :
    ∃ left kept, front = left ++ kept ∧ rule.Runs kept back pending := by
  induction turns with
  | nil => exact absurd positive (Nat.lt_irrefl 0)
  | run nonempty _ matched => exact ⟨[], _, rfl, nonempty, _, matched⟩
  | @keep _ character _ _ _ _ _ ih =>
    obtain ⟨left, kept, rfl, runs⟩ := ih positive
    exact ⟨character :: left, kept, rfl, runs⟩
  | @replace _ word _ _ _ _ _ _ _ ih =>
    obtain ⟨left, kept, rfl, runs⟩ := ih positive
    exact ⟨word ++ left, kept, (List.append_assoc ..).symm, runs⟩

/-- Inside the part that a match leaves as it is, no match begins, however the text goes on behind
the part. -/
def Quiet (rule : Rule) (back : List Char) (pending : Pending) : Prop :=
  ∀ kept, rule.Runs kept back pending → ∀ left right, kept = left ++ right → left ≠ [] →
    right ≠ [] → ∀ previous back', rule.find previous (right ++ back') = none

/-- The first part of two texts that go on with the same character is scanned alike. -/
theorem Turns.agree (isLocal : rule.Local) (same : back.head? = back'.head?)
    (turns : rule.Turns back previous front made pending)
    (turns' : rule.Turns back' previous front made' pending')
    (quiet : 0 < pending.count → rule.Quiet back pending)
    (quiet' : 0 < pending'.count → rule.Quiet back' pending') : made = made' := by
  induction turns generalizing made' with
  | nil =>
    generalize empty : ([] : List Char) = front at turns'
    cases turns' with
    | nil => rfl
    | run => rfl
    | keep => simp at empty
    | replace nonempty => exact absurd (List.append_eq_nil_iff.mp empty.symm).1 nonempty
  | @run previous kept pending nonempty positive matched =>
    generalize whole : kept = front at turns'
    cases turns' with
    | nil => rfl
    | run => rfl
    | @keep _ character front made' _ unmatched rest =>
      subst whole
      rw [rest.eq_self_of_none fun left right previous' here some =>
        quiet positive _ ⟨nonempty, _, matched⟩ (character :: left) right (by rw [here]; rfl)
          (List.cons_ne_nil _ _) some previous' back']
    | @replace _ word front replaced made' _ _ found rest =>
      subst whole
      rw [← List.append_assoc] at found
      have here := isLocal _ _ _ back _ _ same.symm found (by simp)
      rw [matched] at here
      have lengths := (Prod.mk.inj (Option.some.inj here)).1
      rw [List.length_append] at lengths
      omega
  | @keep previous character front made pending unmatched rest ih =>
    generalize divided : character :: front = whole at turns'
    cases turns' with
    | nil => simp at divided
    | run nonempty positive matched =>
      subst divided
      rw [rest.eq_self_of_none fun left right previous' here some =>
        quiet' positive _ ⟨nonempty, _, matched⟩ (character :: left) right (by rw [here]; rfl)
          (List.cons_ne_nil _ _) some previous' back]
    | keep _ rest' =>
      obtain ⟨rfl, rfl⟩ := List.cons.inj divided
      rw [ih rest' quiet]
    | @replace _ word after replaced _ _ _ matched _ =>
      rw [← List.append_assoc, ← divided] at matched
      have short : word.length ≤ (character :: front).length := by
        rw [divided, List.length_append]
        exact Nat.le_add_right _ _
      have here := isLocal _ _ _ back _ _ same.symm matched short
      rw [List.cons_append, unmatched] at here
      simp at here
  | @replace previous word front replaced made pending nonempty matched rest ih =>
    have matched' : rule.find previous (word ++ front ++ back') =
        some (word.length, replaced) := by
      rw [← List.append_assoc] at matched
      exact isLocal _ _ _ back' _ _ same matched (by simp)
    generalize divided : word ++ front = whole at turns' matched'
    cases turns' with
    | nil => exact absurd (List.append_eq_nil_iff.mp divided).1 nonempty
    | run _ positive found =>
      rw [found] at matched'
      have lengths := (Prod.mk.inj (Option.some.inj matched')).1
      rw [← divided, List.length_append] at lengths
      omega
    | keep unmatched' =>
      rw [List.cons_append, unmatched'] at matched'
      simp at matched'
    | @replace _ word' front' replaced' made' _ _ found rest' =>
      rw [List.append_assoc, found] at matched'
      obtain ⟨lengths, rfl⟩ := Prod.mk.inj (Option.some.inj matched')
      obtain ⟨rfl, rfl⟩ := List.append_inj divided lengths.symm
      rw [ih rest' quiet]

/-- What follows a match is scanned anew. -/
theorem pass_eq_drop (found : rule.find previous text = some (length, replaced)) :
    rule.pass 0 previous text =
      replaced ++ rule.pass 0 (text.take length).getLast? (text.drop length) := by
  obtain ⟨positive, short⟩ := length_pos_of_find found
  have measured : (text.take length).length = length := List.length_take_of_le short
  have matched : rule.find previous (text.take length ++ text.drop length) =
      some ((text.take length).length, replaced) := by
    rw [List.take_append_drop, measured]
    exact found
  have nonempty : text.take length ≠ [] := by
    rw [← List.length_pos_iff, measured]
    exact positive
  simpa only [List.take_append_drop] using pass_of_find nonempty matched

/-- Two texts that differ behind a common part are scanned alike if what is behind it is, and every
match that runs out of the common part ends where the texts have become the same. -/
theorem pass_eq_of_covers (isLocal : rule.Local)
    (free : ∀ previous previous' text, rule.find previous text = rule.find previous' text)
    (same : back.head? = back'.head?)
    (whole : ∀ previous, rule.pass 0 previous back = rule.pass 0 previous back')
    (covers : ∀ previous front length replaced, front ≠ [] → front.length < length →
      (rule.find previous (front ++ back) = some (length, replaced) ∨
        rule.find previous (front ++ back') = some (length, replaced)) →
      ∃ covered covered', rule.find previous (front ++ back) = some (covered, replaced) ∧
        rule.find previous (front ++ back') = some (covered', replaced) ∧
        (front ++ back).drop covered = (front ++ back').drop covered') :
    rule.pass 0 previous (front ++ back) = rule.pass 0 previous (front ++ back') := by
  induction size : front.length using Nat.strong_induction_on generalizing front previous with
  | _ size ih =>
    cases front with
    | nil => exact whole previous
    | cons character front =>
      have nonempty : character :: front ≠ [] := List.cons_ne_nil _ _
      cases found : rule.find previous (character :: front ++ back) with
      | none =>
        have found' : rule.find previous (character :: front ++ back') = none := by
          cases found' : rule.find previous (character :: front ++ back') with
          | none => rfl
          | some result =>
            obtain ⟨length, replaced⟩ := result
            by_cases short : length ≤ (character :: front).length
            · rw [isLocal _ _ _ back _ _ same.symm found' short] at found
              simp at found
            · obtain ⟨covered, covered', now, -⟩ :=
                covers _ _ _ _ nonempty (by omega) (.inr found')
              rw [now] at found
              simp at found
        rw [List.cons_append] at found found' ⊢
        rw [List.cons_append, pass, pass, found, found']
        simp only [ih front.length (by simp [← size]) rfl]
      | some result =>
        obtain ⟨length, replaced⟩ := result
        by_cases short : length ≤ (character :: front).length
        · have positive := (length_pos_of_find found).1
          have found' := isLocal _ _ _ back' _ _ same found short
          rw [pass_eq_drop found, pass_eq_drop found', List.take_append_of_le_length short,
            List.take_append_of_le_length short, List.drop_append_of_le_length short,
            List.drop_append_of_le_length short]
          rw [ih _ (by rw [List.length_drop]; omega) rfl]
        · obtain ⟨covered, covered', now, now', rest⟩ :=
            covers _ _ _ _ nonempty (by omega) (.inl found)
          rw [pass_eq_drop now, pass_eq_drop now', rest]
          exact congrArg _ (pass_previous (free _ _ _))

/-- A part without the characters that every match needs stays as it is. -/
theorem Turns.eq_self {needed : Char → Bool}
    (needs : ∀ previous text length replaced, rule.find previous text = some (length, replaced) →
      ∃ character ∈ text.take length, needed character = true)
    (plain : ∀ character ∈ front, needed character = false)
    (turns : rule.Turns back previous front made pending) : made = front := by
  induction turns with
  | nil => rfl
  | run => rfl
  | keep _ _ ih => rw [ih fun other member => plain other (List.mem_cons_of_mem _ member)]
  | replace nonempty matched _ _ =>
    obtain ⟨character, member, special⟩ := needs _ _ _ _ matched
    rw [List.take_left] at member
    rw [plain character (List.mem_append_left _ member)] at special
    simp at special

/-- A property of characters that every replacement keeps. -/
theorem Turns.all {property : Char → Prop}
    (keeps : ∀ previous text length replaced, rule.find previous text = some (length, replaced) →
      (∀ character ∈ text.take length, property character) →
      ∀ character ∈ replaced, property character)
    (turns : rule.Turns back previous front made pending)
    (holds : ∀ character ∈ front, property character) : ∀ character ∈ made, property character := by
  induction turns with
  | nil => exact holds
  | run => exact holds
  | keep _ _ ih =>
    rw [List.forall_mem_cons] at holds ⊢
    exact ⟨holds.1, ih holds.2⟩
  | replace _ matched _ ih =>
    rw [List.forall_mem_append] at holds ⊢
    refine ⟨keeps _ _ _ _ matched ?_, ih holds.2⟩
    rw [List.take_left]
    exact holds.1

theorem Turns.ne_nil
    (nonempty : ∀ previous text length, rule.find previous text ≠ some (length, []))
    (turns : rule.Turns back previous front made pending) (some : front ≠ []) : made ≠ [] := by
  cases turns with
  | nil => exact absurd rfl some
  | run nonempty => exact nonempty
  | keep => exact List.cons_ne_nil _ _
  | replace _ matched _ =>
    intro empty
    rw [List.append_eq_nil_iff] at empty
    exact nonempty _ _ _ (empty.1 ▸ matched)

/-- The part keeps its last character if a match at its end does. -/
theorem Turns.getLast (keeps : ∀ previous word replaced,
      rule.find previous (word ++ back) = some (word.length, replaced) →
      replaced.getLast? = word.getLast?)
    (turns : rule.Turns back previous front made pending) : made.getLast? = front.getLast? := by
  induction turns with
  | nil => rfl
  | run => rfl
  | keep _ _ ih => rw [List.getLast?_cons, List.getLast?_cons, ih]
  | @replace previous word front replaced made pending nonempty matched rest ih =>
    rw [List.getLast?_append, List.getLast?_append, ih]
    cases front with
    | nil =>
      rw [keeps _ _ _ matched]
    | cons character front => simp [List.getLast?_cons]

/-! ### Forms -/

/-- The matches of the rule are the words of a form that end where a character does not fit. -/
def Follows (rule : Rule) (Form : Option Char → List Char → List Char → Prop)
    (fits : Char → Bool) : Prop :=
  ∀ previous text length replaced, rule.find previous text = some (length, replaced) ↔
    ∃ word rest, text = word ++ rest ∧ word.length = length ∧ Form previous word replaced ∧
      Stops fits rest

section
variable {Form : Option Char → List Char → List Char → Prop} {fits : Char → Bool}

theorem follows_of_unique
    (sound : ∀ previous text found, rule.regex.matchAt previous text = some found →
      ∃ word, text = word ++ found.rest ∧ Form previous word (rule.render word found.groups) ∧
        Stops fits found.rest)
    (complete : ∀ previous word replaced rest, Form previous word replaced → Stops fits rest →
      (rule.regex.matchAt previous (word ++ rest)).isSome = true)
    (unique : ∀ previous word replaced rest word' replaced' rest', Form previous word replaced →
      Form previous word' replaced' → Stops fits rest → Stops fits rest' →
      word ++ rest = word' ++ rest' → word = word' ∧ replaced = replaced') :
    rule.Follows Form fits := by
  have finds : ∀ previous text length replaced,
      rule.find previous text = some (length, replaced) →
      ∃ word rest, text = word ++ rest ∧ word.length = length ∧ Form previous word replaced ∧
        Stops fits rest := by
    intro previous text length replaced found
    obtain ⟨cursor, matched, same⟩ := Option.map_eq_some_iff.mp found
    obtain ⟨word, rfl, form, stops⟩ := sound _ _ _ matched
    obtain ⟨measured, rendered⟩ := Prod.mk.inj same
    have size : (word ++ cursor.rest).length - cursor.rest.length = word.length := by simp
    rw [size] at measured
    rw [size, List.take_left] at rendered
    exact ⟨word, cursor.rest, rfl, measured, rendered ▸ form, stops⟩
  intro previous text length replaced
  refine ⟨finds _ _ _ _, ?_⟩
  rintro ⟨word, rest, rfl, rfl, form, stops⟩
  obtain ⟨cursor, matched⟩ := Option.isSome_iff_exists.mp (complete _ _ _ rest form stops)
  have found : rule.find previous (word ++ rest) = some (_, _) := Option.map_eq_some_iff.mpr
    ⟨cursor, matched, rfl⟩
  obtain ⟨word', rest', same, measured, form', stops'⟩ := finds _ _ _ _ found
  obtain ⟨rfl, rfl⟩ := unique _ _ _ _ _ _ _ form form' stops stops' same
  rw [found, ← measured]

theorem Follows.isLocal (follows : rule.Follows Form fits) : rule.Local := by
  intro previous front back back' length replaced same found short
  obtain ⟨word, rest, divided, rfl, form, stops⟩ := (follows _ _ _ _).mp found
  obtain ⟨more, rfl⟩ : word <+: front :=
    List.prefix_of_prefix_length_le ⟨rest, divided.symm⟩ ⟨back, rfl⟩ short
  rw [List.append_assoc] at divided
  obtain rfl := List.append_cancel_left divided
  refine (follows _ _ _ _).mpr ⟨word, more ++ back', List.append_assoc .., rfl, form, ?_⟩
  intro character first
  apply stops character
  rwa [List.head?_append, same, ← List.head?_append]

/-- A match, taken apart. -/
theorem Follows.form (follows : rule.Follows Form fits)
    (found : rule.find previous text = some (length, replaced)) :
    Form previous (text.take length) replaced ∧ Stops fits (text.drop length) := by
  obtain ⟨word, rest, rfl, rfl, form, stops⟩ := (follows _ _ _ _).mp found
  rw [List.take_left, List.drop_left]
  exact ⟨form, stops⟩

/-- A form that does not look at the character before it. -/
theorem Follows.find_eq (follows : rule.Follows Form fits)
    (free : ∀ previous previous' word replaced, Form previous word replaced →
      Form previous' word replaced) (previous previous' : Option Char) (text : List Char) :
    rule.find previous text = rule.find previous' text := by
  ext ⟨length, replaced⟩
  simp only [follows previous, follows previous']
  constructor
  · rintro ⟨word, rest, same, measured, form, stops⟩
    exact ⟨word, rest, same, measured, free _ _ _ _ form, stops⟩
  · rintro ⟨word, rest, same, measured, form, stops⟩
    exact ⟨word, rest, same, measured, free _ _ _ _ form, stops⟩

theorem Follows.find (follows : rule.Follows Form fits) {rest : List Char}
    (form : Form previous word replaced) (stops : Stops fits rest) :
    rule.find previous (word ++ rest) = some (word.length, replaced) :=
  (follows _ _ _ _).mpr ⟨word, rest, rfl, rfl, form, stops⟩

end

end Rule

/-- A run of characters that fit is told from what follows by the first that does not. -/
theorem append_unique {fits : Char → Bool} {left right left' right' : List Char}
    (same : left ++ right = left' ++ right') (all : ∀ character ∈ left, fits character = true)
    (all' : ∀ character ∈ left', fits character = true) (stops : Stops fits right)
    (stops' : Stops fits right') : left = left' ∧ right = right' := by
  have run : ∀ left right : List Char, (∀ character ∈ left, fits character = true) →
      Stops fits right → (left ++ right).takeWhile fits = left := by
    intro left right all stops
    rw [List.takeWhile_append_of_pos all]
    cases right with
    | nil => simp
    | cons character right =>
      rw [List.takeWhile_cons_of_neg (by simp [stops character rfl]), List.append_nil]
  have equal : left = left' := by
    rw [← run left right all stops, same, run left' right' all' stops']
  subst equal
  exact ⟨rfl, List.append_cancel_left same⟩

end TextReplacement
