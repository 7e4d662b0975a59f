import Mathlib.Algebra.GroupWithZero.Nat
import Mathlib.Data.List.DropRight
import Mathlib.Data.List.Infix

/-! # Text functions of the script language

Texts are lists of characters.  Trimming takes nothing from a word that neither begins nor ends
with a blank.
-/
namespace ScriptText

/-- The white space and line terminators that `trim` takes away. -/
def isBlank (character : Char) : Bool :=
  let code := character.toNat
  (0x09 ≤ code && code ≤ 0x0D) || code = 0x20 || code = 0xA0 || code = 0x1680 ||
    (0x2000 ≤ code && code ≤ 0x200A) || code = 0x2028 || code = 0x2029 || code = 0x202F ||
    code = 0x205F || code = 0x3000 || code = 0xFEFF

/-- `text.trim()` -/
def trim (text : List Char) : List Char := (text.dropWhile isBlank).rdropWhile isBlank

/-- The UTF-16 code units of a character. -/
def unitsOf (character : Char) : Nat := if character.toNat ≤ 0xFFFF then 1 else 2

/-- `text.length`, in UTF-16 code units -/
def codeUnits (text : List Char) : Nat := (text.map unitsOf).sum

/-- `text.slice(0, length)`, in UTF-16 code units.  Half a character at its end is stored as the
replacement character. -/
def sliceUnits : List Char → Nat → List Char
  | [], _ => []
  | character :: rest, length =>
      if unitsOf character ≤ length then character :: sliceUnits rest (length - unitsOf character)
      else if length = 0 then []
      else ['\uFFFD']

/-- `text.includes(word)` -/
def includes (text word : List Char) : Bool := decide (word <:+: text)

/-- `text.endsWith(word)` -/
def endsWith (text word : List Char) : Bool := decide (word <:+ text)

@[simp] theorem includes_iff {text word : List Char} :
    includes text word = true ↔ word <:+: text := decide_eq_true_iff

@[simp] theorem endsWith_iff {text word : List Char} :
    endsWith text word = true ↔ word <:+ text := decide_eq_true_iff

/-- A text without blanks stays as it is. -/
theorem trim_eq_self {text : List Char} (plain : ∀ character ∈ text, isBlank character = false) :
    trim text = text := by
  have front : text.dropWhile isBlank = text := by
    cases text with
    | nil => rfl
    | cons first rest => exact List.dropWhile_cons_of_neg (by simp [plain first List.mem_cons_self])
  rw [trim, front, List.rdropWhile_eq_self_iff]
  intro nonempty
  simp [plain _ (List.getLast_mem nonempty)]

/-- The word is not empty, and its first and its last character stay when `drops` are dropped. -/
structure Solid (drops : Char → Bool) (word : List Char) : Prop where
  nonempty : word ≠ []
  first : drops (word.head nonempty) = false
  last : drops (word.getLast nonempty) = false

variable {drops : Char → Bool} {word text : List Char}

theorem Solid.reverse (solid : Solid drops word) : Solid drops word.reverse where
  nonempty := by simpa using solid.nonempty
  first := by simpa using solid.last
  last := by simpa using solid.first

private theorem dropWhile_solid (solid : Solid drops word) (before after : List Char) :
    ∃ kept, (before ++ word ++ after).dropWhile drops = kept ++ word ++ after := by
  have stays : (word ++ after).dropWhile drops = word ++ after := by
    obtain ⟨first, others, rfl⟩ := List.exists_cons_of_ne_nil solid.nonempty
    have kept : drops first = false := solid.first
    simp [kept]
  rw [List.append_assoc, List.dropWhile_append]
  split
  · exact ⟨[], by rw [stays, List.nil_append]⟩
  · exact ⟨_, (List.append_assoc _ _ _).symm⟩

theorem infix_dropWhile (solid : Solid drops word) (occurs : word <:+: text) :
    word <:+: text.dropWhile drops := by
  obtain ⟨before, after, rfl⟩ := occurs
  obtain ⟨kept, same⟩ := dropWhile_solid solid before after
  exact ⟨kept, after, same.symm⟩

theorem suffix_dropWhile (solid : Solid drops word) (ends : word <:+ text) :
    word <:+ text.dropWhile drops := by
  obtain ⟨before, rfl⟩ := ends
  obtain ⟨kept, same⟩ := dropWhile_solid solid before []
  exact ⟨kept, by simpa using same.symm⟩

theorem infix_rdropWhile (solid : Solid drops word) (occurs : word <:+: text) :
    word <:+: text.rdropWhile drops := by
  rw [List.rdropWhile, ← List.reverse_infix, List.reverse_reverse]
  exact infix_dropWhile solid.reverse (List.reverse_infix.mpr occurs)

/-- Nothing is dropped behind the word. -/
theorem rdropWhile_of_suffix (solid : Solid drops word) (ends : word <:+ text) :
    text.rdropWhile drops = text := by
  refine List.rdropWhile_eq_self_iff.mpr fun nonempty => ?_
  obtain ⟨before, rfl⟩ := ends
  rw [List.getLast_append_of_ne_nil _ solid.nonempty, solid.last]
  exact Bool.false_ne_true

theorem infix_trim_iff (solid : Solid isBlank word) : word <:+: trim text ↔ word <:+: text := by
  constructor
  · intro occurs
    exact (occurs.trans (List.rdropWhile_prefix _ _).isInfix).trans
      (List.dropWhile_suffix _).isInfix
  · exact fun occurs => infix_rdropWhile solid (infix_dropWhile solid occurs)

theorem suffix_trim (solid : Solid isBlank word) (ends : word <:+ text) : word <:+ trim text := by
  have kept := suffix_dropWhile solid ends
  rwa [trim, rdropWhile_of_suffix solid kept]

/-- What trimming leaves has no blank at its ends. -/
theorem solid_trim (some : trim text ≠ []) : Solid isBlank (trim text) where
  nonempty := some
  first := by
    obtain ⟨rest, same⟩ : trim text <+: text.dropWhile isBlank := List.rdropWhile_prefix _ _
    have kept : text.dropWhile isBlank ≠ [] := by
      intro empty
      rw [empty] at same
      exact some (List.append_eq_nil_iff.mp same).1
    have first : (text.dropWhile isBlank).head kept = (trim text).head some := by
      simp only [← same, List.head_append_of_ne_nil some]
    rw [← first]
    exact List.head_dropWhile_not isBlank kept
  last := (Bool.not_eq_true _).mp
    (List.rdropWhile_last_not isBlank (text.dropWhile isBlank) some)

/-- Trimming yields the word exactly from the texts in which blanks surround it. -/
theorem trim_eq_iff (solid : Solid isBlank word) : trim text = word ↔
    ∃ before after, text = before ++ word ++ after ∧ ∀ character ∈ before ++ after,
      isBlank character = true := by
  constructor
  · rintro rfl
    refine ⟨text.takeWhile isBlank, (text.dropWhile isBlank).rtakeWhile isBlank, ?_, ?_⟩
    · rw [trim, List.append_assoc, List.rdropWhile_append_rtakeWhile,
        List.takeWhile_append_dropWhile]
    · intro character member
      rcases List.mem_append.mp member with front | back
      · exact List.mem_takeWhile_imp front
      · exact List.mem_rtakeWhile_imp back
  · rintro ⟨before, after, rfl, blank⟩
    have front : ∀ character ∈ before, isBlank character = true :=
      fun character member => blank character (List.mem_append_left _ member)
    have back : ∀ character ∈ after.reverse, isBlank character = true :=
      fun character member => blank character
        (List.mem_append_right _ (List.mem_reverse.mp member))
    have starts : (word ++ after).dropWhile isBlank = word ++ after := by
      obtain ⟨first, others, rfl⟩ := List.exists_cons_of_ne_nil solid.nonempty
      have kept : isBlank first = false := solid.first
      simp [kept]
    have ends : word.rdropWhile isBlank = word :=
      rdropWhile_of_suffix solid List.suffix_rfl
    rw [trim, List.append_assoc, List.dropWhile_append_of_pos front, starts, List.rdropWhile,
      List.reverse_append, List.dropWhile_append_of_pos back]
    exact ends

/-- A separator that is kept separates what is kept. -/
theorem splitOn_filter {separator : Char} {keeps : Char → Bool} (kept : keeps separator = true) :
    (text.filter keeps).splitOn separator = (text.splitOn separator).map (List.filter keeps) := by
  have consHead : ∀ (character : Char) (pieces : List (List Char)),
      (pieces.modifyHead (character :: ·)).map (List.filter keeps) =
        if keeps character then (pieces.map (List.filter keeps)).modifyHead (character :: ·)
        else pieces.map (List.filter keeps) := by
    intro character pieces
    cases pieces <;> by_cases keep : keeps character = true <;> simp [keep]
  induction text with
  | nil => rfl
  | cons character text ih =>
    rw [List.splitOn_cons_eq_if_modifyHead]
    by_cases same : character = separator
    · subst same
      rw [List.filter_cons_of_pos kept, List.splitOn_cons_eq_if_modifyHead, if_pos (beq_self_eq_true _),
        if_pos (beq_self_eq_true _), ih]
      rfl
    · have other : ¬ (character == separator) = true := by simpa using same
      rw [if_neg other, consHead]
      by_cases keep : keeps character = true
      · rw [List.filter_cons_of_pos keep, List.splitOn_cons_eq_if_modifyHead, if_neg other, if_pos keep,
          ih]
      · rw [List.filter_cons_of_neg keep, if_neg keep, ih]

/-- The separator is in no piece. -/
theorem not_mem_of_mem_splitOn {separator : Char} {text piece : List Char}
    (member : piece ∈ text.splitOn separator) : separator ∉ piece := by
  induction text generalizing piece with
  | nil =>
    rw [List.mem_singleton.mp member]
    exact List.not_mem_nil
  | cons character text ih =>
    rw [List.splitOn_cons_eq_if_modifyHead] at member
    by_cases same : (character == separator) = true
    · rw [if_pos same] at member
      rcases List.mem_cons.mp member with rfl | later
      · exact List.not_mem_nil
      · exact ih later
    · rw [if_neg same] at member
      cases pieces : text.splitOn separator with
      | nil =>
        rw [pieces] at member
        cases member
      | cons first others =>
        rw [pieces] at member ih
        rcases List.mem_cons.mp member with rfl | later
        · rw [List.mem_cons, not_or]
          exact ⟨fun own => same (beq_iff_eq.mpr own.symm), ih List.mem_cons_self⟩
        · exact ih (List.mem_cons_of_mem _ later)

/-- What is in a piece is in the text. -/
theorem mem_of_mem_splitOn {separator character : Char} {text piece : List Char}
    (member : piece ∈ text.splitOn separator) (inside : character ∈ piece) : character ∈ text := by
  induction text generalizing piece with
  | nil =>
    rw [List.mem_singleton.mp member] at inside
    exact inside
  | cons first text ih =>
    rw [List.splitOn_cons_eq_if_modifyHead] at member
    by_cases same : (first == separator) = true
    · rw [if_pos same] at member
      rcases List.mem_cons.mp member with rfl | later
      · cases inside
      · exact List.mem_cons_of_mem _ (ih later inside)
    · rw [if_neg same] at member
      cases pieces : text.splitOn separator with
      | nil =>
        rw [pieces] at member
        cases member
      | cons head others =>
        rw [pieces] at member ih
        rcases List.mem_cons.mp member with rfl | later
        · rcases List.mem_cons.mp inside with rfl | rest
          · exact List.mem_cons_self
          · exact List.mem_cons_of_mem _ (ih List.mem_cons_self rest)
        · exact List.mem_cons_of_mem _ (ih (List.mem_cons_of_mem _ later) inside)

/-! ## Joining -/

/-- `parts.join(mark)` -/
def join (mark : Char) (parts : List (List Char)) : List Char := [mark].intercalate parts

theorem join_cons (mark : Char) (part next : List Char) (parts : List (List Char)) :
    join mark (part :: next :: parts) = part ++ mark :: join mark (next :: parts) := by
  simp [join, List.intercalate]

theorem join_append (mark : Char) {parts others : List (List Char)} (some : parts ≠ [])
    (someOthers : others ≠ []) :
    join mark (parts ++ others) = join mark parts ++ mark :: join mark others := by
  obtain ⟨other, rest, rfl⟩ := List.exists_cons_of_ne_nil someOthers
  induction parts with
  | nil => exact absurd rfl some
  | cons part parts ih =>
    cases parts with
    | nil => simp [join, List.intercalate]
    | cons next parts =>
      rw [List.cons_append, List.cons_append, join_cons, join_cons, ← List.cons_append,
        ih (by simp), List.append_assoc, List.cons_append]

theorem count_join (mark : Char) {parts : List (List Char)} (some : parts ≠ []) :
    (join mark parts).count mark + 1 = parts.length + (parts.map (List.count mark)).sum := by
  induction parts with
  | nil => exact absurd rfl some
  | cons part parts ih =>
    cases parts with
    | nil => simp [join, Nat.add_comm]
    | cons next parts =>
      have rest := ih (by simp)
      rw [join_cons, List.count_append, List.count_cons_self, List.length_cons, List.map_cons,
        List.sum_cons]
      omega

/-- What is in the text is a mark or in a part. -/
theorem mem_join {mark character : Char} {parts : List (List Char)}
    (member : character ∈ join mark parts) :
    character = mark ∨ ∃ part ∈ parts, character ∈ part := by
  induction parts with
  | nil => cases member
  | cons part parts ih =>
    cases parts with
    | nil => exact .inr ⟨part, by simp, by simpa [join] using member⟩
    | cons next parts =>
      rw [join_cons, List.mem_append, List.mem_cons] at member
      rcases member with own | rfl | rest
      · exact .inr ⟨part, by simp, own⟩
      · exact .inl rfl
      · obtain same | ⟨other, listed, own⟩ := ih rest
        · exact .inl same
        · exact .inr ⟨other, List.mem_cons_of_mem part listed, own⟩

/-- Parts without the mark are told from their text among all parts that are not fewer. -/
theorem join_inj {mark : Char} {parts others : List (List Char)} (some : parts ≠ [])
    (own : ∀ part ∈ parts, mark ∉ part) (enough : parts.length ≤ others.length)
    (same : join mark parts = join mark others) : parts = others := by
  have plain (parts : List (List Char)) :
      (parts.map (List.count mark)).sum = 0 ↔ ∀ part ∈ parts, mark ∉ part := by
    simp [List.sum_eq_zero_iff_forall_eq_nat, List.count_eq_zero]
  have someOthers : others ≠ [] := by
    rintro rfl
    exact some (List.length_eq_zero_iff.mp (Nat.le_zero.mp enough))
  have counts := count_join mark some
  have otherCounts := count_join mark someOthers
  rw [← same] at otherCounts
  rw [(plain parts).mpr own] at counts
  have otherPlain := (plain others).mp (by omega)
  rw [← List.splitOn_intercalate mark own some, ← List.splitOn_intercalate mark otherPlain
    someOthers]
  exact congrArg (List.splitOn mark) same

end ScriptText
