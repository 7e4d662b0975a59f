import Mathlib.Data.List.Basic
import Mathlib.Tactic.IntervalCases

/-! # Quoted script text

Script text is a sequence of UTF-16 code units.  JSON quotes it with escapes for the quote, the
backslash, control characters and surrogates that are not part of a pair, and it can be read back.
-/
namespace QuotedText

/-- Text in UTF-16 code units. -/
abbrev Text := List Nat

/-- The code units of an ASCII text. -/
def ascii (text : String) : Text := text.toList.map Char.toNat

def isHigh (unit : Nat) : Bool := 0xD800 ≤ unit && unit ≤ 0xDBFF

def isLow (unit : Nat) : Bool := 0xDC00 ≤ unit && unit ≤ 0xDFFF

/-- Every surrogate is part of a pair, so that the text has an encoding in UTF-8. -/
def wellFormed : Text → Bool
  | [] => true
  | [unit] => !isHigh unit && !isLow unit
  | unit :: next :: rest =>
      if isHigh unit then isLow next && wellFormed rest
      else !isLow unit && wellFormed (next :: rest)

/-! ## Quoting -/

def hexDigit (value : Nat) : Nat := if value < 10 then 48 + value else 87 + value

def hexValue (unit : Nat) : Nat := if unit < 58 then unit - 48 else unit - 87

/-- The letter of an escape of two characters. -/
def shortEscape : Nat → Option Nat
  | 8 => some 98
  | 9 => some 116
  | 10 => some 110
  | 12 => some 102
  | 13 => some 114
  | 34 => some 34
  | 92 => some 92
  | _ => none

def unescape : Nat → Nat
  | 98 => 8
  | 116 => 9
  | 110 => 10
  | 102 => 12
  | 114 => 13
  | letter => letter

def unicodeEscape (unit : Nat) : Text :=
  [92, 117, hexDigit (unit / 4096), hexDigit (unit / 256 % 16), hexDigit (unit / 16 % 16),
    hexDigit (unit % 16)]

/-- A code unit that is not part of a pair. -/
def escapeUnit (unit : Nat) : Text :=
  match shortEscape unit with
  | some letter => [92, letter]
  | none => if unit < 32 ∨ isHigh unit ∨ isLow unit then unicodeEscape unit else [unit]

/-- `QuoteJSONString`, behind the first quote and with the last one. -/
def quoteRest : Text → Text
  | [] => [34]
  | [unit] => escapeUnit unit ++ [34]
  | unit :: next :: rest =>
      if isHigh unit ∧ isLow next then unit :: next :: quoteRest rest
      else escapeUnit unit ++ quoteRest (next :: rest)

def quote (text : Text) : Text := 34 :: quoteRest text

/-! ## Reading -/

/-- The text has one more code unit in front. -/
def push (unit : Nat) (read : Option (Text × Text)) : Option (Text × Text) :=
  read.map fun (text, rest) => (unit :: text, rest)

/-- Read a quoted text behind its first quote; what follows its last one is left. -/
def readQuoted : Text → Option (Text × Text)
  | [] => none
  | 34 :: rest => some ([], rest)
  | 92 :: 117 :: first :: second :: third :: fourth :: rest =>
      push (4096 * hexValue first + 256 * hexValue second + 16 * hexValue third + hexValue fourth)
        (readQuoted rest)
  | 92 :: letter :: rest => push (unescape letter) (readQuoted rest)
  | unit :: rest => push unit (readQuoted rest)

section
variable {unit : Nat} {text other rest : Text}

theorem hexValue_hexDigit {value : Nat} (digit : value < 16) :
    hexValue (hexDigit value) = value := by
  interval_cases value <;> rfl

/-- A code unit that stands for itself. -/
theorem readQuoted_plain (quote : unit ≠ 34) (escape : unit ≠ 92) (rest : Text) :
    readQuoted (unit :: rest) = push unit (readQuoted rest) := by
  rw [readQuoted.eq_5] <;> simp_all

theorem readQuoted_unicodeEscape (small : unit < 65536) (rest : Text) :
    readQuoted (unicodeEscape unit ++ rest) = push unit (readQuoted rest) := by
  have value : 4096 * hexValue (hexDigit (unit / 4096)) +
      256 * hexValue (hexDigit (unit / 256 % 16)) + 16 * hexValue (hexDigit (unit / 16 % 16)) +
        hexValue (hexDigit (unit % 16)) = unit := by
    rw [hexValue_hexDigit (by omega), hexValue_hexDigit (by omega), hexValue_hexDigit (by omega),
      hexValue_hexDigit (by omega)]
    omega
  simp only [unicodeEscape, List.cons_append, List.nil_append, readQuoted, value]

theorem readQuoted_escapeUnit (unit : Nat) (rest : Text) :
    readQuoted (escapeUnit unit ++ rest) = push unit (readQuoted rest) := by
  unfold escapeUnit
  split
  · rename_i letter short
    unfold shortEscape at short
    split at short
    case h_8 => cases short
    all_goals
      obtain rfl := Option.some.inj short
      rfl
  · rename_i plain
    split_ifs with escaped
    · refine readQuoted_unicodeEscape ?_ rest
      simp only [isHigh, isLow, Bool.and_eq_true, decide_eq_true_eq] at escaped
      omega
    · refine readQuoted_plain ?_ ?_ rest <;> rintro rfl <;> simp [shortEscape] at plain

/-- Reading gives back what was quoted. -/
theorem readQuoted_quoteRest (text rest : Text) :
    readQuoted (quoteRest text ++ rest) = some (text, rest) := by
  fun_induction quoteRest text with
  | case1 => rfl
  | case2 unit =>
    rw [List.append_assoc, readQuoted_escapeUnit]
    rfl
  | case3 unit next text paired ih =>
    have plain (surrogate : Nat) (either : isHigh surrogate = true ∨ isLow surrogate = true) :
        surrogate ≠ 34 ∧ surrogate ≠ 92 := by
      simp only [isHigh, isLow, Bool.and_eq_true, decide_eq_true_eq] at either
      omega
    obtain ⟨one, two⟩ := plain unit (.inl paired.1)
    obtain ⟨three, four⟩ := plain next (.inr paired.2)
    rw [List.cons_append, readQuoted_plain one two, List.cons_append, readQuoted_plain three four,
      ih]
    rfl
  | case4 unit next text _ ih =>
    rw [List.append_assoc, readQuoted_escapeUnit, ih]
    rfl

/-- Different texts differ when they are quoted, whatever follows them. -/
theorem quote_append_inj {tail otherTail : Text}
    (same : quote text ++ tail = quote other ++ otherTail) : text = other ∧ tail = otherTail := by
  have read : readQuoted (quoteRest text ++ tail) = readQuoted (quoteRest other ++ otherTail) :=
    congrArg readQuoted (List.cons.inj same).2
  rw [readQuoted_quoteRest, readQuoted_quoteRest] at read
  exact Prod.mk.inj (Option.some.inj read)

/-! ## Well-formed texts -/

theorem wellFormed_cons {tail : Text} (high : isHigh unit = false) (low : isLow unit = false)
    (rest : wellFormed tail = true) : wellFormed (unit :: tail) = true := by
  cases tail <;> simp_all [wellFormed]

theorem wellFormed_append (first : wellFormed text = true) (second : wellFormed other = true) :
    wellFormed (text ++ other) = true := by
  fun_induction wellFormed text with
  | case1 => exact second
  | case2 unit =>
    simp only [Bool.and_eq_true, Bool.not_eq_true'] at first
    exact wellFormed_cons first.1 first.2 second
  | case3 unit next rest high ih =>
    rw [Bool.and_eq_true] at first
    simp [wellFormed, high, first.1, ih first.2]
  | case4 unit next rest high ih =>
    simp only [Bool.and_eq_true, Bool.not_eq_true'] at first
    exact wellFormed_cons (Bool.not_eq_true _ ▸ high) first.1 (ih first.2)

/-- A text without surrogates. -/
theorem wellFormed_of_plain (plain : ∀ unit ∈ text, isHigh unit = false ∧ isLow unit = false) :
    wellFormed text = true := by
  induction text with
  | nil => rfl
  | cons unit text ih =>
    obtain ⟨⟨high, low⟩, plain⟩ := List.forall_mem_cons.mp plain
    exact wellFormed_cons high low (ih plain)

theorem plain_of_lt (small : unit < 256) : isHigh unit = false ∧ isLow unit = false := by
  simp only [isHigh, isLow, Bool.and_eq_false_iff, decide_eq_false_iff_not]
  omega

theorem hexDigit_lt (value : Nat) (digit : value < 16) : hexDigit value < 256 := by
  unfold hexDigit
  split_ifs <;> omega

theorem wellFormed_escapeUnit (unit : Nat) : wellFormed (escapeUnit unit) = true := by
  unfold escapeUnit
  split
  · rename_i letter short
    unfold shortEscape at short
    split at short
    case h_8 => cases short
    all_goals
      obtain rfl := Option.some.inj short
      rfl
  · split_ifs with escaped
    · have small : unit < 65536 := by
        simp only [isHigh, isLow, Bool.and_eq_true, decide_eq_true_eq] at escaped
        omega
      refine wellFormed_of_plain fun digit member => plain_of_lt ?_
      simp only [unicodeEscape, List.mem_cons, List.not_mem_nil, or_false] at member
      rcases member with rfl | rfl | rfl | rfl | rfl | rfl
      · decide
      · decide
      · exact hexDigit_lt _ (by omega)
      · exact hexDigit_lt _ (by omega)
      · exact hexDigit_lt _ (by omega)
      · exact hexDigit_lt _ (by omega)
    · simp only [not_or, Bool.not_eq_true] at escaped
      exact wellFormed_cons escaped.2.1 escaped.2.2 rfl

theorem wellFormed_quoteRest (text : Text) : wellFormed (quoteRest text) = true := by
  fun_induction quoteRest text with
  | case1 => rfl
  | case2 unit => exact wellFormed_append (wellFormed_escapeUnit unit) rfl
  | case3 unit next rest paired ih => simp [wellFormed, paired.1, paired.2, ih]
  | case4 unit next rest _ ih => exact wellFormed_append (wellFormed_escapeUnit unit) ih

/-- A quoted text is well formed, whatever the text is. -/
theorem wellFormed_quote (text : Text) : wellFormed (quote text) = true :=
  wellFormed_cons rfl rfl (wellFormed_quoteRest text)

/-! ## Control characters -/

theorem le_escapeUnit (unit : Nat) : ∀ written ∈ escapeUnit unit, 32 ≤ written := by
  have digit (value : Nat) : 32 ≤ hexDigit value := by
    unfold hexDigit
    split_ifs <;> omega
  unfold escapeUnit
  split
  · rename_i letter short
    unfold shortEscape at short
    split at short
    case h_8 => cases short
    all_goals
      obtain rfl := Option.some.inj short
      decide
  · split_ifs with escaped
    · simp [unicodeEscape, digit]
    · rw [not_or, not_lt] at escaped
      simpa using escaped.1

theorem le_quoteRest (text : Text) : ∀ unit ∈ quoteRest text, 32 ≤ unit := by
  fun_induction quoteRest text with
  | case1 => simp
  | case2 unit => exact List.forall_mem_append.mpr ⟨le_escapeUnit unit, by simp⟩
  | case3 unit next rest paired ih =>
    have surrogates := paired
    simp only [isHigh, isLow, Bool.and_eq_true, decide_eq_true_eq] at surrogates
    exact List.forall_mem_cons.mpr ⟨by omega, List.forall_mem_cons.mpr ⟨by omega, ih⟩⟩
  | case4 unit next rest _ ih => exact List.forall_mem_append.mpr ⟨le_escapeUnit unit, ih⟩

/-- A quoted text has no control characters. -/
theorem le_quote (text : Text) : ∀ unit ∈ quote text, 32 ≤ unit :=
  List.forall_mem_cons.mpr ⟨by decide, le_quoteRest text⟩

end

end QuotedText
