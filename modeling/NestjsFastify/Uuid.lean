import Mathlib.Data.Char
import Mathlib.Data.List.Lex

/-! # UUIDs of version 7 in lower case

Their order as texts is the order of the numbers of 128 bits that they stand for.
-/
namespace Uuid

def isLowerHex (character : Char) : Bool :=
  character.isDigit || ('a' ≤ character && character ≤ 'f')

/-- What each character of a UUID has to be: five groups, with the version and the variant. -/
def shape : List (Char → Bool) :=
  List.replicate 8 isLowerHex ++ (· == '-') :: (List.replicate 4 isLowerHex ++ (· == '-') ::
    (· == '7') :: (List.replicate 3 isLowerHex ++ (· == '-') ::
      (fun character => ['8', '9', 'a', 'b'].contains character) ::
        (List.replicate 3 isLowerHex ++ (· == '-') :: List.replicate 12 isLowerHex)))

def fits : List (Char → Bool) → List Char → Bool
  | [], [] => true
  | allowed :: shape, character :: text => allowed character && fits shape text
  | _, _ => false

def isUuid7 (text : List Char) : Bool := fits shape text

/-- The value of a hexadecimal digit, in either case. -/
def hexValue (character : Char) : Nat :=
  if character.isDigit then character.toNat - 48
  else if character.isLower then character.toNat - 87 else character.toNat - 55

def numberFrom (number : Nat) : List Char → Nat
  | [] => number
  | character :: text =>
      if character = '-' then numberFrom number text
      else numberFrom (16 * number + hexValue character) text

/-- The number that a UUID is stored as; the hyphens are left out. -/
def toNumber (text : List Char) : Nat := numberFrom 0 text

/-- A place is a hyphen, or it is a digit. -/
def Uniform (allowed : Char → Bool) : Prop :=
  (∀ character, allowed character = true → character = '-') ∨
    ∀ character, allowed character = true → isLowerHex character = true

theorem uniform_shape : ∀ allowed ∈ shape, Uniform allowed := by
  have hyphen : Uniform (· == '-') := .inl fun _ same => eq_of_beq same
  have digit : Uniform isLowerHex := .inr fun _ own => own
  have seven : Uniform (· == '7') := .inr fun character same => by rw [eq_of_beq same]; rfl
  have variant : Uniform fun character => ['8', '9', 'a', 'b'].contains character :=
    .inr fun character member => by
      have all : ['8', '9', 'a', 'b'].all isLowerHex = true := by decide
      exact List.all_eq_true.mp all character (List.contains_iff_mem.mp member)
  intro allowed member
  simp only [shape, List.mem_append, List.mem_cons, List.mem_replicate] at member
  rcases member with ⟨-, rfl⟩ | rfl | ⟨-, rfl⟩ | rfl | rfl | ⟨-, rfl⟩ | rfl | rfl | ⟨-, rfl⟩ | rfl |
    ⟨-, rfl⟩
  all_goals assumption

/-- A digit is one of two ranges of characters. -/
private theorem hexValue_cases {character : Char} (hex : isLowerHex character = true) :
    (48 ≤ character.toNat ∧ character.toNat ≤ 57 ∧ hexValue character = character.toNat - 48) ∨
      (97 ≤ character.toNat ∧ character.toNat ≤ 102 ∧
        hexValue character = character.toNat - 87) := by
  by_cases digit : character.isDigit = true
  · have range := Bool.and_eq_true_iff.mp digit
    exact .inl ⟨of_decide_eq_true range.1, of_decide_eq_true range.2, if_pos digit⟩
  · have letter := (Bool.or_eq_true_iff.mp hex).resolve_left digit
    have range := Bool.and_eq_true_iff.mp letter
    have low : 97 ≤ character.toNat := of_decide_eq_true range.1
    have high : character.toNat ≤ 102 := of_decide_eq_true range.2
    have below : character.toNat ≤ 122 := by omega
    have lower : character.isLower = true :=
      Bool.and_eq_true_iff.mpr ⟨decide_eq_true low, decide_eq_true below⟩
    exact .inr ⟨low, high, by rw [hexValue, if_neg digit, if_pos lower]⟩

private theorem lt_iff_toNat_lt {first second : Char} :
    first < second ↔ first.toNat < second.toNat := Iff.rfl

theorem hexValue_lt_iff {first second : Char} (firstHex : isLowerHex first = true)
    (secondHex : isLowerHex second = true) : hexValue first < hexValue second ↔ first < second := by
  rw [lt_iff_toNat_lt]
  rcases hexValue_cases firstHex with one | one <;> rcases hexValue_cases secondHex with two | two <;>
    omega

theorem hexValue_lt {character : Char} (hex : isLowerHex character = true) :
    hexValue character < 16 ∧ character ≠ '-' := by
  refine ⟨by rcases hexValue_cases hex with own | own <;> omega, ?_⟩
  rintro rfl
  exact absurd hex (by decide)

/-- Numbers with the same places are ordered by the first place at which they differ. -/
theorem numberFrom_lt_iff {shape : List (Char → Bool)} {first second : List Char}
    (uniform : ∀ allowed ∈ shape, Uniform allowed) (firstFits : fits shape first = true)
    (secondFits : fits shape second = true) (low high : Nat) :
    numberFrom low first < numberFrom high second ↔ low < high ∨ low = high ∧ first < second := by
  induction shape generalizing first second low high with
  | nil =>
    cases first <;> cases second <;> simp_all [fits, numberFrom]
  | cons allowed shape ih =>
    obtain ⟨here, others⟩ := List.forall_mem_cons.mp uniform
    cases first with
    | nil => simp [fits] at firstFits
    | cons one first =>
      cases second with
      | nil => simp [fits] at secondFits
      | cons two second =>
        obtain ⟨oneOwn, firstRest⟩ := Bool.and_eq_true_iff.mp firstFits
        obtain ⟨twoOwn, secondRest⟩ := Bool.and_eq_true_iff.mp secondFits
        rw [List.cons_lt_cons_iff]
        rcases here with hyphen | hex
        · obtain rfl := hyphen one oneOwn
          obtain rfl := hyphen two twoOwn
          have same : ¬ '-' < '-' := by decide
          simp only [numberFrom, if_pos, ih others firstRest secondRest, same, false_or, true_and]
        · obtain ⟨oneLt, oneNot⟩ := hexValue_lt (hex one oneOwn)
          obtain ⟨twoLt, twoNot⟩ := hexValue_lt (hex two twoOwn)
          have less := hexValue_lt_iff (hex one oneOwn) (hex two twoOwn)
          have more := hexValue_lt_iff (hex two twoOwn) (hex one oneOwn)
          have equal : one = two ↔ ¬ one < two ∧ ¬ two < one := by
            rw [lt_iff_toNat_lt, lt_iff_toNat_lt, ← Char.toNat_inj]
            omega
          simp only [numberFrom, if_neg oneNot, if_neg twoNot, ih others firstRest secondRest,
            equal, ← less, ← more]
          by_cases rest : first < second
          · simp only [rest, and_true]
            omega
          · simp only [rest, and_false, or_false]
            omega

theorem toNumber_lt_iff {first second : List Char} (firstValid : isUuid7 first = true)
    (secondValid : isUuid7 second = true) : toNumber first < toNumber second ↔ first < second := by
  rw [toNumber, toNumber, numberFrom_lt_iff uniform_shape firstValid secondValid]
  simp

theorem toNumber_inj {first second : List Char} (firstValid : isUuid7 first = true)
    (secondValid : isUuid7 second = true) : toNumber first = toNumber second ↔ first = second := by
  have less := toNumber_lt_iff firstValid secondValid
  have more := toNumber_lt_iff secondValid firstValid
  constructor
  · intro same
    rcases lt_trichotomy first second with before | equal | after
    · exact absurd (less.mpr before) (by omega)
    · exact equal
    · exact absurd (more.mpr after) (by omega)
  · rintro rfl
    rfl

/-- The characters of a UUID. -/
theorem of_mem_fits {shape : List (Char → Bool)} {text : List Char}
    (uniform : ∀ allowed ∈ shape, Uniform allowed) (valid : fits shape text = true) :
    ∀ character ∈ text, character = '-' ∨ isLowerHex character = true := by
  induction shape generalizing text with
  | nil => cases text <;> simp_all [fits]
  | cons allowed shape ih =>
    obtain ⟨here, others⟩ := List.forall_mem_cons.mp uniform
    cases text with
    | nil => simp
    | cons first text =>
      obtain ⟨own, rest⟩ := Bool.and_eq_true_iff.mp valid
      exact List.forall_mem_cons.mpr ⟨here.imp (· first own) (· first own), ih others rest⟩

theorem toNat_lt_of_mem {text : List Char} (valid : isUuid7 text = true) :
    ∀ character ∈ text, character.toNat < 0x80 := by
  intro character member
  rcases of_mem_fits uniform_shape valid character member with rfl | hex
  · decide
  · rcases hexValue_cases hex with own | own <;> omega

end Uuid
