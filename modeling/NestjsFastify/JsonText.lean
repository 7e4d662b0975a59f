import NestjsFastify.NumberText
import NestjsFastify.QuotedText

/-! # JSON values as text

JSON text is unambiguous: a value can be told from its text, whatever follows it, and so can every
part of it.
-/
namespace JsonText
open NumberText (Decimal isNumberChar)
open QuotedText (Text ascii quote quote_append_inj wellFormed wellFormed_append wellFormed_cons
  wellFormed_of_plain plain_of_lt wellFormed_quote le_quote)

/-- A value, with the members of its objects in their order. -/
inductive Value (Number : Type) where
  | null
  | bool (value : Bool)
  | number (value : Number)
  | string (text : Text)
  | array (items : List (Value Number))
  | object (members : List (Text × Value Number))

/-- The induction rule: a property of all items and of all members passes to the value. -/
theorem Value.induct {Number : Type} {motive : Value Number → Prop} (null : motive .null)
    (bool : ∀ value, motive (.bool value)) (number : ∀ value, motive (.number value))
    (string : ∀ text, motive (.string text))
    (array : ∀ items : List (Value Number), (∀ item ∈ items, motive item) → motive (.array items))
    (object : ∀ members : List (Text × Value Number), (∀ member ∈ members, motive member.2) →
      motive (.object members)) (value : Value Number) : motive value :=
  @Value.rec Number motive (fun items => ∀ item ∈ items, motive item)
    (fun members => ∀ member ∈ members, motive member.2) (fun member => motive member.2) null bool
    number string array object (by simp)
    (fun _ _ first rest => List.forall_mem_cons.mpr ⟨first, rest⟩) (by simp)
    (fun _ _ first rest => List.forall_mem_cons.mpr ⟨first, rest⟩) (fun _ _ value => value) value

/-! ## Printing -/

mutual

/-- `JSON.stringify` of a value whose numbers are finite. -/
def print : Value Decimal → Text
  | .null => ascii "null"
  | .bool true => ascii "true"
  | .bool false => ascii "false"
  | .number value => value.text.map Char.toNat
  | .string text => quote text
  | .array [] => ascii "[]"
  | .array (item :: items) => 91 :: (print item ++ printItems items)
  | .object [] => [123, 125]
  | .object ((key, value) :: members) =>
      123 :: (quote key ++ 58 :: (print value ++ printMembers members))

/-- The items behind the first one, with commas, and the bracket. -/
def printItems : List (Value Decimal) → Text
  | [] => [93]
  | item :: items => 44 :: (print item ++ printItems items)

/-- The members behind the first one, with commas, and the brace. -/
def printMembers : List (Text × Value Decimal) → Text
  | [] => [125]
  | (key, value) :: members => 44 :: (quote key ++ 58 :: (print value ++ printMembers members))

end

example : print (.array [.null, .object []]) = ascii "[null,{}]" := by
  simp [print, printItems, ascii]

/-! ## Telling values apart -/

/-- What may follow a value: nothing, a comma or the end of an array or an object. -/
def isEnd (unit : Nat) : Bool := unit = 44 || unit = 93 || unit = 125

def Ends (rest : Text) : Prop := ∀ unit ∈ rest.head?, isEnd unit = true

/-- The kinds of values. -/
def kind : Value Decimal → Nat
  | .null => 0
  | .bool _ => 1
  | .number _ => 2
  | .string _ => 3
  | .array _ => 4
  | .object _ => 5

/-- The kind of the value that begins with a code unit. -/
def opened (unit : Nat) : Nat :=
  if unit = 110 then 0
  else if unit = 116 ∨ unit = 102 then 1
  else if unit = 34 then 3
  else if unit = 91 then 4
  else if unit = 123 then 5
  else 2

theorem toNat_injective : Function.Injective Char.toNat :=
  fun _ _ same => Char.toNat_inj.mp same

/-- The characters of numbers neither open nor end another value. -/
theorem number_unit {character : Char} (plain : isNumberChar character = true) :
    opened character.toNat = 2 ∧ isEnd character.toNat = false ∧ character.toNat < 256 ∧
      32 ≤ character.toNat := by
  simp only [isNumberChar, Bool.or_eq_true, decide_eq_true_eq] at plain
  rcases plain with (((digit | rfl) | rfl) | rfl) | rfl
  · simp only [Char.isDigit, Bool.and_eq_true, decide_eq_true_eq, UInt32.le_iff_toNat_le] at digit
    change 48 ≤ character.toNat ∧ character.toNat ≤ 57 at digit
    simp only [opened, isEnd, Bool.or_eq_false_iff, decide_eq_false_iff_not]
    grind
  all_goals decide

theorem number_units (number : Decimal) :
    ∀ unit ∈ number.text.map Char.toNat, isEnd unit = false ∧ unit < 256 ∧ 32 ≤ unit := by
  intro unit member
  obtain ⟨character, own, rfl⟩ := List.mem_map.mp member
  exact (number_unit (number.text_chars.2 character own)).2

/-- The first code unit of a value tells its kind. -/
theorem print_opens (value : Value Decimal) :
    ∃ first rest, print value = first :: rest ∧ opened first = kind value ∧
      isEnd first = false := by
  match value with
  | .null => exact ⟨_, _, rfl, rfl, rfl⟩
  | .bool true => exact ⟨_, _, rfl, rfl, rfl⟩
  | .bool false => exact ⟨_, _, rfl, rfl, rfl⟩
  | .number value =>
      obtain ⟨⟨first, rest, begins, -⟩, own⟩ := value.text_chars
      have plain := number_unit (own first (begins ▸ List.mem_cons_self))
      exact ⟨first.toNat, rest.map Char.toNat, by rw [print, begins, List.map_cons], plain.1,
        plain.2.1⟩
  | .string text => exact ⟨_, _, rfl, rfl, rfl⟩
  | .array [] => exact ⟨_, _, rfl, rfl, rfl⟩
  | .array (item :: items) => exact ⟨_, _, by rw [print], rfl, rfl⟩
  | .object [] => exact ⟨_, _, by rw [print], rfl, rfl⟩
  | .object ((key, value) :: members) => exact ⟨_, _, by rw [print], rfl, rfl⟩

section
variable {value other : Value Decimal} {rest otherRest : Text}

theorem kind_eq_of_print (same : print value ++ rest = print other ++ otherRest) :
    kind value = kind other := by
  obtain ⟨first, tail, begins, opens, -⟩ := print_opens value
  obtain ⟨second, otherTail, otherBegins, otherOpens, -⟩ := print_opens other
  rw [begins, otherBegins, List.cons_append, List.cons_append] at same
  rw [← opens, ← otherOpens, (List.cons.inj same).1]

/-- The value is told from its text, whatever ends behind it. -/
def Readable (value : Value Decimal) : Prop :=
  ∀ ⦃other rest otherRest⦄, Ends rest → Ends otherRest →
    print value ++ rest = print other ++ otherRest → value = other ∧ rest = otherRest

theorem ends_printItems (items : List (Value Decimal)) (rest : Text) :
    Ends (printItems items ++ rest) := by
  cases items <;> simp [Ends, printItems, isEnd]

theorem ends_printMembers (members : List (Text × Value Decimal)) (rest : Text) :
    Ends (printMembers members ++ rest) := by
  rcases members with _ | ⟨⟨key, value⟩, members⟩ <;> simp [Ends, printMembers, isEnd]

/-- A number ends where its characters end. -/
theorem readable_number (number : Decimal) : Readable (.number number) := by
  intro other rest otherRest ends otherEnds same
  have kinds := kind_eq_of_print same
  cases other <;> cases kinds
  rename_i other
  have taken (number : Decimal) {rest : Text} (ends : Ends rest) :
      (number.text.map Char.toNat ++ rest).takeWhile (fun unit => !isEnd unit) =
        number.text.map Char.toNat :=
    (NumberText.span_mark (fun unit => !isEnd unit)
      (fun unit member => by simp [(number_units number unit member).1]) rest
      (fun unit member => by simp [ends unit member])).1
  rw [print, print] at same
  have texts := congrArg (List.takeWhile fun unit => !isEnd unit) same
  rw [taken number ends, taken other otherEnds] at texts
  obtain rfl := NumberText.text_injective (toNat_injective.list_map texts)
  exact ⟨rfl, List.append_cancel_left same⟩

theorem readable_string (text : Text) : Readable (.string text) := by
  intro other rest otherRest _ _ same
  have kinds := kind_eq_of_print same
  cases other <;> cases kinds
  rw [print, print] at same
  obtain ⟨rfl, rests⟩ := quote_append_inj same
  exact ⟨rfl, rests⟩

theorem printItems_inj {items : List (Value Decimal)} (readable : ∀ item ∈ items, Readable item) :
    ∀ {others : List (Value Decimal)} {rest otherRest : Text},
      printItems items ++ rest = printItems others ++ otherRest →
        items = others ∧ rest = otherRest := by
  induction items with
  | nil =>
    intro others rest otherRest same
    cases others with
    | nil => exact ⟨rfl, List.append_cancel_left same⟩
    | cons other others => simp [printItems] at same
  | cons item items ih =>
    intro others rest otherRest same
    obtain ⟨first, readable⟩ := List.forall_mem_cons.mp readable
    cases others with
    | nil => simp [printItems] at same
    | cons other others =>
      simp only [printItems, List.cons_append, List.append_assoc, List.cons.injEq, true_and] at same
      obtain ⟨rfl, tails⟩ := first (ends_printItems items rest) (ends_printItems _ _) same
      obtain ⟨rfl, rests⟩ := ih readable tails
      exact ⟨rfl, rests⟩

theorem printMembers_inj {members : List (Text × Value Decimal)}
    (readable : ∀ member ∈ members, Readable member.2) :
    ∀ {others : List (Text × Value Decimal)} {rest otherRest : Text},
      printMembers members ++ rest = printMembers others ++ otherRest →
        members = others ∧ rest = otherRest := by
  induction members with
  | nil =>
    intro others rest otherRest same
    rcases others with _ | ⟨⟨other, otherValue⟩, others⟩
    · exact ⟨rfl, List.append_cancel_left same⟩
    · simp [printMembers] at same
  | cons member members ih =>
    obtain ⟨key, value⟩ := member
    intro others rest otherRest same
    obtain ⟨first, readable⟩ := List.forall_mem_cons.mp readable
    rcases others with _ | ⟨⟨other, otherValue⟩, others⟩
    · simp [printMembers] at same
    · simp only [printMembers, List.cons_append, List.append_assoc, List.cons.injEq, true_and]
        at same
      obtain ⟨rfl, values⟩ := quote_append_inj same
      obtain ⟨rfl, tails⟩ := first (ends_printMembers members rest) (ends_printMembers _ _)
        (List.cons.inj values).2
      obtain ⟨rfl, rests⟩ := ih readable tails
      exact ⟨rfl, rests⟩

/-- Behind the opening bracket the items are read as if a comma came first. -/
theorem readable_array {items : List (Value Decimal)} (readable : ∀ item ∈ items, Readable item) :
    Readable (.array items) := by
  intro other rest otherRest _ _ same
  have kinds := kind_eq_of_print same
  cases other <;> cases kinds
  rename_i others
  have closed (item : Value Decimal) (tail text : Text) : print item ++ tail ≠ 93 :: text := by
    intro equal
    obtain ⟨first, after, begins, -, apart⟩ := print_opens item
    rw [begins, List.cons_append] at equal
    rw [(List.cons.inj equal).1] at apart
    cases apart
  match items, others with
  | [], [] => exact ⟨rfl, List.append_cancel_left same⟩
  | [], other :: others =>
      rw [print, print] at same
      simp only [ascii, List.cons_append, List.append_assoc] at same
      exact absurd (List.cons.inj same).2.symm (closed _ _ _)
  | item :: items, [] =>
      rw [print, print] at same
      simp only [ascii, List.cons_append, List.append_assoc] at same
      exact absurd (List.cons.inj same).2 (closed _ _ _)
  | item :: items, other :: others =>
      rw [print, print, List.cons_append, List.cons_append] at same
      have lists : printItems (item :: items) ++ rest =
          printItems (other :: others) ++ otherRest := by
        rw [printItems, printItems, List.cons_append, List.cons_append, (List.cons.inj same).2]
      obtain ⟨equal, rests⟩ := printItems_inj readable lists
      exact ⟨by rw [equal], rests⟩

theorem readable_object {members : List (Text × Value Decimal)}
    (readable : ∀ member ∈ members, Readable member.2) : Readable (.object members) := by
  intro other rest otherRest _ _ same
  have kinds := kind_eq_of_print same
  cases other <;> cases kinds
  rename_i others
  match members, others with
  | [], [] => exact ⟨rfl, List.append_cancel_left same⟩
  | [], (key, value) :: others =>
      rw [print, print] at same
      simp [quote] at same
  | (key, value) :: members, [] =>
      rw [print, print] at same
      simp [quote] at same
  | (key, value) :: members, (other, otherValue) :: others =>
      rw [print, print, List.cons_append, List.cons_append] at same
      have lists : printMembers ((key, value) :: members) ++ rest =
          printMembers ((other, otherValue) :: others) ++ otherRest := by
        rw [printMembers, printMembers, List.cons_append, List.cons_append, (List.cons.inj same).2]
      obtain ⟨equal, rests⟩ := printMembers_inj readable lists
      exact ⟨by rw [equal], rests⟩

/-- Every value is told from its text. -/
theorem readable (value : Value Decimal) : Readable value := by
  induction value using Value.induct with
  | null =>
    intro other rest otherRest _ _ same
    have kinds := kind_eq_of_print same
    cases other <;> cases kinds
    exact ⟨rfl, List.append_cancel_left same⟩
  | bool value =>
    intro other rest otherRest _ _ same
    have kinds := kind_eq_of_print same
    cases other <;> cases kinds
    rename_i other
    cases value <;> cases other <;> simp_all [print, ascii]
  | number value => exact readable_number value
  | string text => exact readable_string text
  | array items own => exact readable_array own
  | object members own => exact readable_object own

/-- Different values have different texts. -/
theorem print_injective : Function.Injective print := by
  intro value other same
  exact (readable value (by simp [Ends]) (by simp [Ends])
    (congrArg (· ++ []) same)).1

/-! ## Well-formed texts without control characters -/

/-- A text with an encoding and without line breaks. -/
def Plain (text : Text) : Prop := wellFormed text = true ∧ ∀ unit ∈ text, 32 ≤ unit

theorem Plain.append {text other : Text} (first : Plain text) (second : Plain other) :
    Plain (text ++ other) :=
  ⟨wellFormed_append first.1 second.1, List.forall_mem_append.mpr ⟨first.2, second.2⟩⟩

theorem Plain.cons {unit : Nat} {text : Text} (small : 32 ≤ unit ∧ unit < 256) (rest : Plain text) :
    Plain (unit :: text) :=
  ⟨wellFormed_cons (plain_of_lt small.2).1 (plain_of_lt small.2).2 rest.1,
    List.forall_mem_cons.mpr ⟨small.1, rest.2⟩⟩

theorem plain_quote (text : Text) : Plain (quote text) := ⟨wellFormed_quote text, le_quote text⟩

theorem plain_number (number : Decimal) : Plain (number.text.map Char.toNat) :=
  ⟨wellFormed_of_plain fun unit member => plain_of_lt (number_units number unit member).2.1,
    fun unit member => (number_units number unit member).2.2⟩

theorem plain_printItems {items : List (Value Decimal)} (own : ∀ item ∈ items, Plain (print item)) :
    Plain (printItems items) := by
  induction items with
  | nil => exact ⟨rfl, by simp [printItems]⟩
  | cons item items ih =>
    obtain ⟨first, own⟩ := List.forall_mem_cons.mp own
    rw [printItems]
    exact (first.append (ih own)).cons (by decide)

theorem plain_printMembers {members : List (Text × Value Decimal)}
    (own : ∀ member ∈ members, Plain (print member.2)) : Plain (printMembers members) := by
  induction members with
  | nil => exact ⟨rfl, by simp [printMembers]⟩
  | cons member members ih =>
    obtain ⟨key, value⟩ := member
    obtain ⟨first, own⟩ := List.forall_mem_cons.mp own
    rw [printMembers]
    exact ((plain_quote key).append ((first.append (ih own)).cons (by decide))).cons (by decide)

theorem plain_print (value : Value Decimal) : Plain (print value) := by
  induction value using Value.induct with
  | null => exact ⟨rfl, by decide⟩
  | bool value => cases value <;> exact ⟨rfl, by decide⟩
  | number value => exact plain_number value
  | string text => exact plain_quote text
  | array items own =>
    cases items with
    | nil => exact ⟨rfl, by decide⟩
    | cons item items =>
      obtain ⟨first, own⟩ := List.forall_mem_cons.mp own
      rw [print]
      exact (first.append (plain_printItems own)).cons (by decide)
  | object members own =>
    rcases members with _ | ⟨⟨key, value⟩, members⟩
    · exact ⟨rfl, by simp [print]⟩
    · obtain ⟨first, own⟩ := List.forall_mem_cons.mp own
      rw [print]
      exact ((plain_quote key).append ((first.append (plain_printMembers own)).cons
        (by decide))).cons (by decide)

end

end JsonText
