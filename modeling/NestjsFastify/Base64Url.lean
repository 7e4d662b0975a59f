import Mathlib.Data.List.Basic
import Mathlib.Data.List.TakeWhile

/-! # Base64url

Three bytes are four characters of six bits each, without padding.  The decoder stops at padding and
passes over what else is not in the alphabet.
-/
namespace Base64Url

/-- The character of six bits. -/
def character (sextet : Nat) : Char :=
  if sextet < 26 then Char.ofNat (sextet + 65)
  else if sextet < 52 then Char.ofNat (sextet + 71)
  else if sextet < 62 then Char.ofNat (sextet - 4)
  else if sextet = 62 then '-' else '_'

/-- The six bits of a character. -/
def sextetOf (character : Char) : Option Nat :=
  if character.isUpper then some (character.toNat - 65)
  else if character.isLower then some (character.toNat - 71)
  else if character.isDigit then some (character.toNat + 4)
  else if character = '-' then some 62
  else if character = '_' then some 63
  else none

/-- The class `[A-Za-z0-9_-]`. -/
def isInAlphabet (character : Char) : Bool :=
  character.isAlphanum || character == '_' || character == '-'

theorem sextetOf_character {sextet : Nat} (six : sextet < 64) :
    sextetOf (character sextet) = some sextet := by
  have all : ∀ sextet < 64, sextetOf (character sextet) = some sextet := by decide
  exact all sextet six

theorem isInAlphabet_character {sextet : Nat} (six : sextet < 64) :
    isInAlphabet (character sextet) = true := by
  have all : ∀ sextet < 64, isInAlphabet (character sextet) = true := by decide
  exact all sextet six

/-- The sextets of some bytes; the last one of an incomplete group is filled with zeros. -/
def sextets : List UInt8 → List Nat
  | [] => []
  | [first] => [first.toNat / 4, first.toNat % 4 * 16]
  | [first, second] =>
      [first.toNat / 4, first.toNat % 4 * 16 + second.toNat / 16, second.toNat % 16 * 4]
  | first :: second :: third :: rest =>
      first.toNat / 4 :: (first.toNat % 4 * 16 + second.toNat / 16) ::
        (second.toNat % 16 * 4 + third.toNat / 64) :: third.toNat % 64 :: sextets rest

/-- The bytes that are complete. -/
def bytes : List Nat → List UInt8
  | first :: second :: third :: fourth :: rest =>
      UInt8.ofNat (first * 4 + second / 16) :: UInt8.ofNat (second % 16 * 16 + third / 4) ::
        UInt8.ofNat (third % 4 * 64 + fourth) :: bytes rest
  | [first, second, third] =>
      [UInt8.ofNat (first * 4 + second / 16), UInt8.ofNat (second % 16 * 16 + third / 4)]
  | [first, second] => [UInt8.ofNat (first * 4 + second / 16)]
  | _ => []

/-- `buffer.toString('base64url')` -/
def encode (message : List UInt8) : List Char := (sextets message).map character

/-- What is read of a text: nothing from the first padding on. -/
def unpadded (text : List Char) : List Char := text.takeWhile (· ≠ '=')

/-- `Buffer.from(text, 'base64url')` -/
def decode (text : List Char) : List UInt8 := bytes ((unpadded text).filterMap sextetOf)

theorem sextets_lt (message : List UInt8) : ∀ sextet ∈ sextets message, sextet < 64 := by
  fun_induction sextets message with
  | case1 => simp
  | case2 first =>
    have := first.toNat_lt
    simp only [List.mem_cons, List.not_mem_nil, or_false]
    omega
  | case3 first second =>
    have := first.toNat_lt
    have := second.toNat_lt
    simp only [List.mem_cons, List.not_mem_nil, or_false]
    omega
  | case4 first second third rest ih =>
    have := first.toNat_lt
    have := second.toNat_lt
    have := third.toNat_lt
    simp only [List.mem_cons]
    rintro sextet (own | own | own | own | own)
    · omega
    · omega
    · omega
    · omega
    · exact ih sextet own

/-- A number that is the value of a byte stands for it. -/
private theorem ofNat_eq (byte : UInt8) {number : Nat} (value : number = byte.toNat) :
    UInt8.ofNat number = byte := by
  rw [value, UInt8.ofNat_toNat]

theorem bytes_sextets (message : List UInt8) : bytes (sextets message) = message := by
  fun_induction sextets message with
  | case1 => rfl
  | case2 first =>
    have one := first.toNat_lt
    rw [bytes, ofNat_eq first (by omega)]
  | case3 first second =>
    have one := first.toNat_lt
    have two := second.toNat_lt
    rw [bytes, ofNat_eq first (by omega), ofNat_eq second (by omega)]
  | case4 first second third rest ih =>
    have one := first.toNat_lt
    have two := second.toNat_lt
    have three := third.toNat_lt
    rw [bytes, ofNat_eq first (by omega), ofNat_eq second (by omega),
      ofNat_eq third (by omega), ih]

theorem filterMap_character {numbers : List Nat} (six : ∀ sextet ∈ numbers, sextet < 64) :
    (numbers.map character).filterMap sextetOf = numbers := by
  induction numbers with
  | nil => rfl
  | cons first rest ih =>
    obtain ⟨here, others⟩ := List.forall_mem_cons.mp six
    rw [List.map_cons, List.filterMap_cons_some (sextetOf_character here), ih others]

theorem all_isInAlphabet_encode (message : List UInt8) :
    (encode message).all isInAlphabet = true := by
  rw [encode, List.all_map, List.all_eq_true]
  exact fun sextet own => isInAlphabet_character (sextets_lt message sextet own)

/-- A text in the alphabet has no padding. -/
theorem unpadded_of_alphabet {text : List Char} (alphabet : text.all isInAlphabet = true) :
    unpadded text = text := by
  refine List.takeWhile_eq_self_iff.mpr fun character own => ?_
  have fits := List.all_eq_true.mp alphabet character own
  rw [decide_eq_true_iff]
  rintro rfl
  exact absurd fits (by decide)

/-- What was encoded is decoded. -/
theorem decode_encode (message : List UInt8) : decode (encode message) = message := by
  rw [decode, unpadded_of_alphabet (all_isInAlphabet_encode message), encode,
    filterMap_character (sextets_lt message), bytes_sextets]

theorem encode_ne_nil {message : List UInt8} (some : message ≠ []) : encode message ≠ [] := by
  intro empty
  have none := decode_encode message
  rw [empty] at none
  exact some none.symm

end Base64Url
