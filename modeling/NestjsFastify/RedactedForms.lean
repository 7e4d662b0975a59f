import Mathlib
import NestjsFastify.LoggerRedact

/-! # What the replacements match

Each pattern that redacts a secret is given as a form: the words that it matches, taken apart, and
what they are replaced by.
-/
namespace NestjsFastify.LoggerRedact
open BacktrackingRegex TextReplacement
open ScriptText (isBlank)

/-- What holds of all characters of a text is decided one by one. -/
scoped instance decidableAll {holds : Char → Prop} [DecidablePred holds] (text : List Char) :
    Decidable (∀ character ∈ text, holds character) :=
  List.decidableBAll holds text

variable {word replaced rest : List Char} {groups : List (List Char)}

/-! ### Names of secrets -/

/-- The names of sensitive members and assignments, in small letters. -/
def textKeys : List (List Char) :=
  ["access_token", "refresh_token", "session_token", "token", "secret", "password", "apikey",
    "api-key", "api_key"].map String.toList

/-- The names of sensitive parameters, in small letters. -/
def queryKeys : List (List Char) :=
  ["access_token", "refresh_token", "session_token", "token", "code", "secret", "password",
    "apikey", "api-key", "api_key", "email"].map String.toList

/-- Only a capital changes when it is written small. -/
theorem eq_of_toLower_eq {character small : Char} (same : character.toLower = small)
    (other : small.isLower = false) : character = small := by
  by_cases upper : 'A'.val ≤ character.val ∧ character.val ≤ 'Z'.val
  · have moved : small.val = character.val + ('a'.val - 'A'.val) := by
      rw [← same, Char.toLower, dif_pos upper]
    have bounds : 65 ≤ character.val.toNat ∧ character.val.toNat ≤ 90 := upper
    have value : small.val.toNat = character.val.toNat + 32 := by
      rw [moved, UInt32.toNat_add]
      exact Nat.mod_eq_of_lt (by change _ + 32 < _; omega)
    have lower : 'a'.val ≤ small.val ∧ small.val ≤ 'z'.val := by
      constructor
      · change 97 ≤ small.val.toNat
        omega
      · change small.val.toNat ≤ 122
        omega
    have isLower : small.isLower = true := by
      rw [Char.isLower, Bool.and_eq_true]
      exact ⟨decide_eq_true lower.1, decide_eq_true lower.2⟩
    simp [isLower] at other
  · rw [← same, Char.toLower, dif_neg upper]

@[simp] theorem word_apiKey : apiKey.Word word groups ↔
    word.map Char.toLower ∈ ["apikey", "api-key", "api_key"].map String.toList ∧ groups = [] := by
  constructor
  · rintro ⟨left, right, _, _, api, ⟨middle, last, _, _, optional, key, rfl, rfl⟩, rfl, rfl⟩
    obtain ⟨first, rfl⟩ := word_caseless.mp api
    obtain ⟨second, rfl⟩ := word_caseless.mp key
    rcases optional with ⟨⟨character, rfl, hyphen⟩, rfl⟩ | ⟨rfl, rfl⟩
    · rw [List.map_append, List.map_append, first, second]
      rcases List.mem_cons.mp (of_decide_eq_true hyphen) with rfl | other
      · exact ⟨by decide, rfl⟩
      · obtain rfl := List.mem_singleton.mp other
        exact ⟨by decide, rfl⟩
    · rw [List.map_append, List.map_append, first, second]
      exact ⟨by decide, rfl⟩
  · rintro ⟨member, rfl⟩
    have divide : ∀ middle : List Char, middle.all (fun c => c ∈ ['-', '_']) = true →
        middle.length ≤ 1 → word.map Char.toLower = "api".toList ++ (middle ++ "key".toList) →
        apiKey.Word word [] := by
      intro middle hyphens short same
      obtain ⟨left, rest, rfl, api, rest_eq⟩ := List.map_eq_append_iff.mp same
      obtain ⟨middle', right, rfl, middle_eq, key⟩ := List.map_eq_append_iff.mp rest_eq
      refine ⟨left, middle' ++ right, [], [], word_caseless.mpr ⟨api, rfl⟩,
        ⟨middle', right, [], [], ?_, word_caseless.mpr ⟨key, rfl⟩, rfl, rfl⟩, rfl, rfl⟩
      match middle', middle, middle_eq with
      | [], [], _ => exact .inr ⟨rfl, rfl⟩
      | [character], [hyphen], same =>
        have hyphen' : hyphen ∈ ['-', '_'] := by simpa using hyphens
        have eq : character = hyphen := by
          refine eq_of_toLower_eq (List.cons.inj same).1 ?_
          rcases List.mem_cons.mp hyphen' with rfl | other
          · rfl
          · exact List.mem_singleton.mp other ▸ rfl
        exact .inl ⟨⟨character, rfl, decide_eq_true (eq ▸ hyphen')⟩, rfl⟩
      | _ :: _ :: _, [_], same => simp at same
      | _, _ :: _ :: _, _ => simp at short
    simp only [List.map_cons, List.map_nil, List.mem_cons, List.not_mem_nil, or_false] at member
    rcases member with same | same | same
    · exact divide [] rfl (by simp) same
    · exact divide ['-'] rfl (by simp) same
    · exact divide ['_'] rfl (by simp) same

@[simp] theorem word_sensitiveTextKeys : sensitiveTextKeys.Word word groups ↔
    word.map Char.toLower ∈ textKeys ∧ groups = [] := by
  simp only [sensitiveTextKeys, Regex.choice, Regex.Word, word_caseless, word_apiKey, textKeys,
    List.map_cons, List.map_nil, List.mem_cons, List.not_mem_nil, or_false, ← or_and_right]
  rfl

@[simp] theorem word_sensitiveQueryKeys : sensitiveQueryKeys.Word word groups ↔
    word.map Char.toLower ∈ queryKeys ∧ groups = [] := by
  simp only [sensitiveQueryKeys, Regex.choice, Regex.Word, word_caseless, word_apiKey, queryKeys,
    List.map_cons, List.map_nil, List.mem_cons, List.not_mem_nil, or_false, ← or_and_right,
    or_assoc]
  rfl

/-- The characters of names. -/
def isKey (character : Char) : Bool :=
  character.isAlpha || character = '_' || character = '-'

theorem isAlpha_of_toLower {character : Char} (lower : character.toLower.isLower = true) :
    character.isAlpha = true := by
  by_cases upper : character.isUpper = true
  · simp [Char.isAlpha, upper]
  · have same : character.toLower = character := by
      rw [Char.toLower, dif_neg]
      simpa [Char.isUpper] using upper
    rw [same] at lower
    simp [Char.isAlpha, lower]

theorem queryKeys_chars : ∀ key ∈ queryKeys, key ≠ [] ∧ key.head?.any Char.isLower = true ∧
    ∀ character ∈ key, character ≠ 'b' ∧
      (character.isLower = true ∨ character = '_' ∨ character = '-') := by
  decide

theorem textKeys_subset : textKeys ⊆ queryKeys := by
  decide

section Keys
variable {key : List Char} {character : Char}

theorem isKey_of_mem (isKeyWord : key.map Char.toLower ∈ queryKeys) (member : character ∈ key) :
    isKey character = true ∧ character.toLower ≠ 'b' := by
  obtain ⟨other, lower | same | same⟩ := (queryKeys_chars _ isKeyWord).2.2 _
    (List.mem_map_of_mem member)
  · exact ⟨by simp [isKey, isAlpha_of_toLower lower], other⟩
  · exact ⟨by simp [isKey, eq_of_toLower_eq same rfl], other⟩
  · exact ⟨by simp [isKey, eq_of_toLower_eq same rfl], other⟩

theorem toNat_of_isAlphanum (letter : character.isAlphanum = true) :
    48 ≤ character.toNat ∧ character.toNat ≤ 122 := by
  have bounds : ∀ low high : Char, (character.val ≥ low.val ∧ character.val ≤ high.val) →
      low.toNat ≤ character.toNat ∧ character.toNat ≤ high.toNat := fun _ _ inside => inside
  simp only [Char.isAlphanum, Char.isAlpha, Char.isUpper, Char.isLower, Char.isDigit,
    Bool.or_eq_true, Bool.and_eq_true, decide_eq_true_eq] at letter
  rcases letter with (upper | lower) | digit
  · have := bounds 'A' 'Z' upper
    exact ⟨(by decide : 48 ≤ 'A'.toNat).trans this.1, this.2.trans (by decide)⟩
  · have := bounds 'a' 'z' lower
    exact ⟨(by decide : 48 ≤ 'a'.toNat).trans this.1, this.2⟩
  · have := bounds '0' '9' digit
    exact ⟨this.1, this.2.trans (by decide)⟩

theorem toNat_of_isBlank (blank : isBlank character = true) :
    character.toNat ≤ 32 ∨ 160 ≤ character.toNat := by
  simp only [isBlank, Bool.or_eq_true, Bool.and_eq_true, decide_eq_true_eq] at blank
  omega

theorem not_isKey_of_isBlank (blank : isBlank character = true) : isKey character = false := by
  have outside := toNat_of_isBlank blank
  by_contra letter
  simp only [isKey, Bool.not_eq_false, Bool.or_eq_true, decide_eq_true_eq] at letter
  rcases letter with (letter | rfl) | rfl
  · have alphanum : character.isAlphanum = true := by simp [Char.isAlphanum, letter]
    have inside := toNat_of_isAlphanum alphanum
    omega
  · revert outside
    decide
  · revert outside
    decide

theorem exists_head_of_key (isKeyWord : key.map Char.toLower ∈ queryKeys) :
    ∃ first rest, key = first :: rest ∧ first.isAlpha = true := by
  cases key with
  | nil => exact absurd rfl (queryKeys_chars _ isKeyWord).1
  | cons first rest =>
    have lower := (queryKeys_chars _ isKeyWord).2.1
    exact ⟨first, rest, rfl, isAlpha_of_toLower (by simpa using lower)⟩

end Keys

/-! ### The forms -/

inductive UrlForm : Option Char → List Char → List Char → Prop
  | mk {previous : Option Char} {user password : List Char} (user_ne : user ≠ [])
      (users : ∀ character ∈ user, isUser character = true) (password_ne : password ≠ [])
      (passwords : ∀ character ∈ password, isPassword character = true) :
      UrlForm previous ("://".toList ++ (user ++ ':' :: (password ++ ['@'])))
        ("://".toList ++ (user ++ ':' :: (censor ++ ['@'])))

theorem urlPassword_follows : urlPassword.Follows UrlForm fun _ => false := by
  refine Rule.follows_of_unique ?_ ?_ ?_
  · intro previous text found matched
    obtain ⟨word, isWord, same⟩ := exists_word_of_matchAt rfl matched
    obtain ⟨_, _, _, _, slashes, ⟨_, _, _, _, ⟨_, user, rfl⟩, ⟨_, _, _, _, colon, ⟨_, _, _, _,
      ⟨_, password, rfl⟩, at_, rfl, rfl⟩, rfl, rfl⟩, rfl, rfl⟩, rfl, groups⟩ := isWord
    obtain ⟨rfl, rfl⟩ := word_literal.mp slashes
    obtain ⟨⟨user_ne, users⟩, rfl⟩ := word_plus_char.mp user
    obtain ⟨rfl, rfl⟩ := word_literal.mp colon
    obtain ⟨⟨password_ne, passwords⟩, rfl⟩ := word_plus_char.mp password
    obtain ⟨rfl, rfl⟩ := word_literal.mp at_
    refine ⟨_, same, ?_, fun _ _ => rfl⟩
    have form := @UrlForm.mk previous _ _ user_ne users password_ne passwords
    simpa [urlPassword, captured, groups] using form
  · rintro previous word replaced rest ⟨user_ne, users, password_ne, passwords⟩ -
    exact isSome_matchAt rfl ⟨_, _, _, _, word_literal.mpr ⟨rfl, rfl⟩, ⟨_, _, _, _,
      ⟨_, word_plus_char.mpr ⟨⟨user_ne, users⟩, rfl⟩, rfl⟩, ⟨_, _, _, _,
      word_literal.mpr ⟨rfl, rfl⟩, ⟨_, _, _, _, ⟨_, word_plus_char.mpr
      ⟨⟨password_ne, passwords⟩, rfl⟩, rfl⟩, word_literal.mpr ⟨rfl, rfl⟩, rfl, rfl⟩, rfl, rfl⟩,
      rfl, rfl⟩, rfl, rfl⟩
  · rintro previous word replaced rest word' replaced' rest' ⟨-, users, -, passwords⟩
      ⟨-, users', -, passwords'⟩ - - same
    simp only [List.append_assoc, List.cons_append, List.nil_append] at same
    obtain ⟨rfl, behind⟩ := append_unique (List.append_cancel_left same) users users'
      (stops_cons rfl) (stops_cons rfl)
    obtain ⟨rfl, -⟩ := append_unique (List.cons.inj behind).2 passwords passwords'
      (stops_cons rfl) (stops_cons rfl)
    exact ⟨rfl, rfl⟩

theorem isWord_of_isAlpha {character : Char} (letter : character.isAlpha = true) :
    isWord character = true := by
  simp [isWord, Char.isAlphanum, letter]

theorem not_isBlank_of_isToken {character : Char} (token : isToken character = true) :
    isBlank character = false := by
  by_contra blank
  have outside := toNat_of_isBlank (Bool.not_eq_false _ ▸ blank)
  simp only [isToken, Bool.or_eq_true, decide_eq_true_eq] at token
  rcases token with letter | other
  · have inside := toNat_of_isAlphanum letter
    omega
  · revert outside
    have inside : ∀ other ∈ ['.', '_', '~', '+', '/', '=', '-'],
        ¬(other.toNat ≤ 32 ∨ 160 ≤ other.toNat) := by decide
    exact inside _ other

inductive BearerForm : Option Char → List Char → List Char → Prop
  | mk {previous : Option Char} {scheme blanks token : List Char}
      (apart : previous.any isWord = false) (isScheme : scheme.map Char.toLower = "bearer".toList)
      (blanks_ne : blanks ≠ []) (allBlank : ∀ character ∈ blanks, isBlank character = true)
      (token_ne : token ≠ []) (tokens : ∀ character ∈ token, isToken character = true) :
      BearerForm previous (scheme ++ (blanks ++ token)) ("Bearer ".toList ++ censor)

theorem exists_head_of_scheme {scheme : List Char}
    (isScheme : scheme.map Char.toLower = "bearer".toList) :
    ∃ first rest, scheme = first :: rest ∧ first.toLower = 'b' ∧ first.isAlpha = true := by
  cases scheme with
  | nil => simp at isScheme
  | cons first rest =>
    have small : first.toLower = 'b' := (List.cons.inj isScheme).1
    exact ⟨first, rest, rfl, small, isAlpha_of_toLower (small ▸ rfl)⟩

theorem bearerToken_follows : bearerToken.Follows BearerForm isToken := by
  have greedy : ∀ previous text, bearerToken.regex.matchAt previous text =
      if previous.any isWord != text.head?.any isWord then
        (Regex.seq (.sequence [.caseless "Bearer".toList, .plus (.char isBlank), .char isToken])
          (.star (.char isToken))).matchAt previous text
      else none := fun _ _ => rfl
  refine Rule.follows_of_unique ?_ ?_ ?_
  · intro previous text found matched
    rw [greedy] at matched
    split at matched
    · rename_i boundary
      obtain ⟨word, tail, isWord, rfl, tails, stops⟩ := exists_word_of_greedy rfl matched
      obtain ⟨scheme, _, _, _, isScheme, ⟨blanks, _, _, _, allBlank, ⟨⟨first, rfl, token⟩, rfl⟩,
        rfl, rfl⟩, rfl, -⟩ := isWord
      have isScheme := (word_caseless.mp isScheme).1
      obtain ⟨⟨blanks_ne, everyBlank⟩, rfl⟩ := word_plus_char.mp allBlank
      obtain ⟨character, rest, rfl, -, letter⟩ := exists_head_of_scheme isScheme
      have apart : previous.any BacktrackingRegex.isWord = false := by
        simpa [isWord_of_isAlpha letter] using boundary
      refine ⟨character :: rest ++ (blanks ++ first :: tail), by simp, .mk apart isScheme blanks_ne
        everyBlank (List.cons_ne_nil _ _) ?_, stops⟩
      exact List.forall_mem_cons.mpr ⟨token, tails⟩
    · simp at matched
  · rintro previous word replaced rest ⟨apart, isScheme, blanks_ne, allBlank, token_ne, tokens⟩ -
    rename_i scheme blanks token
    obtain ⟨first, tail, rfl⟩ := List.exists_cons_of_ne_nil token_ne
    obtain ⟨character, rest', rfl, -, letter⟩ := exists_head_of_scheme isScheme
    rw [greedy, if_pos (by simp [apart, isWord_of_isAlpha letter])]
    have divided : character :: rest' ++ (blanks ++ first :: tail) ++ rest =
        (character :: rest' ++ (blanks ++ [first])) ++ (tail ++ rest) := by simp
    rw [divided]
    exact isSome_greedy rfl ⟨_, _, _, _, word_caseless.mpr ⟨isScheme, rfl⟩, ⟨_, _, _, _,
      word_plus_char.mpr ⟨⟨blanks_ne, allBlank⟩, rfl⟩, ⟨⟨first, rfl, tokens _ List.mem_cons_self⟩,
      rfl⟩, rfl, rfl⟩, rfl, rfl⟩
  · rintro previous word replaced rest word' replaced' rest'
      ⟨-, isScheme, -, allBlank, token_ne, tokens⟩ ⟨-, isScheme', -, allBlank', token_ne', tokens'⟩
      stops stops' same
    simp only [List.append_assoc] at same
    have lengths := congrArg List.length (isScheme.trans isScheme'.symm)
    rw [List.length_map, List.length_map] at lengths
    obtain ⟨rfl, behind⟩ := List.append_inj same lengths
    obtain ⟨rfl, last⟩ := append_unique behind allBlank allBlank'
      (stops_append token_ne fun _ member => not_isBlank_of_isToken (tokens _ member))
      (stops_append token_ne' fun _ member => not_isBlank_of_isToken (tokens' _ member))
    obtain ⟨rfl, -⟩ := append_unique last tokens tokens' stops stops'
    exact ⟨rfl, rfl⟩

inductive QueryForm : Option Char → List Char → List Char → Prop
  | mk {previous : Option Char} {mark : Char} {key value : List Char}
      (isMark : mark ∈ ['?', '&']) (isKeyWord : key.map Char.toLower ∈ queryKeys)
      (values : ∀ character ∈ value, isValue character = true) :
      QueryForm previous (mark :: (key ++ '=' :: value)) (mark :: (key ++ '=' :: censor))

theorem queryValue_follows : queryValue.Follows QueryForm isValue := by
  refine Rule.follows_of_unique ?_ ?_ ?_
  · intro previous text found matched
    obtain ⟨word, value, isWord, rfl, values, stops⟩ := exists_word_of_greedy rfl matched
    obtain ⟨_, ⟨_, key, _, _, ⟨⟨mark, rfl, isMark⟩, rfl⟩, ⟨_, _, _, _, isKeyWord, equals, rfl,
      rfl⟩, rfl, rfl⟩, groups⟩ := isWord
    obtain ⟨isName, rfl⟩ := word_sensitiveQueryKeys.mp isKeyWord
    obtain ⟨rfl, rfl⟩ := word_literal.mp equals
    refine ⟨_, (List.append_assoc ..).symm, ?_, stops⟩
    have form := @QueryForm.mk previous _ _ _ (of_decide_eq_true isMark) isName values
    simpa [queryValue, captured, groups] using form
  · rintro previous word replaced rest ⟨isMark, isKeyWord, values⟩ -
    rename_i mark key value
    have divided : mark :: (key ++ '=' :: value) ++ rest =
        ([mark] ++ (key ++ ['='])) ++ (value ++ rest) := by simp
    rw [divided]
    exact isSome_greedy rfl ⟨_, ⟨_, _, _, _, ⟨⟨mark, rfl, decide_eq_true isMark⟩, rfl⟩,
      ⟨_, _, _, _, word_sensitiveQueryKeys.mpr ⟨isKeyWord, rfl⟩, word_literal.mpr ⟨rfl, rfl⟩, rfl,
      rfl⟩, rfl, rfl⟩, rfl⟩
  · rintro previous word replaced rest word' replaced' rest' ⟨-, isKeyWord, values⟩
      ⟨-, isKeyWord', values'⟩ stops stops' same
    simp only [List.append_assoc, List.cons_append] at same
    obtain ⟨rfl, behind⟩ := List.cons.inj same
    obtain ⟨rfl, last⟩ := append_unique behind
      (fun _ member => (isKey_of_mem isKeyWord member).1)
      (fun _ member => (isKey_of_mem isKeyWord' member).1) (stops_cons rfl) (stops_cons rfl)
    obtain ⟨rfl, -⟩ := append_unique (List.cons.inj last).2 values values' stops stops'
    exact ⟨rfl, rfl⟩

/-! ### String contents -/

/-- Read the content of a string: whether the next character is escaped, and nothing once the
content has ended. -/
def scanBody : Bool → List Char → Option Bool
  | escaped, [] => some escaped
  | false, character :: rest =>
      if character = '"' then none else scanBody (character = '\\') rest
  | true, character :: rest => if isAny character then scanBody false rest else none

/-- The text is the content of a string. -/
def IsBody (body : List Char) : Prop := scanBody false body = some false

instance (body : List Char) : Decidable (IsBody body) := by
  unfold IsBody
  infer_instance

theorem scanBody_append (escaped : Bool) (front back : List Char) :
    scanBody escaped (front ++ back) = (scanBody escaped front).bind (scanBody · back) := by
  induction front generalizing escaped with
  | nil => rfl
  | cons character front ih =>
    cases escaped with
    | false =>
      rw [List.cons_append, scanBody, scanBody]
      split
      · rfl
      · exact ih _
    | true =>
      rw [List.cons_append, scanBody, scanBody]
      split
      · exact ih _
      · rfl

@[simp] theorem word_stringBody : stringBody.Word word groups ↔ IsBody word ∧ groups = [] := by
  constructor
  · intro repeats
    change Repeats _ word groups at repeats
    induction repeats with
    | nil => exact ⟨rfl, rfl⟩
    | cons nonempty holds repeats ih =>
      obtain ⟨isBody, rfl⟩ := ih
      rcases holds with ⟨⟨character, rfl, plain⟩, rfl⟩ | ⟨_, _, _, _, ⟨⟨first, rfl, escape⟩, rfl⟩,
        ⟨⟨second, rfl, any⟩, rfl⟩, rfl, rfl⟩
      · rw [Bool.and_eq_true, bne_iff_ne, bne_iff_ne] at plain
        refine ⟨?_, rfl⟩
        simpa [IsBody, scanBody, plain] using isBody
      · obtain rfl : first = '\\' := of_decide_eq_true escape
        refine ⟨?_, rfl⟩
        simpa [IsBody, scanBody, any] using isBody
  · rintro ⟨isBody, rfl⟩
    change Repeats _ word []
    induction size : word.length using Nat.strong_induction_on generalizing word with
    | _ size ih =>
      match word with
      | [] => exact .nil
      | character :: rest =>
        rw [IsBody, scanBody] at isBody
        split at isBody
        · simp at isBody
        · rename_i unquoted
          by_cases escape : character = '\\'
          · subst escape
            cases rest with
            | nil => simp [scanBody] at isBody
            | cons second rest =>
              simp only [decide_true, scanBody] at isBody
              split at isBody
              · rename_i any
                have more := ih rest.length (by rw [← size, List.length_cons, List.length_cons]; omega)
                  isBody rfl
                exact @Repeats.cons _ ['\\', second] rest [] [] (List.cons_ne_nil _ _)
                  (.inr ⟨_, _, [], [], ⟨⟨_, rfl, by decide⟩, rfl⟩, ⟨⟨_, rfl, any⟩, rfl⟩, rfl, rfl⟩)
                  more
              · simp at isBody
          · have more := ih rest.length (by simp [← size]) (by simpa [IsBody, escape] using isBody) rfl
            exact @Repeats.cons _ [character] rest [] [] (List.cons_ne_nil _ _)
              (.inl ⟨⟨character, rfl, by simp [unquoted, escape]⟩, rfl⟩) more

/-- The content of a string ends at the first quote that is not escaped. -/
theorem body_unique {body body' rest' : List Char} (isBody : IsBody body) (isBody' : IsBody body')
    (same : body ++ '"' :: rest = body' ++ '"' :: rest') : body = body' := by
  have longer : ∀ {body body' rest rest' : List Char}, IsBody body → IsBody body' →
      body ++ '"' :: rest = body' ++ '"' :: rest' → body.length ≤ body'.length →
      body = body' := by
    intro body body' rest rest' isBody isBody' same short
    obtain ⟨more, rfl⟩ : body <+: body' :=
      List.prefix_of_prefix_length_le ⟨_, same⟩ ⟨_, rfl⟩ short
    rw [List.append_assoc] at same
    cases more with
    | nil => simp
    | cons character more =>
      obtain ⟨rfl, -⟩ := List.cons.inj (List.append_cancel_left same)
      rw [IsBody, scanBody_append, isBody] at isBody'
      simp [scanBody] at isBody'
  rcases Nat.le_total body.length body'.length with short | short
  · exact longer isBody isBody' same short
  · exact (longer isBody' isBody same.symm short).symm

inductive JsonForm : Option Char → List Char → List Char → Prop
  | mk {previous : Option Char} {key before after body : List Char}
      (isKeyWord : key.map Char.toLower ∈ textKeys)
      (blanks : ∀ character ∈ before, isBlank character = true)
      (blanks' : ∀ character ∈ after, isBlank character = true) (isBody : IsBody body) :
      JsonForm previous
        ('"' :: (key ++ '"' :: (before ++ ':' :: (after ++ '"' :: (body ++ ['"'])))))
        ('"' :: (key ++ '"' :: (before ++ ':' :: (after ++ '"' :: (censor ++ ['"'])))))

theorem jsonSensitiveMember_follows : jsonSensitiveMember.Follows JsonForm fun _ => false := by
  refine Rule.follows_of_unique ?_ ?_ ?_
  · intro previous text found matched
    obtain ⟨word, isWord, same⟩ := exists_word_of_matchAt rfl matched
    obtain ⟨_, _, _, _, ⟨_, ⟨_, _, _, _, quote, ⟨_, _, _, _, isKeyWord, ⟨_, _, _, _, endQuote,
      ⟨_, _, _, _, blanks, ⟨_, _, _, _, colon, blanks', rfl, rfl⟩, rfl, rfl⟩, rfl, rfl⟩, rfl,
      rfl⟩, rfl, rfl⟩, rfl⟩, ⟨_, _, _, _, valueQuote, ⟨_, _, _, _, isBody, lastQuote, rfl, rfl⟩,
      rfl, rfl⟩, rfl, groups⟩ := isWord
    obtain ⟨rfl, rfl⟩ := word_literal.mp quote
    obtain ⟨isName, rfl⟩ := word_sensitiveTextKeys.mp isKeyWord
    obtain ⟨rfl, rfl⟩ := word_literal.mp endQuote
    obtain ⟨allBlank, rfl⟩ := word_star_char.mp blanks
    obtain ⟨rfl, rfl⟩ := word_literal.mp colon
    obtain ⟨allBlank', rfl⟩ := word_star_char.mp blanks'
    obtain ⟨rfl, rfl⟩ := word_literal.mp valueQuote
    obtain ⟨isContent, rfl⟩ := word_stringBody.mp isBody
    obtain ⟨rfl, rfl⟩ := word_literal.mp lastQuote
    refine ⟨_, same, ?_, fun _ _ => rfl⟩
    have form := @JsonForm.mk previous _ _ _ _ isName allBlank allBlank' isContent
    simpa [jsonSensitiveMember, captured, groups] using form
  · rintro previous word replaced rest ⟨isKeyWord, blanks, blanks', isBody⟩ -
    rename_i key before after body
    have divided : '"' :: (key ++ '"' :: (before ++ ':' :: (after ++ '"' :: (body ++ ['"'])))) =
        (['"'] ++ (key ++ (['"'] ++ (before ++ ([':'] ++ after))))) ++
          (['"'] ++ (body ++ ['"'])) := by simp
    rw [divided]
    exact isSome_matchAt rfl ⟨_, _, _, _, ⟨_, ⟨_, _, _, _, word_literal.mpr ⟨rfl, rfl⟩,
      ⟨_, _, _, _, word_sensitiveTextKeys.mpr ⟨isKeyWord, rfl⟩, ⟨_, _, _, _,
      word_literal.mpr ⟨rfl, rfl⟩, ⟨_, _, _, _, word_star_char.mpr ⟨blanks, rfl⟩, ⟨_, _, _, _,
      word_literal.mpr ⟨rfl, rfl⟩, word_star_char.mpr ⟨blanks', rfl⟩, rfl, rfl⟩, rfl, rfl⟩, rfl,
      rfl⟩, rfl, rfl⟩, rfl, rfl⟩, rfl⟩, ⟨_, _, _, _, word_literal.mpr ⟨rfl, rfl⟩, ⟨_, _, _, _,
      word_stringBody.mpr ⟨isBody, rfl⟩, word_literal.mpr ⟨rfl, rfl⟩, rfl, rfl⟩, rfl, rfl⟩, rfl,
      rfl⟩
  · rintro previous word replaced rest word' replaced' rest' ⟨isKeyWord, blanks, blanks', isBody⟩
      ⟨isKeyWord', before', after', isBody'⟩ - - same
    simp only [List.append_assoc, List.cons_append, List.nil_append] at same
    obtain ⟨rfl, same₁⟩ := append_unique (List.cons.inj same).2
      (fun _ member => (isKey_of_mem (textKeys_subset isKeyWord) member).1)
      (fun _ member => (isKey_of_mem (textKeys_subset isKeyWord') member).1)
      (stops_cons rfl) (stops_cons rfl)
    obtain ⟨rfl, same₂⟩ := append_unique (List.cons.inj same₁).2 blanks before'
      (stops_cons rfl) (stops_cons rfl)
    obtain ⟨rfl, same₃⟩ := append_unique (List.cons.inj same₂).2 blanks' after'
      (stops_cons rfl) (stops_cons rfl)
    obtain rfl := body_unique isBody isBody' (List.cons.inj same₃).2
    exact ⟨rfl, rfl⟩

/-! ### Bare assignments -/

theorem redactAfterFirstSeparator_append {front back : List Char} {separator : Char}
    (none : ∀ character ∈ front, isSeparator character = false)
    (isSeparator_ : isSeparator separator = true) :
    redactAfterFirstSeparator (front ++ separator :: back) = front ++ separator :: censor := by
  have found : (front ++ separator :: back).findIdx? isSeparator = some front.length := by
    rw [List.findIdx?_append, List.findIdx?_eq_none_iff.mpr none, List.findIdx?_cons, isSeparator_]
    simp
  rw [redactAfterFirstSeparator, found]
  simp [List.take_append]

inductive BareForm : Option Char → List Char → List Char → Prop
  | mk {previous : Option Char} {key before after value : List Char} {separator : Char}
      (apart : previous.any isWord = false) (isKeyWord : key.map Char.toLower ∈ textKeys)
      (blanks : ∀ character ∈ before, isBlank character = true)
      (isSeparator_ : isSeparator separator = true)
      (blanks' : ∀ character ∈ after, isBlank character = true) (value_ne : value ≠ [])
      (values : ∀ character ∈ value, isBare character = true) :
      BareForm previous (key ++ (before ++ separator :: (after ++ value)))
        (key ++ (before ++ separator :: censor))

theorem not_isBlank_of_isBare {character : Char} (bare : isBare character = true) :
    isBlank character = false := by
  simp only [isBare, Bool.and_eq_true, Bool.not_eq_true'] at bare
  exact bare.1.1

theorem not_isSeparator_of_isBlank {character : Char} (blank : isBlank character = true) :
    isSeparator character = false := by
  by_contra separator
  simp only [isSeparator, Bool.not_eq_false, Bool.or_eq_true, decide_eq_true_eq] at separator
  rcases separator with rfl | rfl <;> simp [isBlank] at blank

theorem isSeparator_cases {character : Char} (separator : isSeparator character = true) :
    isKey character = false ∧ isBlank character = false := by
  simp only [isSeparator, Bool.or_eq_true, decide_eq_true_eq] at separator
  rcases separator with rfl | rfl <;> decide

theorem not_isSeparator_of_isKey {character : Char} (letter : isKey character = true) :
    isSeparator character = false := by
  by_contra separator
  rw [(isSeparator_cases (Bool.not_eq_false _ ▸ separator)).1] at letter
  simp at letter

theorem bareSensitiveAssignment_follows :
    bareSensitiveAssignment.Follows BareForm isBare := by
  have greedy : ∀ previous text, bareSensitiveAssignment.regex.matchAt previous text =
      if previous.any isWord != text.head?.any isWord then
        (Regex.seq (.sequence [sensitiveTextKeys, .star (.char isBlank), .char isSeparator,
          .star (.char isBlank), .char isBare]) (.star (.char isBare))).matchAt previous text
      else none := fun _ _ => rfl
  refine Rule.follows_of_unique ?_ ?_ ?_
  · intro previous text found matched
    rw [greedy] at matched
    split at matched
    · rename_i boundary
      obtain ⟨word, tail, isWord, rfl, tails, stops⟩ := exists_word_of_greedy rfl matched
      obtain ⟨key, _, _, _, isKeyWord, ⟨before, _, _, _, blanks, ⟨_, _, _, _, ⟨⟨separator, rfl,
        isSeparator_⟩, rfl⟩, ⟨after, _, _, _, blanks', ⟨⟨first, rfl, bare⟩, rfl⟩, rfl, rfl⟩, rfl,
        rfl⟩, rfl, rfl⟩, rfl, -⟩ := isWord
      obtain ⟨isName, rfl⟩ := word_sensitiveTextKeys.mp isKeyWord
      obtain ⟨allBlank, rfl⟩ := word_star_char.mp blanks
      obtain ⟨allBlank', rfl⟩ := word_star_char.mp blanks'
      have keys := fun character member =>
        (@isKey_of_mem key character (textKeys_subset isName) member).1
      obtain ⟨character, rest, rfl, letter⟩ := exists_head_of_key (textKeys_subset isName)
      have apart : previous.any BacktrackingRegex.isWord = false := by
        simpa [isWord_of_isAlpha letter] using boundary
      have form := @BareForm.mk previous _ before after (first :: tail) separator apart isName
        allBlank isSeparator_ allBlank' (List.cons_ne_nil _ _)
        (List.forall_mem_cons.mpr ⟨bare, tails⟩)
      refine ⟨character :: rest ++ (before ++ separator :: (after ++ first :: tail)), by simp, ?_,
        stops⟩
      have rendered := @redactAfterFirstSeparator_append (character :: rest ++ before)
        (after ++ first :: tail) separator (List.forall_mem_append.mpr
          ⟨fun _ member => not_isSeparator_of_isKey (keys _ member),
            fun _ member => not_isSeparator_of_isBlank (allBlank _ member)⟩) isSeparator_
      simp only [List.append_assoc] at rendered
      rw [← rendered] at form
      exact form
    · simp at matched
  · rintro previous word replaced rest
      ⟨apart, isKeyWord, blanks, isSeparator_, blanks', value_ne, values⟩ -
    rename_i key before after value separator
    obtain ⟨first, tail, rfl⟩ := List.exists_cons_of_ne_nil value_ne
    obtain ⟨character, rest', rfl, letter⟩ := exists_head_of_key (textKeys_subset isKeyWord)
    rw [greedy, if_pos (by simp [apart, isWord_of_isAlpha letter])]
    have divided : character :: rest' ++ (before ++ separator :: (after ++ first :: tail)) ++ rest =
        (character :: rest' ++ (before ++ ([separator] ++ (after ++ [first])))) ++
          (tail ++ rest) := by simp
    rw [divided]
    exact isSome_greedy rfl ⟨_, _, _, _, word_sensitiveTextKeys.mpr ⟨isKeyWord, rfl⟩, ⟨_, _, _, _,
      word_star_char.mpr ⟨blanks, rfl⟩, ⟨_, _, _, _, ⟨⟨separator, rfl, isSeparator_⟩, rfl⟩,
      ⟨_, _, _, _, word_star_char.mpr ⟨blanks', rfl⟩, ⟨⟨first, rfl, values _ List.mem_cons_self⟩,
      rfl⟩, rfl, rfl⟩, rfl, rfl⟩, rfl, rfl⟩, rfl, rfl⟩
  · rintro previous word replaced rest word' replaced' rest'
      ⟨-, isKeyWord, blanks, isSeparator_, blanks', value_ne, values⟩
      ⟨-, isKeyWord', before', isSeparator', after', value_ne', values'⟩ stops stops' same
    simp only [List.append_assoc, List.cons_append] at same
    obtain ⟨rfl, same₁⟩ := append_unique same
      (fun _ member => (isKey_of_mem (textKeys_subset isKeyWord) member).1)
      (fun _ member => (isKey_of_mem (textKeys_subset isKeyWord') member).1)
      (stops_append_cons (fun _ member => not_isKey_of_isBlank (blanks _ member))
        (isSeparator_cases isSeparator_).1)
      (stops_append_cons (fun _ member => not_isKey_of_isBlank (before' _ member))
        (isSeparator_cases isSeparator').1)
    obtain ⟨rfl, same₂⟩ := append_unique same₁ blanks before'
      (stops_cons (isSeparator_cases isSeparator_).2) (stops_cons (isSeparator_cases isSeparator').2)
    obtain ⟨rfl, same₃⟩ := List.cons.inj same₂
    obtain ⟨rfl, same₄⟩ := append_unique same₃ blanks' after'
      (stops_append value_ne fun _ member => not_isBlank_of_isBare (values _ member))
      (stops_append value_ne' fun _ member => not_isBlank_of_isBare (values' _ member))
    obtain ⟨rfl, -⟩ := append_unique same₄ values values' stops stops'
    exact ⟨rfl, rfl⟩

end NestjsFastify.LoggerRedact
