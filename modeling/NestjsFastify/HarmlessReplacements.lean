import NestjsFastify.RedactedSecrets

/-! # What replacements do around secrets

Each replacement that is made before the secret's own leaves a secret of the same kind behind the
same syntax, where it changes nothing across an end of the secret.
-/
namespace NestjsFastify.LoggerRedact
open BacktrackingRegex TextReplacement
open Rule (Pending)
open ScriptText (isBlank)

/-! ### The characters of introductions -/

/-- The characters between the names and blanks of an introduction. -/
def SecretKind.marks : SecretKind → List Char
  | urlPassword => []
  | bearerToken => []
  | queryValue => ['?', '&', '=']
  | jsonMember => ['"', ':']
  | bareAssignment => [':', '=']

section
variable {kind : SecretKind} {previous : Option Char} {intro : List Char} {needed : Char → Bool}

/-- An introduction by a name has no character that neither names nor blanks nor its marks have. -/
theorem SecretKind.Introduces.plain (introduces : kind.Introduces previous intro)
    (named : kind ≠ .urlPassword ∧ kind ≠ .bearerToken)
    (keys : ∀ character, isKey character = true → character.toLower ≠ 'b' →
      needed character = false)
    (blank : ∀ character, isBlank character = true → needed character = false)
    (marks : ∀ character ∈ kind.marks, needed character = false) :
    ∀ character ∈ intro, needed character = false := by
  have names : ∀ {key : List Char}, key.map Char.toLower ∈ queryKeys →
      ∀ character ∈ key, needed character = false := fun isKeyWord character member =>
    keys _ (isKey_of_mem isKeyWord member).1 (isKey_of_mem isKeyWord member).2
  cases introduces with
  | url => exact absurd rfl named.1
  | bearer => exact absurd rfl named.2
  | query isMark isKeyWord =>
    simp only [List.forall_mem_cons, List.forall_mem_append]
    refine ⟨marks _ ?_, names isKeyWord, marks '=' (by decide), nofun⟩
    rcases List.mem_cons.mp isMark with rfl | other
    · decide
    · exact List.mem_singleton.mp other ▸ (by decide : '&' ∈ SecretKind.queryValue.marks)
  | json isKeyWord blanks blanks' =>
    simp only [List.forall_mem_cons, List.forall_mem_append]
    exact ⟨marks '"' (by decide), names (textKeys_subset isKeyWord), marks '"' (by decide),
      fun _ member => blank _ (blanks _ member), marks ':' (by decide),
      fun _ member => blank _ (blanks' _ member), marks '"' (by decide), nofun⟩
  | bare _ isKeyWord blanks isSeparator_ blanks' =>
    simp only [List.forall_mem_cons, List.forall_mem_append]
    refine ⟨names (textKeys_subset isKeyWord), fun _ member => blank _ (blanks _ member),
      marks _ ?_, fun _ member => blank _ (blanks' _ member)⟩
    simpa [SecretKind.marks, isSeparator] using isSeparator_

/-- The last character of an introduction is none that a replacement puts in the place of a secret. -/
theorem SecretKind.Introduces.last (introduces : kind.Introduces previous intro)
    (other : kind ≠ .urlPassword) :
    ∃ last, intro.getLast? = some last ∧ last ∉ censor ++ ['@'] := by
  have blank : ∀ character, isBlank character = true → character ∉ censor ++ ['@'] := by
    intro character blank member
    have visible : ∀ character ∈ censor ++ ['@'], isBlank character = false := by decide
    rw [visible character member] at blank
    simp at blank
  have blanks : ∀ (front after : List Char), after ≠ [] →
      (∀ character ∈ after, isBlank character = true) →
      ∃ last, (front ++ after).getLast? = some last ∧ last ∉ censor ++ ['@'] := by
    intro front after some allBlank
    refine ⟨after.getLast some, ?_, blank _ (allBlank _ (List.getLast_mem some))⟩
    rw [List.getLast?_append, List.getLast?_eq_getLast_of_ne_nil some]
    rfl
  cases introduces with
  | url => exact absurd rfl other
  | bearer _ _ blanks_ne allBlank => exact blanks _ _ blanks_ne allBlank
  | query => exact ⟨'=', by simp [List.getLast?_cons, List.getLast?_append], by decide⟩
  | json => exact ⟨'"', by simp [List.getLast?_cons, List.getLast?_append], by decide⟩
  | @bare _ key before after separator _ _ _ isSeparator_ blanks' =>
    rcases List.eq_nil_or_concat after with rfl | ⟨_, _, rfl⟩
    · refine ⟨separator, by simp [List.getLast?_append], ?_⟩
      have others : ∀ character ∈ censor ++ ['@'], isSeparator character = false := by decide
      intro member
      rw [others separator member] at isSeparator_
      simp at isSeparator_
    · have split : ∀ rest, key ++ (before ++ separator :: rest) =
          (key ++ (before ++ [separator])) ++ rest := by simp
      rw [split]
      exact blanks _ _ (by simp) blanks'

/-- What is left unchanged in front of an introduction, and the introduction, is left in front of
what is put in the place of a secret. -/
theorem exists_more {kept rest front back : List Char} {last : Char}
    (same : kept ++ rest = front ++ back) (ends : kept.getLast? = some last)
    (other : last ∉ back) : ∃ more, front = kept ++ more ∧ rest = more ++ back := by
  rcases List.append_eq_append_iff.mp same with ⟨more, longer, rest_eq⟩ | ⟨extra, rfl, rfl⟩
  · exact ⟨more, longer, rest_eq⟩
  · cases extra with
    | nil => exact ⟨[], by simp, rfl⟩
    | cons first extra =>
      rw [List.getLast?_append, List.getLast?_cons] at ends
      have member : last ∈ first :: extra := by
        apply List.mem_of_getLast?
        rw [List.getLast?_cons]
        simpa using ends
      exact absurd (List.mem_append_left _ member) other

/-- A match that leaves an introduction as it is, from before it or from within it. -/
theorem exists_runs_of_enters {rule : Rule} {back : List Char} {pending : Pending}
    (introduces : kind.Introduces previous intro) (other : kind ≠ .urlPassword)
    (enters : Enters rule intro back pending) :
    ∃ kept last, rule.Runs kept back pending ∧ kept.getLast? = some last ∧
      intro.getLast? = some last ∧ last ∉ censor ++ ['@'] ∧
      ((∃ left, kept = left ++ intro) ∨ ∃ left, intro = left ++ kept) := by
  obtain ⟨last, ends, unlike⟩ := introduces.last other
  obtain ⟨left, kept, same, runs⟩ := enters
  refine ⟨kept, last, runs, ?_, ends, unlike, same.imp (⟨left, ·⟩) (⟨left, ·⟩)⟩
  rcases same with rfl | rfl
  · rw [List.getLast?_append, ends]
    rfl
  · rw [List.getLast?_append] at ends
    cases text : kept.getLast? with
    | none => exact absurd (List.getLast?_eq_none_iff.mp text) runs.1
    | some character => simpa [text] using ends

/-- Matches of the rule begin with such a character. -/
def Begins (rule : Rule) (first : Char → Bool) : Prop :=
  ∀ previous text length replaced, rule.find previous text = some (length, replaced) →
    ∃ character rest, text = character :: rest ∧ first character = true

theorem Begins.needs {rule : Rule} {first : Char → Bool} (begins : Begins rule first)
    (previous : Option Char) (text : List Char) (length : Nat) (replaced : List Char)
    (found : rule.find previous text = some (length, replaced)) :
    ∃ character ∈ text.take length, first character = true := by
  obtain ⟨character, rest, rfl, fits⟩ := begins _ _ _ _ found
  refine ⟨character, ?_, fits⟩
  cases length with
  | zero => exact absurd (Rule.length_pos_of_find found).1 (Nat.lt_irrefl 0)
  | succ length => exact List.mem_cons_self

/-- A form gives the first character of the matches. -/
theorem begins_of_follows {rule : Rule} {Form : Option Char → List Char → List Char → Prop}
    {fits first : Char → Bool} (follows : rule.Follows Form fits)
    (heads : ∀ previous word replaced, Form previous word replaced →
      ∃ character rest, word = character :: rest ∧ first character = true) :
    Begins rule first := by
  intro previous text length replaced found
  obtain ⟨word, behind, rfl, -, form, -⟩ := (follows _ _ _ _).mp found
  obtain ⟨character, rest, rfl, here⟩ := heads _ _ _ form
  exact ⟨character, rest ++ behind, rfl, here⟩

/-- No match begins inside what a match has left as it is, if the characters that matches begin with
are not there. -/
theorem quiet_of_begins {rule : Rule} {back : List Char} {pending : Pending} {first : Char → Bool}
    (begins : Begins rule first)
    (plain : ∀ kept, rule.Runs kept back pending → ∀ character ∈ kept.tail,
      first character = false) : rule.Quiet back pending := by
  rintro kept runs left right rfl left_ne right_ne previous back'
  obtain ⟨character, left, rfl⟩ := List.exists_cons_of_ne_nil left_ne
  obtain ⟨next, right, rfl⟩ := List.exists_cons_of_ne_nil right_ne
  have unfit := plain _ runs next (by simp)
  cases found : rule.find previous (next :: right ++ back') with
  | none => rfl
  | some result =>
    obtain ⟨length, replaced⟩ := result
    obtain ⟨_, _, same, fits⟩ := begins _ _ _ _ found
    obtain ⟨rfl, -⟩ := List.cons.inj same
    rw [unfit] at fits
    simp at fits

/-- The rule puts only characters of the match and of the censor in the place of a match. -/
def Redacts (rule : Rule) : Prop :=
  ∀ previous text length replaced, rule.find previous text = some (length, replaced) →
    replaced ≠ [] ∧ ∀ character ∈ replaced, character ∈ text.take length ∨ character ∈ censor

/-- Such a rule keeps what holds of all characters. -/
theorem Redacts.all {rule : Rule} (redacts : Redacts rule) {property : Char → Prop}
    {back text made : List Char} {pending : Pending}
    (blot : ∀ character ∈ censor, property character)
    (holds : ∀ character ∈ text, property character)
    (turns : rule.Turns back previous text made pending) :
    ∀ character ∈ made, property character := by
  refine turns.all (fun _ _ _ _ found all character member => ?_) holds
  rcases (redacts _ _ _ _ found).2 character member with old | new
  · exact all character old
  · exact blot character new

theorem Redacts.allows {rule : Rule} (redacts : Redacts rule) {back text made : List Char}
    {pending : Pending} (allows : SecretKind.bareAssignment.Allows text)
    (turns : rule.Turns back previous text made pending) :
    SecretKind.bareAssignment.Allows made :=
  ⟨turns.ne_nil (fun _ _ _ found => (redacts _ _ _ _ found).1 rfl) allows.1,
    redacts.all (by decide) allows.2 turns⟩

theorem bearer_ne_slash {scheme : List Char} (isScheme : scheme.map Char.toLower = "bearer".toList)
    {character : Char} (member : character ∈ scheme) : character ≠ '/' := by
  rintro rfl
  have small := @List.mem_map_of_mem _ _ _ _ Char.toLower member
  rw [isScheme] at small
  revert small
  decide

end

/-! ### Contents of strings -/

@[simp] theorem scanBody_censor (escaped : Bool) : scanBody escaped censor = some false := by
  cases escaped <;> rfl

/-- Outside an escape, characters other than quotes and backslashes change nothing. -/
theorem scanBody_plain {text : List Char}
    (plain : ∀ character ∈ text, character ≠ '"' ∧ character ≠ '\\') :
    scanBody false text = some false := by
  induction text with
  | nil => rfl
  | cons character text ih =>
    obtain ⟨⟨quote, escape⟩, rest⟩ := List.forall_mem_cons.mp plain
    rw [scanBody, if_neg quote, decide_eq_false escape]
    exact ih rest

/-- Replacements inside the content of a string leave the content of a string, if each leaves text
that ends outside an escape and no match ends in one before a quote or a backslash. -/
theorem isBody_of_turns {rule : Rule}
    (blots : ∀ previous text length replaced escaped later escaped',
      rule.find previous text = some (length, replaced) →
      scanBody escaped (text.take length) = some later →
      scanBody escaped' replaced = some false ∧ (later = true →
        ∀ character ∈ (text.drop length).head?, character ≠ '"' ∧ character ≠ '\\'))
    {back : List Char} {previous : Option Char} {front made : List Char} {pending : Pending}
    (turns : rule.Turns back previous front made pending) (isBody : IsBody front) :
    IsBody made := by
  have scans : ∀ escaped escaped', scanBody escaped front = some false →
      (escaped' = escaped ∨ (escaped = true ∧ escaped' = false ∧
        ∀ character ∈ front.head?, character ≠ '"' ∧ character ≠ '\\')) →
      scanBody escaped' made = some false := by
    clear isBody
    induction turns with
    | nil =>
      rintro escaped escaped' scanned (rfl | ⟨rfl, -, -⟩)
      · exact scanned
      · simp [scanBody] at scanned
    | @run previous kept pending nonempty =>
      rintro escaped escaped' scanned (rfl | ⟨rfl, rfl, soft⟩)
      · exact scanned
      · obtain ⟨character, rest, rfl⟩ := List.exists_cons_of_ne_nil nonempty
        obtain ⟨quote, escape⟩ := soft character rfl
        simp only [scanBody] at scanned ⊢
        split at scanned
        · rw [if_neg quote, decide_eq_false escape]
          exact scanned
        · simp at scanned
    | @keep previous character front made pending unmatched rest ih =>
      rintro escaped escaped' scanned (rfl | ⟨rfl, rfl, soft⟩)
      · cases escaped' with
        | false =>
          simp only [scanBody] at scanned ⊢
          split at scanned
          · simp at scanned
          · rename_i unquoted
            rw [if_neg unquoted]
            exact ih _ _ scanned (.inl rfl)
        | true =>
          simp only [scanBody] at scanned ⊢
          split at scanned
          · rename_i any
            rw [if_pos any]
            exact ih _ _ scanned (.inl rfl)
          · simp at scanned
      · obtain ⟨quote, escape⟩ := soft character rfl
        simp only [scanBody] at scanned ⊢
        split at scanned
        · rw [if_neg quote, decide_eq_false escape]
          exact ih _ _ scanned (.inl rfl)
        · simp at scanned
    | @replace previous word front replaced made pending nonempty matched rest ih =>
      intro escaped escaped' scanned _
      rw [scanBody_append] at scanned ⊢
      obtain ⟨later, read, scanned⟩ := Option.bind_eq_some_iff.mp scanned
      obtain ⟨blotted, soft⟩ := blots _ _ _ _ escaped later escaped' matched (by simpa using read)
      rw [blotted, Option.bind_some]
      cases later with
      | false => exact ih _ _ scanned (.inl rfl)
      | true =>
        refine ih _ _ scanned (.inr ⟨rfl, rfl, fun character first => soft rfl character ?_⟩)
        rw [List.drop_left, List.head?_append, first]
        rfl
  exact scans false false isBody (.inl rfl)

/-! ### URL passwords before other secrets -/

section UrlPassword
variable {kind : SecretKind} {previous : Option Char} {text word replaced : List Char}
  {length : Nat}

theorem slashes : "://".toList = [':', '/', '/'] := rfl

theorem not_slash_of_isKey {character : Char} (letter : isKey character = true)
    (_ : character.toLower ≠ 'b') : decide (character = '/') = false := by
  refine decide_eq_false ?_
  rintro rfl
  revert letter
  decide

theorem not_slash_of_isBlank {character : Char} (blank : isBlank character = true) :
    decide (character = '/') = false := by
  refine decide_eq_false ?_
  rintro rfl
  simp [isBlank] at blank

theorem exists_slash (found : urlPassword.find previous text = some (length, replaced)) :
    ∃ character ∈ text.take length, decide (character = '/') = true := by
  obtain ⟨form, -⟩ := urlPassword_follows.form found
  generalize text.take length = word at form
  cases form
  exact ⟨'/', List.mem_append_left _ (by decide), rfl⟩

theorem begins_urlPassword : Begins urlPassword (· = ':') :=
  begins_of_follows urlPassword_follows fun _ _ _ form => by
    cases form
    exact ⟨':', _, rfl, rfl⟩

theorem UrlForm.ends (form : UrlForm previous word replaced) :
    replaced.head? = word.head? ∧ replaced.getLast? = word.getLast? := by
  cases form
  refine ⟨rfl, ?_⟩
  simp only [List.getLast?_append, List.getLast?_cons]
  simp

theorem redacts_urlPassword : Redacts urlPassword := by
  intro previous text length replaced found
  obtain ⟨form, -⟩ := urlPassword_follows.form found
  generalize text.take length = word at form
  cases form
  refine ⟨by simp, fun character member => ?_⟩
  simp only [List.mem_append, List.mem_cons] at member ⊢
  tauto

theorem urlPassword_blots {escaped later escaped' : Bool}
    (found : urlPassword.find previous text = some (length, replaced))
    (read : scanBody escaped (text.take length) = some later) :
    scanBody escaped' replaced = some false ∧ (later = true →
      ∀ character ∈ (text.drop length).head?, character ≠ '"' ∧ character ≠ '\\') := by
  obtain ⟨form, -⟩ := urlPassword_follows.form found
  generalize text.take length = word at form read
  have begins : ∀ (escaped : Bool) (rest : List Char),
      scanBody escaped ("://".toList ++ rest) = scanBody false rest := by
    intro escaped rest
    cases escaped <;> rfl
  cases form with
  | @mk user password user_ne users password_ne passwords =>
    rw [begins, scanBody_append] at read ⊢
    obtain ⟨between, readUser, read⟩ := Option.bind_eq_some_iff.mp read
    have colon : ∀ rest, scanBody between (':' :: rest) = scanBody false rest := by
      intro rest
      cases between <;> rfl
    have last : ∀ escaped, scanBody escaped ['@'] = some false := by
      intro escaped
      cases escaped <;> rfl
    rw [colon, scanBody_append] at read
    obtain ⟨inside, -, read⟩ := Option.bind_eq_some_iff.mp read
    rw [last] at read
    rw [readUser, Option.bind_some, colon, scanBody_append, scanBody_censor, Option.bind_some, last]
    exact ⟨rfl, fun escape => absurd (Option.some.inj read) (by simp [escape])⟩

/-- A match that leaves its first characters as they are, and what is put in their place. -/
theorem exists_user_of_runs {kept back : List Char} {pending : Pending}
    (runs : urlPassword.Runs kept back pending) :
    ∃ user password, (∀ character ∈ user, isUser character = true) ∧
      kept ++ back.take pending.count =
        "://".toList ++ (user ++ [':']) ++ (password ++ ['@']) ∧
      kept ++ pending.replaced = "://".toList ++ (user ++ [':']) ++ (censor ++ ['@']) := by
  obtain ⟨-, previous, found⟩ := runs
  obtain ⟨form, -⟩ := urlPassword_follows.form found
  rw [List.take_length_add_append] at form
  generalize kept ++ back.take pending.count = word at form
  generalize kept ++ pending.replaced = replaced at form
  cases form with
  | @mk user password _ users => exact ⟨user, password, users, by simp, by simp⟩

/-- Before its end, the part of a URL up to its password has one colon, at its beginning. -/
theorem exists_colon_of_front {user kept rest : List Char}
    (users : ∀ character ∈ user, isUser character = true) (kept_ne : kept ≠ [])
    (rest_ne : rest ≠ []) (same : "://".toList ++ (user ++ [':']) = kept ++ rest) :
    ∃ more, kept = ':' :: more ∧ ':' ∉ more := by
  obtain ⟨first, more, rfl⟩ := List.exists_cons_of_ne_nil kept_ne
  rcases List.eq_nil_or_concat rest with rfl | ⟨front, last, rfl⟩
  · exact absurd rfl rest_ne
  · have joined : (':' :: '/' :: '/' :: user) ++ [':'] = (first :: (more ++ front)) ++ [last] := by
      simpa using same
    obtain ⟨fronts, -⟩ := List.append_inj' joined rfl
    obtain ⟨rfl, inside⟩ := List.cons.inj fronts
    refine ⟨more, rfl, fun member => ?_⟩
    have colon : ':' ∈ '/' :: '/' :: user := inside ▸ List.mem_append_left _ member
    simp only [List.mem_cons, Char.reduceEq, false_or] at colon
    exact absurd (users _ colon) (by decide)

/-- A URL that begins before a parameter or an assignment, and whose user name goes on in it, has its
password in the secret. -/
theorem urlPassword_enters {intro secret post made : List Char} {pending behind : Pending}
    {property : Char → Prop} {previous' : Option Char} (other : kind ≠ .urlPassword)
    (blot : ∀ character ∈ censor, property character)
    (introduces : kind.Introduces previous intro)
    (enters : Enters urlPassword intro (secret ++ post) pending)
    (le : pending.count ≤ secret.length)
    (turns : urlPassword.Turns post previous' (secret.drop pending.count) made behind)
    (holds : ∀ character ∈ secret, property character) :
    pending.replaced ≠ [] ∧ ∀ character ∈ pending.replaced ++ made, property character := by
  obtain ⟨kept, last, runs, ends, -, unlike, -⟩ := exists_runs_of_enters introduces other enters
  obtain ⟨user, password, -, word, made_eq⟩ := exists_user_of_runs runs
  obtain ⟨more, front, replaced⟩ := exists_more made_eq ends unlike
  rw [front, List.append_assoc] at word
  have taken := List.append_cancel_left word
  rw [List.take_append_of_le_length le] at taken
  have old : ∀ character ∈ more ++ (password ++ ['@']), property character :=
    fun character member => holds _ (List.mem_of_mem_take (taken ▸ member))
  simp only [List.forall_mem_append] at old
  refine ⟨by simp [replaced], List.forall_mem_append.mpr ⟨?_, redacts_urlPassword.all blot
    (fun _ member => holds _ (List.mem_of_mem_drop member)) turns⟩⟩
  rw [replaced]
  exact List.forall_mem_append.mpr ⟨old.1, List.forall_mem_append.mpr ⟨blot, old.2.2⟩⟩

/-- The user name of a URL does not go over the introduction of a token or a member. -/
theorem not_enters_urlPassword {intro back : List Char} {pending : Pending}
    (closed : kind = .bearerToken ∨ kind = .jsonMember)
    (introduces : kind.Introduces previous intro) : ¬ Enters urlPassword intro back pending := by
  intro enters
  have other : kind ≠ .urlPassword := by rcases closed with rfl | rfl <;> simp
  obtain ⟨kept, last, runs, ends, last_eq, unlike, sides⟩ :=
    exists_runs_of_enters introduces other enters
  obtain ⟨user, password, users, -, made_eq⟩ := exists_user_of_runs runs
  obtain ⟨more, front, -⟩ := exists_more made_eq ends unlike
  have inside : last ∈ "://".toList ++ (user ++ [':']) :=
    front ▸ List.mem_append_left _ (List.mem_of_getLast? ends)
  cases introduces with
  | url => exact absurd rfl other
  | query | bare => simp at closed
  | @bearer _ scheme blanks _ _ blanks_ne allBlank =>
    rw [List.getLast?_append, List.getLast?_eq_getLast_of_ne_nil blanks_ne] at last_eq
    obtain rfl := Option.some.inj last_eq
    have blank := allBlank _ (List.getLast_mem blanks_ne)
    have visible : ∀ character ∈ "://".toList ++ (user ++ [':']), isBlank character = false := by
      refine List.forall_mem_append.mpr ⟨by decide, List.forall_mem_append.mpr ⟨?_, by decide⟩⟩
      intro character member
      have fits := users character member
      simp only [isUser, Bool.and_eq_true, Bool.not_eq_true'] at fits
      exact fits.2
    rw [visible _ inside] at blank
    simp at blank
  | @json _ key before after isKeyWord blanks blanks' =>
    obtain rfl : '"' = last := by
      simpa [List.getLast?_cons, List.getLast?_append] using last_eq
    have more_ne : more ≠ [] := by
      rintro rfl
      rw [List.append_nil] at front
      rw [← front, List.getLast?_append] at ends
      simp at ends
    obtain ⟨rest, rfl, nowhere⟩ := exists_colon_of_front users runs.1 more_ne front
    rcases sides with ⟨left, same⟩ | ⟨left, same⟩
    · -- the colon of the member would be a second one before the password
      cases left with
      | nil => simp at same
      | cons first left =>
        obtain ⟨-, rfl⟩ := List.cons.inj same
        exact nowhere (by simp)
    · -- a slash would follow the colon of the member
      have slash : '/' ∈ ':' :: rest := by
        cases rest with
        | nil => simp at ends
        | cons second rest =>
          simp only [slashes, List.cons_append, List.cons.injEq] at front
          simp [← front.2.1]
      have introduced : SecretKind.jsonMember.Introduces none
          ('"' :: (key ++ '"' :: (before ++ ':' :: (after ++ ['"'])))) :=
        .json isKeyWord blanks blanks'
      have plain := introduced.plain ⟨nofun, nofun⟩ (@not_slash_of_isKey) (@not_slash_of_isBlank)
        (by decide) '/' (same ▸ List.mem_append_right _ slash)
      simp at plain

theorem harmless_urlPassword (other : kind ≠ .urlPassword) : Harmless urlPassword kind where
  isLocal := urlPassword_follows.isLocal
  introduction introduces turns := by
    refine turns.eq_self (fun _ _ _ _ => exists_slash) ?_
    by_cases bearer : kind = .bearerToken
    · subst bearer
      cases introduces with
      | bearer _ isScheme _ allBlank =>
        refine List.forall_mem_append.mpr ⟨fun _ member => decide_eq_false
          (bearer_ne_slash isScheme member), fun character member => decide_eq_false ?_⟩
        rintro rfl
        simpa [isBlank] using allBlank _ member
    · exact introduces.plain ⟨other, bearer⟩ (@not_slash_of_isKey) (@not_slash_of_isBlank)
        (by cases kind <;> decide)
  secret {back previous secret made pending} allows turns := by
    cases kind with
    | urlPassword => exact absurd rfl other
    | bearerToken =>
      have same : made = secret := by
        refine turns.eq_self begins_urlPassword.needs fun character member => decide_eq_false ?_
        rintro rfl
        exact absurd (allows.2 _ member) (by decide)
      exact same ▸ allows
    | queryValue => exact redacts_urlPassword.all (by decide) allows turns
    | jsonMember => exact isBody_of_turns (fun _ _ _ _ _ _ _ => urlPassword_blots) turns allows
    | bareAssignment => exact redacts_urlPassword.allows allows turns
  entered {previous previous' intro secret post made pending behind} introduces allows enters le
      turns := by
    cases kind with
    | urlPassword => exact absurd rfl other
    | bearerToken => exact absurd enters (not_enters_urlPassword (.inl rfl) introduces)
    | jsonMember => exact absurd enters (not_enters_urlPassword (.inr rfl) introduces)
    | queryValue =>
      exact (urlPassword_enters other (by decide) introduces enters le turns allows).2
    | bareAssignment =>
      have entered := urlPassword_enters other (by decide) introduces enters le turns allows.2
      exact ⟨by simp [entered.1], entered.2⟩
  quiet {previous intro back pending} introduces starts := by
    refine quiet_of_begins begins_urlPassword fun kept runs => ?_
    obtain ⟨rest, replaced⟩ := starts
    obtain ⟨user, password, users, -, made_eq⟩ := exists_user_of_runs runs
    obtain ⟨last, ends, unlike⟩ := introduces.last other
    have whole : (kept ++ intro).getLast? = some last := by
      rw [List.getLast?_append, ends]
      rfl
    rw [← replaced, ← List.append_assoc] at made_eq
    obtain ⟨more, front, -⟩ := exists_more made_eq whole unlike
    rw [List.append_assoc] at front
    have behind_ne : intro ++ more ≠ [] := by
      rintro none
      simp [(List.append_eq_nil_iff.mp none).1] at ends
    obtain ⟨tail, rfl, nowhere⟩ := exists_colon_of_front users runs.1 behind_ne front
    intro character member
    refine decide_eq_false ?_
    rintro rfl
    exact nowhere member
  alike _ _ _ := urlPassword_follows.find_eq
    (fun _ _ _ _ ⟨user_ne, users, password_ne, passwords⟩ =>
      ⟨user_ne, users, password_ne, passwords⟩) _ _ _
  head _ found := by
    obtain ⟨form, -⟩ := urlPassword_follows.form found
    have positive := (Rule.length_pos_of_find found).1
    rw [form.ends.1, List.head?_take, if_neg (by omega)]
  still introduces turns := introduces.previous (congrArg (Option.any isWord)
    (turns.getLast fun _ _ _ found => by
      obtain ⟨form, -⟩ := urlPassword_follows.form found
      rw [List.take_left] at form
      exact form.ends.2))

end UrlPassword

/-! ### Other replacements before members and assignments -/

section
variable {kind : SecretKind} {previous : Option Char} {text word replaced post : List Char}
  {length : Nat}

/-- Kinds of secrets that a name introduces. -/
def SecretKind.Named (kind : SecretKind) : Prop := kind ≠ .urlPassword ∧ kind ≠ .bearerToken

theorem not_isAlpha_of_isBlank {character : Char} (blank : isBlank character = true) :
    character.isAlpha = false := by
  have other := not_isKey_of_isBlank blank
  simp only [isKey, Bool.or_eq_false_iff] at other
  exact other.1.1

/-- What may follow a secret that a name introduces. -/
theorem ends_cons {character : Char} (named : kind.Named)
    (ends : kind.Ends (character :: post)) : character.isAlpha = false ∧
      (kind ≠ .queryValue → character ∉ ['?', '&']) ∧
      (kind = .bareAssignment → character ≠ '"') := by
  cases kind with
  | urlPassword => exact absurd rfl named.1
  | bearerToken => exact absurd rfl named.2
  | queryValue =>
    refine ⟨?_, fun other => absurd rfl other, nofun⟩
    have unfit : isValue character = false := ends character rfl
    simp only [isValue, Bool.and_eq_false_iff, bne_eq_false_iff_eq, Bool.not_eq_false'] at unfit
    rcases unfit with (rfl | rfl) | blank
    · rfl
    · rfl
    · exact not_isAlpha_of_isBlank blank
  | jsonMember =>
    obtain rfl : character = '"' := Option.some.inj ends
    decide
  | bareAssignment =>
    have unfit : isBare character = false := ends character rfl
    simp only [isBare, Bool.and_eq_false_iff, bne_eq_false_iff_eq, Bool.not_eq_false'] at unfit
    rcases unfit with (blank | rfl) | rfl
    · refine ⟨not_isAlpha_of_isBlank blank, fun _ mark => ?_, ?_⟩
      · rcases List.mem_cons.mp mark with rfl | other
        · simp [isBlank] at blank
        · rw [List.mem_singleton.mp other] at blank
          simp [isBlank] at blank
      · rintro - rfl
        simp [isBlank] at blank
    · decide
    · decide

/-- No match begins right behind a secret that a name introduces, if matches begin with a character
that may not follow it. -/
theorem find_eq_none {rule : Rule} {first : Char → Bool} (begins : Begins rule first)
    (unfit : ∀ character post, kind.Ends (character :: post) → first character = false)
    (ends : kind.Ends post) (previous : Option Char) : rule.find previous post = none := by
  cases found : rule.find previous post with
  | none => rfl
  | some result =>
    obtain ⟨length, replaced⟩ := result
    obtain ⟨character, rest, rfl, here⟩ := begins _ _ _ _ found
    rw [unfit _ _ ends] at here
    simp at here

theorem SecretKind.Introduces.any {intro : List Char} {previous' : Option Char}
    (introduces : kind.Introduces previous intro) (free : kind ≠ .bearerToken)
    (free' : kind ≠ .bareAssignment) : kind.Introduces previous' intro := by
  cases introduces with
  | url users => exact .url users
  | bearer => exact absurd rfl free
  | query isMark isKeyWord => exact .query isMark isKeyWord
  | json isKeyWord blanks blanks' => exact .json isKeyWord blanks blanks'
  | bare => exact absurd rfl free'

/-- Behind a match that stops only where a character does not fit, no name begins that would fit. -/
theorem still_of_fits {rule : Rule} {Form : Option Char → List Char → List Char → Prop}
    {fits : Char → Bool} (follows : rule.Follows Form fits)
    (letters : ∀ character : Char, character.isAlpha = true → fits character = true)
    (named : kind.Named) {pre intro back made : List Char}
    {pending : Pending} (introduces : kind.Introduces pre.getLast? intro)
    (turns : rule.Turns (intro ++ back) none pre made pending) :
    kind.Introduces made.getLast? intro := by
  by_cases bare : kind = .bareAssignment
  · subst bare
    refine introduces.previous (congrArg (Option.any isWord) (turns.getLast ?_))
    intro previous word replaced found
    obtain ⟨-, stops⟩ := follows.form found
    rw [List.drop_left] at stops
    cases introduces with
    | bare _ isKeyWord =>
      obtain ⟨first, rest, rfl, letter⟩ := exists_head_of_key (textKeys_subset isKeyWord)
      have unfit := stops first rfl
      rw [letters first letter] at unfit
      simp at unfit
  · exact introduces.any named.2 bare

theorem BearerForm.chars (form : BearerForm previous word replaced) :
    (∃ first rest, word = first :: rest ∧ first.toLower = 'b' ∧ first.isAlpha = true) ∧
      (∃ character ∈ word, isBlank character = true) ∧
      ∀ character ∈ word, character ≠ '"' ∧ character ≠ '\\' := by
  cases form with
  | @mk scheme blanks token apart isScheme blanks_ne allBlank token_ne tokens =>
    have letters : ∀ character ∈ scheme, character ≠ '"' ∧ character ≠ '\\' := by
      have small : ∀ character ∈ scheme, character.toLower ∈ "bearer".toList :=
        fun character member => isScheme ▸ List.mem_map_of_mem member
      refine fun character member => ⟨?_, ?_⟩ <;> rintro rfl <;>
        exact absurd (small _ member) (by decide)
    obtain ⟨first, rest, rfl, small, letter⟩ := exists_head_of_scheme isScheme
    obtain ⟨blank, more, rfl⟩ := List.exists_cons_of_ne_nil blanks_ne
    refine ⟨⟨first, _, rfl, small, letter⟩, ⟨blank, by simp, allBlank _ List.mem_cons_self⟩, ?_⟩
    refine List.forall_mem_append.mpr ⟨letters, List.forall_mem_append.mpr ⟨?_, ?_⟩⟩
    · refine fun character member => ⟨?_, ?_⟩ <;> rintro rfl <;>
        exact absurd (allBlank _ member) (by decide)
    · refine fun character member => ⟨?_, ?_⟩ <;> rintro rfl <;>
        exact absurd (tokens _ member) (by decide)

theorem begins_bearerToken : Begins bearerToken (·.toLower = 'b') :=
  begins_of_follows bearerToken_follows fun _ _ _ form => by
    obtain ⟨⟨first, rest, same, small, -⟩, -⟩ := form.chars
    exact ⟨first, rest, same, decide_eq_true small⟩

theorem BearerForm.replaced_eq (form : BearerForm previous word replaced) :
    replaced = "Bearer ".toList ++ censor := by
  cases form
  rfl

theorem bearerToken_blots {escaped later escaped' : Bool}
    (found : bearerToken.find previous text = some (length, replaced))
    (read : scanBody escaped (text.take length) = some later) :
    scanBody escaped' replaced = some false ∧ (later = true →
      ∀ character ∈ (text.drop length).head?, character ≠ '"' ∧ character ≠ '\\') := by
  obtain ⟨form, -⟩ := bearerToken_follows.form found
  have chars := form.chars
  have made := form.replaced_eq
  generalize text.take length = word at chars read
  obtain ⟨⟨first, rest, rfl, -, letter⟩, -, plain⟩ := chars
  have ended : later = false := by
    obtain ⟨⟨quote, escape⟩, plain⟩ := List.forall_mem_cons.mp plain
    cases escaped with
    | false =>
      rw [scanBody, if_neg quote, decide_eq_false escape, scanBody_plain plain] at read
      exact (Option.some.inj read).symm
    | true =>
      rw [scanBody] at read
      split at read
      · rw [scanBody_plain plain] at read
        exact (Option.some.inj read).symm
      · simp at read
  refine ⟨?_, fun escape => absurd (ended.symm.trans escape) (by simp)⟩
  rw [made]
  cases escaped' <;> rfl

theorem not_b_of_isBlank {character : Char} (blank : isBlank character = true) :
    character.toLower ≠ 'b' := by
  intro small
  have letter := isAlpha_of_toLower (small ▸ rfl : character.toLower.isLower = true)
  rw [not_isAlpha_of_isBlank blank] at letter
  simp at letter

theorem isToken_of_isAlpha {character : Char} (letter : character.isAlpha = true) :
    isToken character = true := by
  simp [isToken, Char.isAlphanum, letter]

/-- An introduction by a name has a mark that no replacement puts in the place of a secret. -/
theorem SecretKind.Introduces.exists_mark {intro : List Char} (named : kind.Named)
    (introduces : kind.Introduces previous intro) :
    ∃ mark ∈ intro, mark ∈ ['=', ':', '"'] := by
  cases introduces with
  | url => exact absurd rfl named.1
  | bearer => exact absurd rfl named.2
  | query => exact ⟨'=', by simp, by decide⟩
  | json => exact ⟨'"', by simp, by decide⟩
  | @bare _ _ _ _ separator _ _ _ isSeparator_ =>
    refine ⟨separator, by simp, ?_⟩
    rw [isSeparator, Bool.or_eq_true, decide_eq_true_eq, decide_eq_true_eq] at isSeparator_
    rcases isSeparator_ with rfl | rfl <;> decide

/-- A match of a bearer token that is pending has no introduction by a name in its place. -/
theorem not_infix_of_runs_bearerToken {left intro right kept back : List Char} {pending : Pending}
    (named : kind.Named) (introduces : kind.Introduces previous intro)
    (runs : bearerToken.Runs kept back pending) :
    kept ++ pending.replaced ≠ left ++ (intro ++ right) := by
  intro same
  obtain ⟨-, _, found⟩ := runs
  obtain ⟨form, -⟩ := bearerToken_follows.form found
  obtain ⟨mark, inside, special⟩ := introduces.exists_mark named
  have member : mark ∈ "Bearer ".toList ++ censor := by
    rw [← form.replaced_eq, same]
    exact List.mem_append_right _ (List.mem_append_left _ inside)
  exact (by decide : ∀ mark ∈ ['=', ':', '"'], mark ∉ "Bearer ".toList ++ censor) mark special
    member

theorem not_enters_bearerToken {intro back : List Char} {pending : Pending} (named : kind.Named)
    (introduces : kind.Introduces previous intro) : ¬ Enters bearerToken intro back pending := by
  rintro ⟨left, kept, rfl | rfl, runs⟩
  · exact not_infix_of_runs_bearerToken named introduces runs (List.append_assoc ..)
  · -- the introduction has no letter that the scheme could begin with
    obtain ⟨nonempty, _, found⟩ := runs
    obtain ⟨form, -⟩ := bearerToken_follows.form found
    obtain ⟨first, rest, rfl⟩ := List.exists_cons_of_ne_nil nonempty
    obtain rfl : first = 'B' := (List.cons.inj form.replaced_eq).1
    have plain := introduces.plain named (fun _ _ other => decide_eq_false other)
      (fun _ blank => decide_eq_false (not_b_of_isBlank blank)) (by cases kind <;> decide) 'B'
      (List.mem_append_right _ List.mem_cons_self)
    simp at plain

theorem find_bearerToken_of_ends (named : kind.Named) (ends : kind.Ends post)
    (previous : Option Char) : bearerToken.find previous post = none := by
  refine find_eq_none begins_bearerToken (fun character _ ends => decide_eq_false fun small => ?_)
    ends previous
  have letter := isAlpha_of_toLower (small ▸ rfl : character.toLower.isLower = true)
  rw [(ends_cons named ends).1] at letter
  simp at letter

theorem harmless_bearerToken (named : kind.Named) : Harmless bearerToken kind where
  isLocal := bearerToken_follows.isLocal
  introduction introduces turns := by
    refine turns.eq_self begins_bearerToken.needs (introduces.plain named ?_ ?_ ?_)
    · exact fun _ _ other => decide_eq_false other
    · exact fun _ blank => decide_eq_false (not_b_of_isBlank blank)
    · cases kind <;> decide
  secret {back previous secret made pending} allows turns := by
    have unchanged : (∀ character ∈ secret, isBlank character = false) → made = secret := by
      refine fun plain => turns.eq_self (fun _ _ _ _ found => ?_) plain
      obtain ⟨form, -⟩ := bearerToken_follows.form found
      exact form.chars.2.1
    cases kind with
    | urlPassword => exact absurd rfl named.1
    | bearerToken => exact absurd rfl named.2
    | queryValue =>
      refine (unchanged fun character member => ?_) ▸ allows
      have value := allows character member
      simp only [isValue, Bool.and_eq_true, Bool.not_eq_true'] at value
      exact value.2
    | jsonMember => exact isBody_of_turns (fun _ _ _ _ _ _ _ => bearerToken_blots) turns allows
    | bareAssignment =>
      exact (unchanged fun character member => not_isBlank_of_isBare (allows.2 _ member)) ▸ allows
  entered introduces _ enters := absurd enters (not_enters_bearerToken named introduces)
  quiet introduces starts := by
    intro kept runs
    obtain ⟨rest, replaced⟩ := starts
    exact absurd (congrArg (kept ++ ·) replaced.symm)
      (not_infix_of_runs_bearerToken named introduces runs)
  alike _ _ ends :=
    (find_bearerToken_of_ends named ends _).trans (find_bearerToken_of_ends named ends _).symm
  head ends found := by
    rw [find_bearerToken_of_ends named ends] at found
    simp at found
  still := still_of_fits bearerToken_follows (fun _ => isToken_of_isAlpha) named

theorem begins_queryValue : Begins queryValue (· ∈ ['?', '&']) :=
  begins_of_follows queryValue_follows fun _ _ _ form => by
    cases form with
    | mk isMark => exact ⟨_, _, rfl, decide_eq_true isMark⟩

theorem redacts_queryValue : Redacts queryValue := by
  intro previous text length replaced found
  obtain ⟨form, -⟩ := queryValue_follows.form found
  generalize text.take length = word at form
  cases form
  refine ⟨List.cons_ne_nil _ _, fun character member => ?_⟩
  simp only [List.mem_append, List.mem_cons] at member ⊢
  tauto

theorem queryValue_blots {escaped later escaped' : Bool}
    (found : queryValue.find previous text = some (length, replaced))
    (_ : scanBody escaped (text.take length) = some later) :
    scanBody escaped' replaced = some false ∧ (later = true →
      ∀ character ∈ (text.drop length).head?, character ≠ '"' ∧ character ≠ '\\') := by
  obtain ⟨form, stops⟩ := queryValue_follows.form found
  constructor
  · generalize text.take length = word at form
    cases form with
    | @mk mark key value isMark isKeyWord values =>
      have begins : ∀ rest, scanBody escaped' (mark :: rest) = scanBody false rest := by
        intro rest
        rcases List.mem_cons.mp isMark with rfl | other
        · cases escaped' <;> rfl
        · rw [List.mem_singleton.mp other]
          cases escaped' <;> rfl
      have name : scanBody false key = some false := by
        refine scanBody_plain fun character member => ⟨?_, ?_⟩ <;> rintro rfl <;>
          exact absurd (isKey_of_mem isKeyWord member).1 (by decide)
      rw [begins, scanBody_append, name, Option.bind_some]
      rfl
  · intro _ character first
    have unfit := stops character first
    refine ⟨?_, ?_⟩ <;> rintro rfl <;> exact absurd unfit (by decide)

theorem isValue_of_isAlpha {character : Char} (letter : character.isAlpha = true) :
    isValue character = true := by
  by_contra unfit
  simp only [isValue, Bool.not_eq_true, Bool.and_eq_false_iff, bne_eq_false_iff_eq,
    Bool.not_eq_false'] at unfit
  rcases unfit with (rfl | rfl) | blank
  · simp at letter
  · simp at letter
  · rw [not_isAlpha_of_isBlank blank] at letter
    simp at letter

/-- A match of a parameter that leaves its first characters as they are, and what is put in their
place. -/
theorem exists_key_of_runs {kept back : List Char} {pending : Pending}
    (runs : queryValue.Runs kept back pending) :
    ∃ mark key value, mark ∈ ['?', '&'] ∧ key.map Char.toLower ∈ queryKeys ∧
      kept ++ back.take pending.count = mark :: (key ++ ['=']) ++ value ∧
      kept ++ pending.replaced = mark :: (key ++ ['=']) ++ censor := by
  obtain ⟨-, _, found⟩ := runs
  obtain ⟨form, -⟩ := queryValue_follows.form found
  rw [List.take_length_add_append] at form
  generalize kept ++ back.take pending.count = word at form
  generalize kept ++ pending.replaced = replaced at form
  cases form with
  | @mk mark key value isMark isKeyWord =>
    exact ⟨mark, key, value, isMark, isKeyWord, by simp, by simp⟩

/-- The characters behind the mark of a parameter whose value has been redacted. -/
theorem parameter_plain {key : List Char} (isKeyWord : key.map Char.toLower ∈ queryKeys) :
    ∀ character ∈ key ++ ['='] ++ censor, character ∉ ['?', '&', '"'] := by
  refine List.forall_mem_append.mpr ⟨List.forall_mem_append.mpr ⟨?_, by decide⟩, by decide⟩
  intro character member special
  have letter := (isKey_of_mem isKeyWord member).1
  rw [(by decide : ∀ mark ∈ ['?', '&', '"'], isKey mark = false) character special] at letter
  simp at letter

/-- The introduction of a member or an assignment has no character that a parameter begins with. -/
theorem SecretKind.Introduces.without_mark {intro : List Char} (named : kind.Named)
    (other : kind ≠ .queryValue) (introduces : kind.Introduces previous intro) :
    ∀ character ∈ intro, decide (character ∈ ['?', '&']) = false := by
  refine introduces.plain named ?_ ?_ ?_
  · refine fun character letter _ => decide_eq_false fun mark => ?_
    revert letter
    exact (by decide : ∀ mark ∈ ['?', '&'], ¬isKey mark = true) _ mark
  · refine fun character blank => decide_eq_false fun mark => ?_
    revert blank
    exact (by decide : ∀ mark ∈ ['?', '&'], ¬isBlank mark = true) _ mark
  · cases kind with
    | queryValue => exact absurd rfl other
    | _ => decide

/-- Only the introduction of an assignment may stand in a parameter from before its value on. -/
theorem bareAssignment_of_runs_queryValue {left intro right kept back : List Char}
    {pending : Pending} (named : kind.Named) (other : kind ≠ .queryValue)
    (introduces : kind.Introduces previous intro) (runs : queryValue.Runs kept back pending)
    (same : kept ++ pending.replaced = left ++ (intro ++ right)) : kind = .bareAssignment := by
  obtain ⟨mark, key, value, isMark, isKeyWord, -, made_eq⟩ := exists_key_of_runs runs
  cases introduces with
  | url => exact absurd rfl named.1
  | bearer => exact absurd rfl named.2
  | query => exact absurd rfl other
  | bare => rfl
  | json =>
    have member : '"' ∈ mark :: (key ++ ['=']) ++ censor := by
      rw [← made_eq, same]
      simp
    rcases List.mem_cons.mp member with rfl | inside
    · simp at isMark
    · exact absurd (by decide) (parameter_plain isKeyWord '"' inside)

/-- An assignment that stands in a parameter has its value in the value of the parameter. -/
theorem queryValue_enters {intro secret post made : List Char} {pending behind : Pending}
    {previous' : Option Char} (named : kind.Named) (other : kind ≠ .queryValue)
    (introduces : kind.Introduces previous intro)
    (enters : Enters queryValue intro (secret ++ post) pending)
    (le : pending.count ≤ secret.length)
    (turns : queryValue.Turns post previous' (secret.drop pending.count) made behind)
    (allows : kind.Allows secret) : kind.Allows (pending.replaced ++ made) := by
  obtain ⟨kept, last, runs, ends, -, unlike, sides⟩ :=
    exists_runs_of_enters introduces named.1 enters
  obtain ⟨mark, key, value, isMark, isKeyWord, word, made_eq⟩ := exists_key_of_runs runs
  rcases sides with ⟨left, rfl⟩ | ⟨left, rfl⟩
  · obtain rfl := bareAssignment_of_runs_queryValue named other introduces runs
      (List.append_assoc ..)
    have unlike' : last ∉ censor := fun member => unlike (List.mem_append_left _ member)
    obtain ⟨more, front, replaced⟩ := exists_more made_eq ends unlike'
    rw [front, List.append_assoc (left ++ intro) more] at word
    have taken := List.append_cancel_left word
    rw [List.take_append_of_le_length le] at taken
    have old : ∀ character ∈ more, isBare character = true := fun character member =>
      allows.2 _ (List.mem_of_mem_take (taken ▸ List.mem_append_left _ member))
    have blot : ∀ character ∈ censor, isBare character = true := by decide
    have behind : ∀ character ∈ made, isBare character = true :=
      redacts_queryValue.all blot (fun _ member => allows.2 _ (List.mem_of_mem_drop member)) turns
    have some : pending.replaced ++ made ≠ [] := by
      rw [replaced, List.append_assoc]
      exact List.append_ne_nil_of_right_ne_nil _ (List.cons_ne_nil _ _)
    have front : ∀ character ∈ pending.replaced, isBare character = true := by
      rw [replaced]
      exact List.forall_mem_append.mpr ⟨old, blot⟩
    exact ⟨some, List.forall_mem_append.mpr ⟨front, behind⟩⟩
  · obtain ⟨first, rest, rfl⟩ := List.exists_cons_of_ne_nil runs.1
    obtain rfl : first = mark := (List.cons.inj made_eq).1
    have plain := introduces.without_mark named other first
      (List.mem_append_right _ List.mem_cons_self)
    exact absurd isMark (of_decide_eq_false plain)

theorem find_queryValue_of_ends (named : kind.Named) (other : kind ≠ .queryValue)
    (ends : kind.Ends post) (previous : Option Char) : queryValue.find previous post = none :=
  find_eq_none begins_queryValue
    (fun _ _ ends => decide_eq_false ((ends_cons named ends).2.1 other)) ends previous

theorem harmless_queryValue (named : kind.Named) (other : kind ≠ .queryValue) :
    Harmless queryValue kind where
  isLocal := queryValue_follows.isLocal
  introduction introduces turns :=
    turns.eq_self begins_queryValue.needs (introduces.without_mark named other)
  secret {back previous secret made pending} allows turns := by
    cases kind with
    | urlPassword => exact absurd rfl named.1
    | bearerToken => exact absurd rfl named.2
    | queryValue => exact absurd rfl other
    | jsonMember => exact isBody_of_turns (fun _ _ _ _ _ _ _ => queryValue_blots) turns allows
    | bareAssignment => exact redacts_queryValue.allows allows turns
  entered introduces allows enters le turns :=
    queryValue_enters named other introduces enters le turns allows
  quiet {previous intro back pending} introduces starts := by
    refine quiet_of_begins begins_queryValue fun kept runs => ?_
    obtain ⟨mark, key, value, isMark, isKeyWord, -, made_eq⟩ := exists_key_of_runs runs
    obtain ⟨first, rest, rfl⟩ := List.exists_cons_of_ne_nil runs.1
    have behind : rest ++ pending.replaced = key ++ ['='] ++ censor := (List.cons.inj made_eq).2
    intro character member
    have plain := parameter_plain isKeyWord character (behind ▸ List.mem_append_left _ member)
    refine decide_eq_false fun mark => plain ?_
    simp only [List.mem_cons, List.not_mem_nil, or_false] at mark ⊢
    tauto
  alike _ _ ends := (find_queryValue_of_ends named other ends _).trans
    (find_queryValue_of_ends named other ends _).symm
  head ends found := by
    rw [find_queryValue_of_ends named other ends] at found
    simp at found
  still := still_of_fits queryValue_follows (fun _ => isValue_of_isAlpha) named

theorem begins_jsonSensitiveMember : Begins jsonSensitiveMember (· = '"') :=
  begins_of_follows jsonSensitiveMember_follows fun _ _ _ form => by
    cases form
    exact ⟨'"', _, rfl, rfl⟩

theorem JsonForm.getLast (form : JsonForm previous word replaced) :
    replaced.getLast? = word.getLast? := by
  cases form
  simp [List.getLast?_cons, List.getLast?_append]

theorem redacts_jsonSensitiveMember : Redacts jsonSensitiveMember := by
  intro previous text length replaced found
  obtain ⟨form, -⟩ := jsonSensitiveMember_follows.form found
  generalize text.take length = word at form
  cases form
  refine ⟨List.cons_ne_nil _ _, fun character member => ?_⟩
  simp only [List.mem_append, List.mem_cons] at member ⊢
  tauto

/-- The introduction of an assignment has no quotes. -/
theorem SecretKind.Introduces.without_quote {intro : List Char}
    (introduces : SecretKind.bareAssignment.Introduces previous intro) :
    ∀ character ∈ intro, decide (character = '"') = false := by
  refine introduces.plain ⟨nofun, nofun⟩ ?_ ?_ (by decide)
  · refine fun character letter _ => decide_eq_false ?_
    rintro rfl
    exact absurd letter (by decide)
  · refine fun character blank => decide_eq_false ?_
    rintro rfl
    exact absurd blank (by decide)

/-- A match of a member that is pending, and what is put in its place. -/
theorem exists_member_of_runs {kept back : List Char} {pending : Pending}
    (runs : jsonSensitiveMember.Runs kept back pending) :
    ∃ key before after, key.map Char.toLower ∈ textKeys ∧
      (∀ character ∈ before, isBlank character = true) ∧
      (∀ character ∈ after, isBlank character = true) ∧
      kept ++ pending.replaced =
        '"' :: (key ++ '"' :: before) ++ ':' :: (after ++ '"' :: (censor ++ ['"'])) := by
  obtain ⟨-, _, found⟩ := runs
  obtain ⟨form, -⟩ := jsonSensitiveMember_follows.form found
  generalize (kept ++ back).take _ = word at form
  generalize kept ++ pending.replaced = replaced at form
  cases form with
  | @mk key before after body isKeyWord blanks blanks' =>
    exact ⟨key, before, after, isKeyWord, blanks, blanks', by simp⟩

/-- Texts that are divided at the only character of a kind. -/
theorem append_cons_unique {fits : Char → Bool} {left right left' right' : List Char}
    {character character' : Char} (same : left ++ character :: right = left' ++ character' :: right')
    (fit : fits character = true) (left_unfit : ∀ other ∈ left', fits other = false)
    (right_unfit : ∀ other ∈ right', fits other = false) :
    left = left' ∧ character = character' := by
  rcases List.append_eq_append_iff.mp same with ⟨middle, rfl, behind⟩ | ⟨middle, rfl, behind⟩
  · cases middle with
    | nil => exact ⟨(List.append_nil _).symm, (List.cons.inj behind).1⟩
    | cons first middle =>
      obtain ⟨rfl, -⟩ := List.cons.inj behind
      rw [left_unfit character (List.mem_append_right _ List.mem_cons_self)] at fit
      simp at fit
  · cases middle with
    | nil => exact ⟨List.append_nil _, (List.cons.inj behind).1.symm⟩
    | cons first middle =>
      have member : character ∈ right' := by
        rw [(List.cons.inj behind).2]
        exact List.mem_append_right _ List.mem_cons_self
      rw [right_unfit character member] at fit
      simp at fit

/-- The name in a member stands in quotes, and the name in front of an assignment does not. -/
theorem not_infix_of_runs_jsonSensitiveMember {left intro right kept back : List Char}
    {pending : Pending} (introduces : SecretKind.bareAssignment.Introduces previous intro)
    (runs : jsonSensitiveMember.Runs kept back pending) :
    kept ++ pending.replaced ≠ left ++ (intro ++ right) := by
  intro same
  obtain ⟨key', before', after', isKeyWord', blanks, blanks', made_eq⟩ := exists_member_of_runs runs
  cases introduces with
  | @bare _ key before after separator apart isKeyWord allBlank isSeparator_ allBlank' =>
    have divided : (left ++ (key ++ before)) ++ separator :: (after ++ right) =
        '"' :: (key' ++ '"' :: before') ++ ':' :: (after' ++ '"' :: (censor ++ ['"'])) := by
      rw [← made_eq, same]
      simp
    have quote : isSeparator '"' = false := by decide
    have blot : ∀ character ∈ censor ++ ['"'], isSeparator character = false := by decide
    obtain ⟨front, -⟩ := append_cons_unique divided isSeparator_
      (List.forall_mem_cons.mpr ⟨quote, List.forall_mem_append.mpr
        ⟨fun _ member => not_isSeparator_of_isKey
          (isKey_of_mem (textKeys_subset isKeyWord') member).1,
        List.forall_mem_cons.mpr
          ⟨quote, fun _ member => not_isSeparator_of_isBlank (blanks _ member)⟩⟩⟩)
      (List.forall_mem_append.mpr ⟨fun _ member => not_isSeparator_of_isBlank (blanks' _ member),
        List.forall_mem_cons.mpr ⟨quote, blot⟩⟩)
    -- read from the separator back, a letter comes first in one text and the quote in the other
    obtain ⟨letters, last, rfl⟩ : ∃ letters last, key = letters ++ [last] := by
      obtain ⟨first, rest, rfl, -⟩ := exists_head_of_key (textKeys_subset isKeyWord)
      exact ⟨_, _, (List.dropLast_append_getLast (List.cons_ne_nil first rest)).symm⟩
    have letter := (isKey_of_mem (textKeys_subset isKeyWord)
      (List.mem_append_right letters (List.mem_singleton_self last))).1
    have reversed : before.reverse ++ last :: (left ++ letters).reverse =
        before'.reverse ++ '"' :: ('"' :: key').reverse := by
      have turned := congrArg List.reverse front
      simpa using turned
    have visible : isBlank last = false := by
      by_contra blank
      rw [not_isKey_of_isBlank (Bool.not_eq_false _ ▸ blank)] at letter
      simp at letter
    obtain ⟨-, behind⟩ := append_unique reversed
      (fun _ member => allBlank _ (List.mem_reverse.mp member))
      (fun _ member => blanks _ (List.mem_reverse.mp member)) (stops_cons visible) (stops_cons rfl)
    obtain rfl : last = '"' := (List.cons.inj behind).1
    exact absurd letter (by decide)

theorem not_enters_jsonSensitiveMember {intro back : List Char} {pending : Pending}
    (introduces : SecretKind.bareAssignment.Introduces previous intro) :
    ¬ Enters jsonSensitiveMember intro back pending := by
  rintro ⟨left, kept, rfl | rfl, runs⟩
  · exact not_infix_of_runs_jsonSensitiveMember introduces runs (List.append_assoc ..)
  · obtain ⟨key, before, after, -, -, -, made_eq⟩ := exists_member_of_runs runs
    obtain ⟨first, rest, rfl⟩ := List.exists_cons_of_ne_nil runs.1
    obtain rfl : first = '"' := (List.cons.inj made_eq).1
    have plain := introduces.without_quote '"' (List.mem_append_right _ List.mem_cons_self)
    simp at plain

theorem find_jsonSensitiveMember_of_ends (ends : SecretKind.bareAssignment.Ends post)
    (previous : Option Char) : jsonSensitiveMember.find previous post = none := by
  have named : SecretKind.bareAssignment.Named := ⟨nofun, nofun⟩
  exact find_eq_none begins_jsonSensitiveMember
    (fun _ _ ends => decide_eq_false ((ends_cons named ends).2.2 rfl)) ends previous

theorem harmless_jsonSensitiveMember : Harmless jsonSensitiveMember .bareAssignment where
  isLocal := jsonSensitiveMember_follows.isLocal
  introduction introduces turns :=
    turns.eq_self begins_jsonSensitiveMember.needs introduces.without_quote
  secret allows turns := redacts_jsonSensitiveMember.allows allows turns
  entered introduces _ enters := absurd enters (not_enters_jsonSensitiveMember introduces)
  quiet introduces starts := by
    intro kept runs
    obtain ⟨rest, replaced⟩ := starts
    exact absurd (congrArg (kept ++ ·) replaced.symm)
      (not_infix_of_runs_jsonSensitiveMember introduces runs)
  alike _ _ ends :=
    (find_jsonSensitiveMember_of_ends ends _).trans (find_jsonSensitiveMember_of_ends ends _).symm
  head ends found := by
    rw [find_jsonSensitiveMember_of_ends ends] at found
    simp at found
  still introduces turns := introduces.previous (congrArg (Option.any isWord)
    (turns.getLast fun _ _ _ found => by
      obtain ⟨form, -⟩ := jsonSensitiveMember_follows.form found
      rw [List.take_left] at form
      exact form.getLast))

/-- Every replacement made before the secret's own is harmless to it. -/
theorem harmless_earlier (kind : SecretKind) : ∀ rule ∈ kind.earlier, Harmless rule kind := by
  cases kind with
  | urlPassword => exact nofun
  | bearerToken =>
    simp only [SecretKind.earlier, List.forall_mem_cons]
    exact ⟨harmless_urlPassword nofun, nofun⟩
  | queryValue =>
    simp only [SecretKind.earlier, List.forall_mem_cons]
    exact ⟨harmless_urlPassword nofun, harmless_bearerToken ⟨nofun, nofun⟩, nofun⟩
  | jsonMember =>
    simp only [SecretKind.earlier, List.forall_mem_cons]
    exact ⟨harmless_urlPassword nofun, harmless_bearerToken ⟨nofun, nofun⟩,
      harmless_queryValue ⟨nofun, nofun⟩ nofun, nofun⟩
  | bareAssignment =>
    simp only [SecretKind.earlier, List.forall_mem_cons]
    exact ⟨harmless_urlPassword nofun, harmless_bearerToken ⟨nofun, nofun⟩,
      harmless_queryValue ⟨nofun, nofun⟩ nofun, harmless_jsonSensitiveMember, nofun⟩

end

end NestjsFastify.LoggerRedact
