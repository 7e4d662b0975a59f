import NestjsFastify.RedactedForms

/-! # Secrets in texts

A secret stands behind the syntax that introduces it.  A replacement that is made before the
secret's own may change the text around it and the secret itself; as long as it changes nothing
across an end of the secret, what it leaves is again such a secret behind the same syntax.
-/
namespace NestjsFastify.LoggerRedact
open BacktrackingRegex TextReplacement
open Rule (Pending)
open ScriptText (isBlank)

/-! ### Secrets and what surrounds them -/

inductive SecretKind where
  | urlPassword
  | bearerToken
  | queryValue
  | jsonMember
  | bareAssignment
  deriving DecidableEq, Repr

/-- The replacement for secrets of the kind. -/
def SecretKind.rule : SecretKind → Rule
  | urlPassword => LoggerRedact.urlPassword
  | bearerToken => LoggerRedact.bearerToken
  | queryValue => LoggerRedact.queryValue
  | jsonMember => jsonSensitiveMember
  | bareAssignment => bareSensitiveAssignment

/-- The replacements made before it. -/
def SecretKind.earlier : SecretKind → List Rule
  | urlPassword => []
  | bearerToken => [LoggerRedact.urlPassword]
  | queryValue => [LoggerRedact.urlPassword, LoggerRedact.bearerToken]
  | jsonMember => [LoggerRedact.urlPassword, LoggerRedact.bearerToken, LoggerRedact.queryValue]
  | bareAssignment => [LoggerRedact.urlPassword, LoggerRedact.bearerToken, LoggerRedact.queryValue,
      jsonSensitiveMember]

/-- The replacements made after it. -/
def SecretKind.later : SecretKind → List Rule
  | urlPassword => [LoggerRedact.bearerToken, LoggerRedact.queryValue, jsonSensitiveMember,
      bareSensitiveAssignment, emailAddress]
  | bearerToken => [LoggerRedact.queryValue, jsonSensitiveMember, bareSensitiveAssignment,
      emailAddress]
  | queryValue => [jsonSensitiveMember, bareSensitiveAssignment, emailAddress]
  | jsonMember => [bareSensitiveAssignment, emailAddress]
  | bareAssignment => [emailAddress]

/-- The syntax in front of a secret, behind a character of the text. -/
inductive SecretKind.Introduces : SecretKind → Option Char → List Char → Prop
  | url {previous : Option Char} {user : List Char}
      (users : ∀ character ∈ user, isUser character = true ∧ character ≠ '@') :
      Introduces urlPassword previous ("://".toList ++ (user ++ [':']))
  | bearer {previous : Option Char} {scheme blanks : List Char}
      (apart : previous.any isWord = false) (isScheme : scheme.map Char.toLower = "bearer".toList)
      (blanks_ne : blanks ≠ []) (allBlank : ∀ character ∈ blanks, isBlank character = true) :
      Introduces bearerToken previous (scheme ++ blanks)
  | query {previous : Option Char} {mark : Char} {key : List Char} (isMark : mark ∈ ['?', '&'])
      (isKeyWord : key.map Char.toLower ∈ queryKeys) :
      Introduces queryValue previous (mark :: (key ++ ['=']))
  | json {previous : Option Char} {key before after : List Char}
      (isKeyWord : key.map Char.toLower ∈ textKeys)
      (blanks : ∀ character ∈ before, isBlank character = true)
      (blanks' : ∀ character ∈ after, isBlank character = true) :
      Introduces jsonMember previous
        ('"' :: (key ++ '"' :: (before ++ ':' :: (after ++ ['"']))))
  | bare {previous : Option Char} {key before after : List Char} {separator : Char}
      (apart : previous.any isWord = false) (isKeyWord : key.map Char.toLower ∈ textKeys)
      (blanks : ∀ character ∈ before, isBlank character = true)
      (isSeparator_ : isSeparator separator = true)
      (blanks' : ∀ character ∈ after, isBlank character = true) :
      Introduces bareAssignment previous (key ++ (before ++ separator :: after))

/-- The characters that the syntax allows for the secret. -/
def SecretKind.Allows (kind : SecretKind) (secret : List Char) : Prop :=
  match kind with
  | urlPassword => ∀ character ∈ secret, isPassword character = true
  | bearerToken => secret ≠ [] ∧ ∀ character ∈ secret, isToken character = true
  | queryValue => ∀ character ∈ secret, isValue character = true
  | jsonMember => IsBody secret
  | bareAssignment => secret ≠ [] ∧ ∀ character ∈ secret, isBare character = true

instance (kind : SecretKind) (secret : List Char) : Decidable (kind.Allows secret) :=
  match kind with
  | .urlPassword => inferInstanceAs (Decidable (∀ character ∈ secret, isPassword character = true))
  | .bearerToken =>
      inferInstanceAs (Decidable (secret ≠ [] ∧ ∀ character ∈ secret, isToken character = true))
  | .queryValue => inferInstanceAs (Decidable (∀ character ∈ secret, isValue character = true))
  | .jsonMember => inferInstanceAs (Decidable (IsBody secret))
  | .bareAssignment =>
      inferInstanceAs (Decidable (secret ≠ [] ∧ ∀ character ∈ secret, isBare character = true))

/-- What may follow the secret. -/
def SecretKind.Ends (kind : SecretKind) (post : List Char) : Prop :=
  match kind with
  | urlPassword => post.head? = some '@'
  | bearerToken => Stops isToken post
  | queryValue => Stops isValue post
  | jsonMember => post.head? = some '"'
  | bareAssignment => Stops isBare post

/-! ### One replacement around a secret -/

/-- A pending match that leaves a part of the text as it is, behind that part. -/
def keeping (part : List Char) (pending : Pending) : Option Pending :=
  if part.length ≤ pending.count ∧ part <+: pending.replaced then
    some ⟨pending.count - part.length, pending.replaced.drop part.length⟩
  else none

/-- What is pending behind the syntax that introduces a secret. -/
def pendingWithin (rule : Rule) (pre intro secret post : List Char) (before : Pending) :
    Option Pending :=
  if before.count = 0 then (rule.upTo (secret ++ post) 0 pre.getLast? intro).map Prod.snd
  else keeping intro before

/-- What a replacement makes of a secret, and what is pending behind it. -/
def partInside (rule : Rule) (pre intro secret post : List Char) (within : Pending) :
    Option (List Char × Pending) :=
  if within.count ≤ secret.length then
    (rule.upTo post 0 (pre ++ (intro ++ secret.take within.count)).getLast?
      (secret.drop within.count)).map (Prod.map (within.replaced ++ ·) id)
  else (keeping secret within).map ((secret, ·))

/-- What a replacement makes of the text before the syntax that introduces a secret and of the
secret, and what is pending behind the secret; nothing if it changes that syntax, the character
behind the secret, or text across an end of the secret. -/
def part (rule : Rule) (pre intro secret post : List Char) :
    Option (List Char × List Char × Pending) := do
  let (pre', before) ← rule.upTo (intro ++ (secret ++ post)) 0 none pre
  let within ← pendingWithin rule pre intro secret post before
  let (made, behind) ← partInside rule pre intro secret post within
  if behind.count = 0 ∨ behind.replaced.head? = post.head? then some (pre', made, behind) else none

/-- What a replacement makes of the text behind a secret. -/
def partBehind (rule : Rule) (pre intro secret post : List Char) (behind : Pending) : List Char :=
  behind.replaced ++ rule.pass 0 (pre ++ (intro ++ (secret ++ post.take behind.count))).getLast?
    (post.drop behind.count)

/-- A match that begins before the secret and takes it whole: what is in its place, with the text
before it, and how much it takes of the text behind the secret. -/
def taken (rule : Rule) (pre intro secret post : List Char) : Option (List Char × Nat) :=
  (rule.across (secret ++ post) 0 none (pre ++ intro)).bind fun (made, count) =>
    if secret.length ≤ count then some (made, count - secret.length) else none

/-- In both texts a match takes the secret, and the same is in its place. -/
def takenAlike (rule : Rule) (pre intro secret secret' post : List Char) : Bool :=
  (taken rule pre intro secret post).isSome &&
    taken rule pre intro secret post = taken rule pre intro secret' post

/-- A password in a URL has a user name in front of it and is not empty. -/
def SecretKind.filled (kind : SecretKind) (intro secret : List Char) : Bool :=
  kind != .urlPassword || (intro != "://:".toList && secret != [])

/-- A match of the kind's own replacement that runs into the syntax from before it hides the secret
as well. -/
def SecretKind.covers : SecretKind → Bool
  | urlPassword | queryValue => true
  | bearerToken | jsonMember | bareAssignment => false

/-- The secret's own replacement comes to the secret. -/
def SecretKind.reached (kind : SecretKind) (pre intro secret post : List Char) : Bool :=
  kind.filled intro secret &&
    (kind.covers || (kind.rule.upTo (intro ++ (secret ++ post)) 0 none pre).any (·.2.count = 0))

/-- Two texts that differ in a secret only come through the replacements of the list and the secret's
own.  Until the secrets have become the same, each replacement takes both with the text around them,
or changes nothing across an end of a secret or in the syntax before it and does the same behind
both; the secret's own comes to them. -/
def SecretKind.undisturbed (kind : SecretKind) (intro : List Char) :
    List Rule → List Char → List Char → List Char → List Char → Bool
  | [], pre, secret, secret', post =>
      secret = secret' || takenAlike kind.rule pre intro secret secret' post ||
        (kind.reached pre intro secret post && kind.reached pre intro secret' post)
  | rule :: rules, pre, secret, secret', post =>
      secret = secret' || takenAlike rule pre intro secret secret' post ||
        match part rule pre intro secret post, part rule pre intro secret' post with
        | some (pre', made, behind), some (_, made', behind') =>
            behind = behind' && kind.undisturbed intro rules pre' made made'
              (partBehind rule pre intro secret post behind)
        | _, _ => false

theorem sanitizeSensitiveText_eq (kind : SecretKind) (text : List Char) :
    sanitizeSensitiveText text = kind.later.foldl (fun text rule => rule.replaceAll text)
      (kind.rule.replaceAll (kind.earlier.foldl (fun text rule => rule.replaceAll text) text)) := by
  cases kind <;> rfl

/-! ### The parts that a replacement leaves -/

section
variable {rule : Rule} {kind : SecretKind} {pre intro secret secret' post pre' made : List Char}
  {behind : Pending}

theorem keeping_eq_some {text : List Char} {pending later : Pending} :
    keeping text pending = some later ↔
      pending = ⟨text.length + later.count, text ++ later.replaced⟩ := by
  obtain ⟨count, replaced⟩ := pending
  obtain ⟨more, rest⟩ := later
  simp only [keeping, Option.ite_none_right_eq_some, Option.some.injEq, Rule.Pending.mk.injEq]
  constructor
  · rintro ⟨⟨le, suffix, rfl⟩, rfl, rfl⟩
    rw [List.drop_left]
    exact ⟨(Nat.add_sub_cancel' le).symm, rfl⟩
  · rintro ⟨rfl, rfl⟩
    rw [List.drop_left, Nat.add_sub_cancel_left]
    exact ⟨⟨Nat.le_add_right _ _, rest, rfl⟩, rfl, rfl⟩

/-- How a replacement goes through the parts of a text: what is pending behind the text before the
introduction, behind the introduction, and behind the secret. -/
structure Parted (rule : Rule) (pre intro secret post pre' made : List Char)
    (before within behind : Pending) : Prop where
  front : rule.Turns (intro ++ (secret ++ post)) none pre pre' before
  middle : before.count = 0 ∧
      (∃ turned, rule.Turns (secret ++ post) pre.getLast? intro turned within) ∨
    0 < before.count ∧ before = ⟨intro.length + within.count, intro ++ within.replaced⟩
  inside : within.count ≤ secret.length ∧ (∃ turned, made = within.replaced ++ turned ∧
      rule.Turns post (pre ++ (intro ++ secret.take within.count)).getLast?
        (secret.drop within.count) turned behind) ∨
    made = secret ∧ 0 < behind.count ∧
      within = ⟨secret.length + behind.count, secret ++ behind.replaced⟩
  head : behind.count = 0 ∨ behind.replaced.head? = post.head?

theorem exists_parted (parts : part rule pre intro secret post = some (pre', made, behind)) :
    ∃ before within, Parted rule pre intro secret post pre' made before within behind := by
  simp only [part, Option.bind_eq_bind, Option.bind_eq_some_iff, Option.ite_none_right_eq_some,
    Option.some.injEq, Prod.mk.injEq, Prod.exists] at parts
  obtain ⟨pre', before, front, within, middle, made, behind, inside, head, rfl, rfl, rfl⟩ := parts
  refine ⟨before, within, Rule.turns_of_upTo front, ?_, ?_, head⟩
  · unfold pendingWithin at middle
    split at middle
    · rename_i none
      obtain ⟨⟨turned, later⟩, scanned, rfl⟩ := Option.map_eq_some_iff.mp middle
      exact .inl ⟨none, turned, Rule.turns_of_upTo scanned⟩
    · rename_i some
      exact .inr ⟨Nat.pos_of_ne_zero some, keeping_eq_some.mp middle⟩
  · unfold partInside at inside
    split at inside
    · rename_i within_le
      obtain ⟨⟨turned, later⟩, scanned, same⟩ := Option.map_eq_some_iff.mp inside
      obtain ⟨rfl, rfl⟩ := Prod.mk.inj same
      exact .inl ⟨within_le, turned, rfl, Rule.turns_of_upTo scanned⟩
    · rename_i long
      obtain ⟨later, kept, same⟩ := Option.map_eq_some_iff.mp inside
      obtain ⟨rfl, rfl⟩ := Prod.mk.inj same
      have ahead := keeping_eq_some.mp kept
      refine .inr ⟨rfl, ?_, ahead⟩
      simp only [ahead] at long
      omega

/-- What the replacement makes of the whole text. -/
theorem Parted.replaceAll {before within : Pending}
    (parted : Parted rule pre intro secret post pre' made before within behind)
    (stays : ∀ {turned}, rule.Turns (secret ++ post) pre.getLast? intro turned within →
      turned = intro) :
    rule.replaceAll (pre ++ (intro ++ (secret ++ post))) =
      pre' ++ (intro ++ (made ++ partBehind rule pre intro secret post behind)) := by
  have toSecret : rule.replaceAll (pre ++ (intro ++ (secret ++ post))) =
      pre' ++ (intro ++ (within.replaced ++
        rule.pass 0 (pre ++ (intro ++ (secret ++ post).take within.count)).getLast?
          ((secret ++ post).drop within.count))) := by
    rw [Rule.replaceAll, parted.front.pass, Option.or_none]
    rcases parted.middle with ⟨none, turned, turns⟩ | ⟨-, rfl⟩
    · obtain rfl := parted.front.pending_eq none
      have same := stays turns
      subst same
      simp only [List.nil_append, List.take_zero, List.append_nil, List.drop_zero, turns.pass]
      rw [@List.getLast?_append _ pre]
    · simp only [List.append_assoc, List.take_length_add_append, List.drop_length_add_append]
  rw [toSecret]
  refine congrArg (fun rest => pre' ++ (intro ++ rest)) ?_
  unfold partBehind
  rcases parted.inside with ⟨le, turned, rfl, turns⟩ | ⟨rfl, -, rfl⟩
  · rw [List.drop_append_of_le_length le, List.take_append_of_le_length le, turns.pass]
    have joined : pre ++ (intro ++ (secret ++ post.take behind.count)) =
        pre ++ (intro ++ secret.take within.count) ++
          (secret.drop within.count ++ post.take behind.count) := by
      simp only [List.append_assoc]
      rw [← List.append_assoc (secret.take within.count), List.take_append_drop]
    rw [joined, @List.getLast?_append _ (pre ++ (intro ++ secret.take within.count)),
      List.append_assoc]
  · simp only [List.append_assoc, List.take_length_add_append, List.drop_length_add_append]

/-- Behind matches of two texts that take the secret in the same way, the texts are the same. -/
theorem replaceAll_of_takenAlike
    (alike : ∀ previous previous', rule.find previous post = rule.find previous' post)
    (taken : takenAlike rule pre intro secret secret' post = true) :
    rule.replaceAll (pre ++ (intro ++ (secret ++ post))) =
      rule.replaceAll (pre ++ (intro ++ (secret' ++ post))) := by
  have takes : ∀ {secret result}, LoggerRedact.taken rule pre intro secret post = some result →
      rule.replaceAll (pre ++ (intro ++ (secret ++ post))) =
        result.1 ++ rule.pass 0 (pre ++ intro ++ secret ++ post.take result.2).getLast?
          (post.drop result.2) := by
    intro secret result found
    obtain ⟨⟨made, count⟩, across, same⟩ := Option.bind_eq_some_iff.mp found
    obtain ⟨le, same⟩ := Option.ite_none_right_eq_some.mp same
    obtain rfl := Option.some.inj same
    have whole : count = secret.length + (count - secret.length) := by omega
    rw [Rule.replaceAll, ← List.append_assoc, Rule.pass_of_across across, Option.or_none, whole,
      List.take_length_add_append, List.drop_length_add_append, Nat.add_sub_cancel_left,
      ← List.append_assoc]
  simp only [takenAlike, Bool.and_eq_true, decide_eq_true_eq] at taken
  obtain ⟨some, same⟩ := taken
  obtain ⟨result, found⟩ := Option.isSome_iff_exists.mp some
  rw [takes found, takes (same.symm.trans found)]
  exact congrArg _ (Rule.pass_behind alike _ _ _)

/-! ### Replacements before the secret's own -/

/-- A match that goes on in the secret, and leaves the introduction as it is. -/
def Enters (rule : Rule) (intro back : List Char) (pending : Pending) : Prop :=
  ∃ left kept, (kept = left ++ intro ∨ intro = left ++ kept) ∧ rule.Runs kept back pending

/-- What a replacement does to the parts around a secret of the kind where it changes nothing across
an end of them. -/
structure Harmless (rule : Rule) (kind : SecretKind) : Prop where
  isLocal : rule.Local
  introduction : ∀ {back previous intro made pending}, kind.Introduces previous intro →
    rule.Turns back previous intro made pending → made = intro
  secret : ∀ {back previous secret made pending}, kind.Allows secret →
    rule.Turns back previous secret made pending → kind.Allows made
  entered : ∀ {previous previous' intro secret post made pending behind},
    kind.Introduces previous intro → kind.Allows secret → Enters rule intro (secret ++ post) pending →
    pending.count ≤ secret.length →
    rule.Turns post previous' (secret.drop pending.count) made behind →
    kind.Allows (pending.replaced ++ made)
  quiet : ∀ {previous intro back pending}, kind.Introduces previous intro →
    intro <+: pending.replaced → rule.Quiet (intro ++ back) pending
  alike : ∀ {post} previous previous', kind.Ends post →
    rule.find previous post = rule.find previous' post
  head : ∀ {previous post length replaced}, kind.Ends post →
    rule.find previous post = some (length, replaced) → replaced.head? = post.head?
  still : ∀ {pre intro back made pending}, kind.Introduces pre.getLast? intro →
    rule.Turns (intro ++ back) none pre made pending → kind.Introduces made.getLast? intro

theorem SecretKind.Introduces.exists_head {previous : Option Char}
    (introduces : kind.Introduces previous intro) : ∃ first rest, intro = first :: rest := by
  cases introduces with
  | url => exact ⟨_, _, rfl⟩
  | bearer _ isScheme =>
    obtain ⟨first, rest, rfl, -⟩ := exists_head_of_scheme isScheme
    exact ⟨_, _, rfl⟩
  | query => exact ⟨_, _, rfl⟩
  | json => exact ⟨_, _, rfl⟩
  | bare _ isKeyWord =>
    obtain ⟨first, rest, rfl, -⟩ := exists_head_of_key (textKeys_subset isKeyWord)
    exact ⟨_, _, rfl⟩

theorem SecretKind.Introduces.previous {previous previous' : Option Char}
    (introduces : kind.Introduces previous intro)
    (same : previous'.any isWord = previous.any isWord) : kind.Introduces previous' intro := by
  cases introduces with
  | url users => exact .url users
  | bearer apart isScheme blanks_ne allBlank =>
    exact .bearer (same.trans apart) isScheme blanks_ne allBlank
  | query isMark isKeyWord => exact .query isMark isKeyWord
  | json isKeyWord blanks blanks' => exact .json isKeyWord blanks blanks'
  | bare apart isKeyWord blanks isSeparator_ blanks' =>
    exact .bare (same.trans apart) isKeyWord blanks isSeparator_ blanks'

/-- What follows a secret still does if its first character stays. -/
theorem SecretKind.Ends.head {post post' : List Char} (ends : kind.Ends post)
    (same : post'.head? = post.head?) : kind.Ends post' := by
  cases kind <;> simpa only [SecretKind.Ends, Stops, same] using ends

/-- A replacement around a secret leaves a secret of the same kind. -/
theorem Harmless.allows (harmless : Harmless rule kind)
    (introduces : kind.Introduces pre.getLast? intro) (allows : kind.Allows secret)
    {before within : Pending}
    (parted : Parted rule pre intro secret post pre' made before within behind) :
    kind.Allows made := by
  rcases parted.inside with ⟨le, turned, rfl, turns⟩ | ⟨rfl, -, -⟩
  · by_cases entered : Enters rule intro (secret ++ post) within
    · exact harmless.entered introduces allows entered le turns
    · -- no match goes on in the secret: its own scan begins at its first character
      obtain rfl : within = {} := by
        rcases parted.middle with ⟨-, whole, turns⟩ | ⟨positive, rfl⟩
        · refine turns.pending_eq (Nat.eq_zero_of_not_pos fun positive => entered ?_)
          obtain ⟨left, kept, same, runs⟩ := turns.exists_runs positive
          exact ⟨left, kept, .inr same, runs⟩
        · obtain ⟨left, kept, -, some, previous, matched⟩ := parted.front.exists_runs positive
          refine absurd ⟨kept, kept ++ intro, .inl rfl, by simp [some], previous, ?_⟩ entered
          rw [List.append_assoc, List.length_append, Nat.add_assoc, List.append_assoc]
          exact matched
      exact harmless.secret allows turns
  · exact allows

/-- What a replacement leaves behind a secret still ends it. -/
theorem Harmless.ends (harmless : Harmless rule kind) (ends : kind.Ends post)
    {before within : Pending}
    (parted : Parted rule pre intro secret post pre' made before within behind) :
    kind.Ends (partBehind rule pre intro secret post behind) := by
  refine ends.head ?_
  unfold partBehind
  rcases Nat.eq_zero_or_pos behind.count with none | positive
  · obtain rfl : behind = {} := by
      rcases parted.inside with ⟨-, turned, -, turns⟩ | ⟨-, positive, -⟩
      · exact turns.pending_eq none
      · omega
    exact Rule.head_pass fun _ _ => harmless.head ends
  · have same := parted.head.resolve_left positive.ne'
    cases post with
    | nil =>
      rw [List.head?_nil, List.head?_eq_none_iff] at same
      simp [same, Rule.pass]
    | cons character post =>
      cases text : behind.replaced with
      | nil => simp [text] at same
      | cons first rest => simpa [text] using same

/-- A replacement of two texts that differ in a secret leaves two such texts, if it does the same
behind the secret. -/
theorem Harmless.step (harmless : Harmless rule kind)
    (introduces : kind.Introduces pre.getLast? intro) (ends : kind.Ends post)
    (allows : kind.Allows secret) (allows' : kind.Allows secret') {pre'' made' : List Char}
    (parts : part rule pre intro secret post = some (pre', made, behind))
    (parts' : part rule pre intro secret' post = some (pre'', made', behind)) :
    kind.Introduces pre'.getLast? intro ∧ kind.Allows made ∧ kind.Allows made' ∧
      kind.Ends (partBehind rule pre intro secret post behind) ∧
      rule.replaceAll (pre ++ (intro ++ (secret ++ post))) =
        pre' ++ (intro ++ (made ++ partBehind rule pre intro secret post behind)) ∧
      rule.replaceAll (pre ++ (intro ++ (secret' ++ post))) =
        pre' ++ (intro ++ (made' ++ partBehind rule pre intro secret post behind)) := by
  obtain ⟨before, within, parted⟩ := exists_parted parts
  obtain ⟨before', within', parted'⟩ := exists_parted parts'
  obtain ⟨first, rest, intro_eq⟩ := introduces.exists_head
  have heads : (intro ++ (secret ++ post)).head? = (intro ++ (secret' ++ post)).head? := by
    rw [intro_eq]
    rfl
  have quiet : ∀ {secret made pre' before within behind},
      Parted rule pre intro secret post pre' made before within behind →
        0 < before.count → rule.Quiet (intro ++ (secret ++ post)) before := by
    intro secret made pre' before within behind parted positive
    rcases parted.middle with ⟨none, -⟩ | ⟨-, rfl⟩
    · omega
    · exact harmless.quiet introduces (List.prefix_append _ _)
  obtain rfl := parted.front.agree harmless.isLocal heads parted'.front (quiet parted)
    (quiet parted')
  have around : partBehind rule pre intro secret' post behind =
      partBehind rule pre intro secret post behind := by
    unfold partBehind
    simp only [← List.append_assoc pre, ← List.append_assoc (pre ++ intro)]
    exact congrArg _ (Rule.pass_behind (fun _ _ => harmless.alike _ _ ends) _ _ _)
  refine ⟨harmless.still introduces parted.front, harmless.allows introduces allows parted,
    harmless.allows introduces allows' parted', harmless.ends ends parted,
    parted.replaceAll (harmless.introduction introduces), ?_⟩
  rw [← around]
  exact parted'.replaceAll (harmless.introduction introduces)

end

end NestjsFastify.LoggerRedact
