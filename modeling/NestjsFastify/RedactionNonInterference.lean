import NestjsFastify.HarmlessReplacements

/-! # Texts that differ in a secret only

The replacements before the secret's own treat two texts that differ in a secret only alike around
it, where they change nothing across an end of the secret; its own replacement then hides it.
-/
namespace NestjsFastify.LoggerRedact
open BacktrackingRegex TextReplacement
open ScriptText (isBlank)

/-! ### The secret's own replacement -/

theorem begins_bareSensitiveAssignment : Begins bareSensitiveAssignment Char.isAlpha :=
  begins_of_follows bareSensitiveAssignment_follows fun _ _ _ form => by
    cases form with
    | mk _ isKeyWord =>
      obtain ⟨first, rest, rfl, letter⟩ := exists_head_of_key (textKeys_subset isKeyWord)
      exact ⟨first, _, rfl, letter⟩

section
variable {kind : SecretKind} {previous : Option Char} {pre intro secret secret' post : List Char}

theorem filled_urlPassword (filled : SecretKind.urlPassword.filled intro secret = true) :
    intro ≠ "://:".toList ∧ secret ≠ [] := by
  simpa [SecretKind.filled] using filled

/-- Matches of a URL or of a parameter do not depend on what precedes. -/
theorem find_of_covers (covers : kind.covers = true) (previous previous' : Option Char)
    (text : List Char) : kind.rule.find previous text = kind.rule.find previous' text := by
  cases kind with
  | urlPassword =>
    exact urlPassword_follows.find_eq (fun _ _ _ _ ⟨user_ne, users, password_ne, passwords⟩ =>
      ⟨user_ne, users, password_ne, passwords⟩) _ _ _
  | queryValue =>
    exact queryValue_follows.find_eq (fun _ _ _ _ ⟨isMark, isKeyWord, values⟩ =>
      ⟨isMark, isKeyWord, values⟩) _ _ _
  | _ => simp [SecretKind.covers] at covers

/-- Behind a secret, its own replacement does not depend on what precedes. -/
theorem find_own (ends : kind.Ends post) (previous previous' : Option Char) :
    kind.rule.find previous post = kind.rule.find previous' post := by
  cases kind with
  | urlPassword => exact @find_of_covers .urlPassword rfl _ _ _
  | bearerToken =>
    have none : ∀ previous, bearerToken.find previous post = none := by
      refine find_eq_none begins_bearerToken (fun first rest ends => ?_) ends
      refine decide_eq_false fun small => ?_
      have letter := isAlpha_of_toLower (small ▸ rfl : first.toLower.isLower = true)
      have unfit : isToken first = false := ends first rfl
      rw [isToken_of_isAlpha letter] at unfit
      simp at unfit
    exact (none _).trans (none _).symm
  | queryValue => exact @find_of_covers .queryValue rfl _ _ _
  | jsonMember =>
    exact jsonSensitiveMember_follows.find_eq
      (fun _ _ _ _ ⟨isKeyWord, blanks, blanks', isBody⟩ =>
        ⟨isKeyWord, blanks, blanks', isBody⟩) _ _ _
  | bareAssignment =>
    have named : SecretKind.bareAssignment.Named := ⟨nofun, nofun⟩
    have none := @find_eq_none .bareAssignment _ _ _ begins_bareSensitiveAssignment
      (fun _ _ ends => (ends_cons named ends).1) ends
    exact (none _).trans (none _).symm

/-- Where the scan comes to the introduction of a secret, the replacement hides the secret. -/
theorem pass_own (introduces : kind.Introduces previous intro) (ends : kind.Ends post) :
    ∃ hidden, ∀ secret, kind.Allows secret → kind.filled intro secret = true →
      kind.rule.pass 0 previous (intro ++ (secret ++ post)) = hidden := by
  cases introduces with
  | @url previous user users =>
    obtain ⟨rest, rfl⟩ := List.head?_eq_some_iff.mp ends
    refine ⟨"://".toList ++ (user ++ ':' :: (censor ++ ['@'])) ++
      urlPassword.pass 0 (some '@') rest, fun secret allows filled => ?_⟩
    have user_ne : user ≠ [] := by
      rintro rfl
      exact (filled_urlPassword filled).1 rfl
    have form := @UrlForm.mk previous user secret user_ne (fun _ member => (users _ member).1)
      (filled_urlPassword filled).2 allows
    have found := @Rule.Follows.find _ _ _ _ _ _ urlPassword_follows rest form fun _ _ => rfl
    have divided : "://".toList ++ (user ++ [':']) ++ (secret ++ '@' :: rest) =
        "://".toList ++ (user ++ ':' :: (secret ++ ['@'])) ++ rest := by simp
    rw [divided]
    refine (Rule.pass_of_find (by simp) found).trans ?_
    simp [List.getLast?_append, List.getLast?_cons]
  | @bearer previous scheme blanks apart isScheme blanks_ne allBlank =>
    refine ⟨"Bearer ".toList ++ censor ++ bearerToken.pass 0 none post,
      fun secret allows _ => ?_⟩
    have form := BearerForm.mk apart isScheme blanks_ne allBlank allows.1 allows.2
    have found := bearerToken_follows.find form ends
    rw [List.append_assoc, ← List.append_assoc blanks, ← List.append_assoc scheme]
    refine (Rule.pass_of_find (by simp [allows.1]) found).trans ?_
    exact congrArg _ (Rule.pass_previous (find_own ends _ _))
  | @query previous mark key isMark isKeyWord =>
    refine ⟨mark :: (key ++ '=' :: censor) ++ queryValue.pass 0 none post,
      fun secret allows _ => ?_⟩
    have form := @QueryForm.mk previous _ _ _ isMark isKeyWord allows
    have found := queryValue_follows.find form ends
    have divided : mark :: (key ++ ['=']) ++ (secret ++ post) =
        mark :: (key ++ '=' :: secret) ++ post := by simp
    rw [divided]
    refine (Rule.pass_of_find (List.cons_ne_nil _ _) found).trans ?_
    exact congrArg _ (Rule.pass_previous (find_own ends _ _))
  | @json previous key before after isKeyWord blanks blanks' =>
    obtain ⟨rest, rfl⟩ := List.head?_eq_some_iff.mp ends
    refine ⟨'"' :: (key ++ '"' :: (before ++ ':' :: (after ++ '"' :: (censor ++ ['"'])))) ++
      jsonSensitiveMember.pass 0 (some '"') rest, fun secret allows _ => ?_⟩
    have form := @JsonForm.mk previous _ _ _ _ isKeyWord blanks blanks' allows
    have found := @Rule.Follows.find _ _ _ _ _ _ jsonSensitiveMember_follows rest form
      fun _ _ => rfl
    have divided : '"' :: (key ++ '"' :: (before ++ ':' :: (after ++ ['"']))) ++
        (secret ++ '"' :: rest) =
        '"' :: (key ++ '"' :: (before ++ ':' :: (after ++ '"' :: (secret ++ ['"'])))) ++ rest := by
      simp
    rw [divided]
    refine (Rule.pass_of_find (List.cons_ne_nil _ _) found).trans ?_
    simp [List.getLast?_append, List.getLast?_cons]
  | @bare previous key before after separator apart isKeyWord blanks isSeparator_ blanks' =>
    refine ⟨key ++ (before ++ separator :: censor) ++ bareSensitiveAssignment.pass 0 none post,
      fun secret allows _ => ?_⟩
    have form := BareForm.mk apart isKeyWord blanks isSeparator_ blanks' allows.1 allows.2
    have found := bareSensitiveAssignment_follows.find form ends
    have divided : key ++ (before ++ separator :: after) ++ (secret ++ post) =
        key ++ (before ++ separator :: (after ++ secret)) ++ post := by simp
    rw [divided]
    refine (Rule.pass_of_find (by simp) found).trans ?_
    exact congrArg _ (Rule.pass_previous (find_own ends _ _))

end

/-! ### Matches that run into an introduction -/

section
variable {previous : Option Char} {front secret secret' post rest replaced user key : List Char}
  {mark : Char} {length : Nat}

/-- What the scan has read of a URL when a secret's introduction begins in its password. -/
structure UrlCovering (front user₀ more : List Char) : Prop where
  user_ne : user₀ ≠ []
  users : ∀ character ∈ user₀, isUser character = true
  passwords : ∀ character ∈ more, isPassword character = true
  reads : front ++ "://".toList = "://".toList ++ (user₀ ++ ':' :: more)

/-- A text that ends with a character it has nowhere else. -/
theorem eq_nil_of_last {left right text : List Char} {character : Char}
    (same : left ++ character :: right = text ++ [character]) (nowhere : character ∉ text) :
    right = [] := by
  rcases List.append_eq_append_iff.mp same with ⟨middle, rfl, last⟩ | ⟨middle, rfl, last⟩
  · cases middle with
    | nil => exact (List.cons.inj last).2
    | cons first middle =>
      obtain ⟨rfl, -⟩ := List.cons.inj last
      exact absurd (List.mem_append_right left List.mem_cons_self) nowhere
  · cases middle with
    | nil => exact (List.cons.inj last).2.symm
    | cons first middle => simp at last

/-- The scan goes past the beginning of a URL only inside the password of another. -/
theorem exists_urlCovering (nonempty : front ≠ [])
    (found : urlPassword.find previous (front ++ ("://".toList ++ rest)) = some (length, replaced))
    (longer : front.length < length) : ∃ user₀ more, UrlCovering front user₀ more := by
  obtain ⟨word, after, divided, rfl, form, -⟩ := (urlPassword_follows _ _ _ _).mp found
  cases form with
  | @mk user₀ password user_ne users password_ne passwords =>
    have split : (front ++ "://".toList) ++ rest =
        ("://".toList ++ (user₀ ++ [':'])) ++ (password ++ '@' :: after) := by
      simpa using divided
    rcases List.append_eq_append_iff.mp split with ⟨more, kept, -⟩ | ⟨more, kept, behind⟩
    · -- the user name would run over a colon
      exfalso
      obtain ⟨first, front, rfl⟩ := List.exists_cons_of_ne_nil nonempty
      rw [slashes] at kept
      have tail : front ++ ':' :: ('/' :: '/' :: more) = '/' :: '/' :: user₀ ++ [':'] := by
        simpa using (List.cons.inj kept.symm).2
      have nowhere : ':' ∉ '/' :: '/' :: user₀ := by
        simp only [List.mem_cons, not_or]
        exact ⟨by decide, by decide, fun member => absurd (users _ member) (by decide)⟩
      exact absurd (eq_nil_of_last tail nowhere) (by simp)
    · refine ⟨user₀, more, user_ne, users, ?_, by simpa using kept⟩
      rcases List.append_eq_append_iff.mp behind with ⟨inside, same, last⟩ | ⟨inside, same, -⟩
      · cases inside with
        | nil =>
          rw [List.append_nil] at same
          exact same ▸ passwords
        | cons first inside =>
          -- the password would end before the introduction does
          exfalso
          obtain ⟨rfl, -⟩ := List.cons.inj last
          rw [same, ← List.append_assoc] at kept
          rcases List.append_eq_append_iff.mp kept with ⟨between, -, last⟩ | ⟨between, begins, last⟩
          · have member : '@' ∈ "://".toList := by
              rw [last]
              exact List.mem_append_right _ List.mem_cons_self
            exact absurd member (by decide)
          · have long : 0 < between.length := by
              cases between with
              | nil => simp [slashes] at last
              | cons first between => simp
            have measured := congrArg List.length begins
            simp only [List.length_append, List.length_cons, List.length_nil] at measured longer
            omega
      · exact fun character member => passwords _ (same ▸ List.mem_append_left _ member)

/-- A URL's password that the scan is in hides the password that another URL introduces there. -/
theorem UrlCovering.form {user₀ more : List Char} (covering : UrlCovering front user₀ more)
    (users : ∀ character ∈ user, isUser character = true ∧ character ≠ '@')
    (passwords : ∀ character ∈ secret, isPassword character = true) (rest : List Char) :
    ∃ word, front ++ ("://".toList ++ (user ++ [':']) ++ (secret ++ '@' :: rest)) = word ++ rest ∧
      ∀ previous, UrlForm previous word ("://".toList ++ (user₀ ++ ':' :: (censor ++ ['@']))) := by
  have inside : ∀ character ∈ user, isPassword character = true := by
    intro character member
    have fits := (users _ member).1
    simp only [isUser, Bool.and_eq_true] at fits
    simp [isPassword, (users _ member).2, fits.2]
  have form := fun previous => @UrlForm.mk previous user₀ (more ++ (user ++ ':' :: secret))
    covering.user_ne covering.users (by simp) (List.forall_mem_append.mpr ⟨covering.passwords,
      List.forall_mem_append.mpr ⟨inside, List.forall_mem_cons.mpr ⟨by decide, passwords⟩⟩⟩)
  refine ⟨_, ?_, form⟩
  calc front ++ ("://".toList ++ (user ++ [':']) ++ (secret ++ '@' :: rest))
    _ = (front ++ "://".toList) ++ (user ++ ':' :: (secret ++ '@' :: rest)) := by simp
    _ = _ := by
      rw [covering.reads]
      simp

/-- What the scan has read of a query value when a secret's introduction begins in it. -/
structure QueryCovering (front : List Char) (mark₀ : Char) (key₀ more : List Char) : Prop where
  isMark : mark₀ ∈ ['?', '&']
  isKeyWord : key₀.map Char.toLower ∈ queryKeys
  values : ∀ character ∈ more, isValue character = true
  reads : front = mark₀ :: (key₀ ++ '=' :: more)

/-- The scan goes past the beginning of a parameter only inside the value of another. -/
theorem exists_queryCovering (nonempty : front ≠ []) (isMark : mark ∈ ['?', '&'])
    (found : queryValue.find previous (front ++ mark :: rest) = some (length, replaced))
    (longer : front.length < length) :
    isValue mark = true ∧ ∃ mark₀ key₀ more, QueryCovering front mark₀ key₀ more := by
  obtain ⟨word, after, divided, rfl, form, -⟩ := (queryValue_follows _ _ _ _).mp found
  cases form with
  | @mk mark₀ key₀ value isMark₀ isKeyWord values =>
    have split : front ++ mark :: rest =
        (mark₀ :: (key₀ ++ ['='])) ++ (value ++ after) := by simpa using divided
    have elsewhere : mark ∉ key₀ ++ ['='] := by
      intro member
      have unfit : ∀ mark ∈ ['?', '&'], isKey mark = false ∧ mark ≠ '=' := by decide
      rcases List.mem_append.mp member with inKey | last
      · have letter := (isKey_of_mem isKeyWord inKey).1
        rw [(unfit _ isMark).1] at letter
        simp at letter
      · exact (unfit _ isMark).2 (List.mem_singleton.mp last)
    obtain ⟨more, reads, behind⟩ : ∃ more, front = mark₀ :: (key₀ ++ ['=']) ++ more ∧
        value ++ after = more ++ mark :: rest := by
      rcases List.append_eq_append_iff.mp split with ⟨more, kept, behind⟩ | ⟨more, kept, behind⟩
      · cases more with
        | nil => exact ⟨[], by simpa using kept.symm, behind.symm⟩
        | cons first more =>
          -- the mark would stand in the name of the parameter
          obtain ⟨rfl, -⟩ := List.cons.inj behind
          obtain ⟨first, front, rfl⟩ := List.exists_cons_of_ne_nil nonempty
          rw [(List.cons.inj kept).2] at elsewhere
          exact absurd (List.mem_append_right _ List.mem_cons_self) elsewhere
      · exact ⟨more, kept, behind⟩
    have short : (more ++ [mark]).length ≤ value.length := by
      rw [reads] at longer
      simp only [List.length_append, List.length_cons, List.length_nil] at longer ⊢
      omega
    obtain ⟨tail, same⟩ : more ++ [mark] <+: value :=
      List.prefix_of_prefix_length_le ⟨rest, by rw [behind]; simp⟩ ⟨after, rfl⟩ short
    rw [← same, List.forall_mem_append, List.forall_mem_append] at values
    exact ⟨values.1.2 _ List.mem_cons_self, mark₀, key₀, more, isMark₀, isKeyWord, values.1.1,
      by simpa using reads⟩

theorem isValue_of_isKey {character : Char} (letter : isKey character = true) :
    isValue character = true := by
  have visible : isBlank character = false := by
    by_contra blank
    rw [not_isKey_of_isBlank (Bool.not_eq_false _ ▸ blank)] at letter
    simp at letter
  have other : ∀ mark ∈ ['&', '#'], isKey mark = false := by decide
  have first : character ≠ '&' := by
    rintro rfl
    simp [other] at letter
  have second : character ≠ '#' := by
    rintro rfl
    simp [other] at letter
  simp [isValue, visible, first, second]

/-- A query value that the scan is in hides the value that another parameter introduces there. -/
theorem QueryCovering.form {mark₀ : Char} {key₀ more : List Char}
    (covering : QueryCovering front mark₀ key₀ more) (fits : isValue mark = true)
    (isKeyWord : key.map Char.toLower ∈ queryKeys)
    (values : ∀ character ∈ secret, isValue character = true) (post : List Char) :
    ∃ word, front ++ (mark :: (key ++ ['=']) ++ (secret ++ post)) = word ++ post ∧
      ∀ previous, QueryForm previous word (mark₀ :: (key₀ ++ '=' :: censor)) := by
  have inside : ∀ character ∈ mark :: (key ++ '=' :: secret), isValue character = true :=
    List.forall_mem_cons.mpr ⟨fits, List.forall_mem_append.mpr
      ⟨fun _ member => isValue_of_isKey (isKey_of_mem isKeyWord member).1,
        List.forall_mem_cons.mpr ⟨by decide, values⟩⟩⟩
  have form := fun previous => @QueryForm.mk previous mark₀ key₀
    (more ++ mark :: (key ++ '=' :: secret)) covering.isMark covering.isKeyWord
    (List.forall_mem_append.mpr ⟨covering.values, inside⟩)
  refine ⟨_, ?_, form⟩
  rw [covering.reads]
  simp

end

/-! ### Non-interference -/

section
variable {kind : SecretKind} {pre intro secret secret' post : List Char}

/-- Two texts whose matches are replaced alike, and which go on alike behind them. -/
theorem covered_of_find {rule : Rule} {previous : Option Char}
    {text text' word word' rest replaced replaced₀ : List Char} {length : Nat}
    (divided : text = word ++ rest) (divided' : text' = word' ++ rest)
    (here : rule.find previous (word ++ rest) = some (word.length, replaced₀))
    (here' : rule.find previous (word' ++ rest) = some (word'.length, replaced₀))
    (found : rule.find previous text = some (length, replaced)) :
    ∃ covered covered', rule.find previous text = some (covered, replaced) ∧
      rule.find previous text' = some (covered', replaced) ∧
      text.drop covered = text'.drop covered' := by
  subst divided divided'
  obtain ⟨-, rfl⟩ := Prod.mk.inj (Option.some.inj (here.symm.trans found))
  exact ⟨_, _, here, here', by rw [List.drop_left, List.drop_left]⟩

/-- A match that runs into the introduction hides either of two secrets, and stops where the texts
have become the same. -/
theorem hidden_of_covers (covers : kind.covers = true) {previous' : Option Char}
    (introduces : kind.Introduces previous' intro) (ends : kind.Ends post)
    (allows : kind.Allows secret) (allows' : kind.Allows secret') {previous : Option Char}
    {front replaced : List Char} {length : Nat} (nonempty : front ≠ [])
    (longer : front.length < length)
    (found : kind.rule.find previous (front ++ (intro ++ (secret ++ post))) =
      some (length, replaced)) :
    ∃ covered covered',
      kind.rule.find previous (front ++ (intro ++ (secret ++ post))) = some (covered, replaced) ∧
      kind.rule.find previous (front ++ (intro ++ (secret' ++ post))) =
        some (covered', replaced) ∧
      (front ++ (intro ++ (secret ++ post))).drop covered =
        (front ++ (intro ++ (secret' ++ post))).drop covered' := by
  cases introduces with
  | @url _ user users =>
    simp only [SecretKind.rule] at found ⊢
    obtain ⟨rest, rfl⟩ := List.head?_eq_some_iff.mp ends
    obtain ⟨user₀, more, covering⟩ := exists_urlCovering nonempty
      (by simpa only [List.append_assoc] using found) longer
    obtain ⟨word, divided, form⟩ := covering.form users allows rest
    obtain ⟨word', divided', form'⟩ := covering.form users allows' rest
    have here := @Rule.Follows.find _ _ _ _ _ _ urlPassword_follows rest (form previous)
      fun _ _ => rfl
    have here' := @Rule.Follows.find _ _ _ _ _ _ urlPassword_follows rest (form' previous)
      fun _ _ => rfl
    exact covered_of_find divided divided' here here' found
  | @query _ mark key isMark isKeyWord =>
    simp only [SecretKind.rule] at found ⊢
    obtain ⟨fits, mark₀, key₀, more, covering⟩ := exists_queryCovering nonempty isMark
      (by simpa only [List.cons_append] using found) longer
    obtain ⟨word, divided, form⟩ := covering.form fits isKeyWord allows post
    obtain ⟨word', divided', form'⟩ := covering.form fits isKeyWord allows' post
    have here := queryValue_follows.find (form previous) ends
    have here' := queryValue_follows.find (form' previous) ends
    exact covered_of_find divided divided' here here' found
  | _ => simp [SecretKind.covers] at covers

theorem SecretKind.Introduces.of_covers (covers : kind.covers = true)
    {previous previous' : Option Char} (introduces : kind.Introduces previous intro) :
    kind.Introduces previous' intro := by
  refine introduces.any ?_ ?_ <;> rintro rfl <;> simp [SecretKind.covers] at covers

theorem turns_of_any {rule : Rule} {back front : List Char}
    (any : (rule.upTo back 0 none front).any (·.2.count = 0) = true) :
    ∃ made, rule.Turns back none front made {} := by
  cases scanned : rule.upTo back 0 none front with
  | none => simp [scanned] at any
  | some result =>
    obtain ⟨made, pending⟩ := result
    have turns := Rule.turns_of_upTo scanned
    obtain rfl := turns.pending_eq (by simpa [scanned] using any)
    exact ⟨made, turns⟩

/-- The replacement for the kind hides the secret where it comes to it. -/
theorem replaceAll_of_reached (introduces : kind.Introduces pre.getLast? intro)
    (ends : kind.Ends post) (allows : kind.Allows secret) (allows' : kind.Allows secret')
    (reached : kind.reached pre intro secret post = true)
    (reached' : kind.reached pre intro secret' post = true) :
    kind.rule.replaceAll (pre ++ (intro ++ (secret ++ post))) =
      kind.rule.replaceAll (pre ++ (intro ++ (secret' ++ post))) := by
  rw [SecretKind.reached, Bool.and_eq_true] at reached reached'
  obtain ⟨filled, comes⟩ := reached
  obtain ⟨filled', comes'⟩ := reached'
  obtain ⟨first, rest, intro_eq⟩ := introduces.exists_head
  have heads : (intro ++ (secret ++ post)).head? = (intro ++ (secret' ++ post)).head? := by
    rw [intro_eq]
    rfl
  have isLocal : kind.rule.Local := by
    cases kind with
    | urlPassword => exact urlPassword_follows.isLocal
    | bearerToken => exact bearerToken_follows.isLocal
    | queryValue => exact queryValue_follows.isLocal
    | jsonMember => exact jsonSensitiveMember_follows.isLocal
    | bareAssignment => exact bareSensitiveAssignment_follows.isLocal
  by_cases covers : kind.covers = true
  · refine Rule.pass_eq_of_covers isLocal (find_of_covers covers) heads (fun previous => ?_)
      fun previous front length replaced nonempty longer found => ?_
    · obtain ⟨hidden, hides⟩ :=
        pass_own (@SecretKind.Introduces.of_covers _ _ covers _ previous introduces) ends
      rw [hides _ allows filled, hides _ allows' filled']
    · rcases found with found | found
      · exact hidden_of_covers covers introduces ends allows allows' nonempty longer found
      · obtain ⟨covered, covered', here, here', rest⟩ :=
          hidden_of_covers covers introduces ends allows' allows nonempty longer found
        exact ⟨covered', covered, here', here, rest.symm⟩
  · rw [Bool.not_eq_true] at covers
    rw [covers, Bool.false_or] at comes comes'
    obtain ⟨made, turns⟩ := turns_of_any comes
    obtain ⟨made', turns'⟩ := turns_of_any comes'
    obtain rfl := turns.agree isLocal heads turns' (absurd · (Nat.lt_irrefl 0))
      (absurd · (Nat.lt_irrefl 0))
    obtain ⟨hidden, hides⟩ := pass_own introduces ends
    rw [Rule.replaceAll, Rule.replaceAll, turns.pass, turns'.pass]
    simp only [List.take_zero, List.append_nil, List.drop_zero, Option.or_none, List.nil_append,
      hides _ allows filled, hides _ allows' filled']

/-- The replacements up to the secret's own make two undisturbed texts the same. -/
theorem foldl_of_undisturbed {rules : List Rule} (harmless : ∀ rule ∈ rules, Harmless rule kind)
    (introduces : kind.Introduces pre.getLast? intro) (ends : kind.Ends post)
    (allows : kind.Allows secret) (allows' : kind.Allows secret')
    (undisturbed : kind.undisturbed intro rules pre secret secret' post = true) :
    kind.rule.replaceAll (rules.foldl (fun text rule => rule.replaceAll text)
        (pre ++ (intro ++ (secret ++ post)))) =
      kind.rule.replaceAll (rules.foldl (fun text rule => rule.replaceAll text)
        (pre ++ (intro ++ (secret' ++ post)))) := by
  induction rules generalizing pre secret secret' post with
  | nil =>
    simp only [SecretKind.undisturbed, Bool.or_eq_true, decide_eq_true_eq, Bool.and_eq_true]
      at undisturbed
    rcases undisturbed with (rfl | taken) | ⟨reached, reached'⟩
    · rfl
    · exact replaceAll_of_takenAlike (find_own ends) taken
    · exact replaceAll_of_reached introduces ends allows allows' reached reached'
  | cons rule rules ih =>
    obtain ⟨first, others⟩ := List.forall_mem_cons.mp harmless
    simp only [SecretKind.undisturbed, Bool.or_eq_true, decide_eq_true_eq] at undisturbed
    rcases undisturbed with (rfl | taken) | apart
    · rfl
    · rw [List.foldl_cons, List.foldl_cons,
        replaceAll_of_takenAlike (fun _ _ => first.alike _ _ ends) taken]
    · split at apart
      · rename_i pre' made behind pre'' made' behind' parts parts'
        rw [Bool.and_eq_true, decide_eq_true_eq] at apart
        obtain ⟨rfl, later⟩ := apart
        obtain ⟨introduces, allows, allows', ends, text, text'⟩ :=
          first.step introduces ends allows allows' parts parts'
        rw [List.foldl_cons, List.foldl_cons, text, text']
        exact ih others introduces ends allows allows' later
      · simp at apart

end

end NestjsFastify.LoggerRedact
