import NestjsFastify.ScriptText

/-! # Paths of a POSIX system

A path is normalized part by part.  A rooted path is a separator and the names on the way from the
root, and as long as only names are joined to it, the result lies below it.
-/
namespace PosixPath
open ScriptText (join join_append not_mem_of_mem_splitOn)

abbrev Path : Type := List Char

/-- What a directory may call an entry. -/
structure Name (part : Path) : Prop where
  nonempty : part ≠ []
  notHere : part ≠ ['.']
  notParent : part ≠ ['.', '.']
  plain : '/' ∉ part

/-! ### Normalizing -/

/-- The parts that are kept, with one more. -/
def enter (absolute : Bool) (kept : List Path) (part : Path) : List Path :=
  if part = [] ∨ part = ['.'] then kept
  else if part = ['.', '.'] then
    if kept.getLast?.any (· ≠ ['.', '.']) then kept.dropLast
    else if absolute then kept else kept ++ [part]
  else kept ++ [part]

/-- `normalize(path)` -/
def normalize (path : Path) : Path :=
  let absolute := decide (path.head? = some '/')
  let kept := (path.splitOn '/').foldl (enter absolute) []
  let ending := if path.getLast? = some '/' then ['/'] else []
  if absolute then if kept = [] then ['/'] else '/' :: join '/' kept ++ ending
  else if kept = [] then '.' :: ending else join '/' kept ++ ending

/-- `join(...paths)` -/
def joinPaths (paths : List Path) : Path := normalize (join '/' (paths.filter (· ≠ [])))

/-- A path from the root, such as the working directory. -/
structure AbsolutePath where
  text : Path
  absolute : text.head? = some '/'

/-- The path to some names, from the root. -/
def rooted (names : List Path) : Path := '/' :: join '/' names

/-- `resolve(path)` -/
def resolve (directory : AbsolutePath) (path : Path) : Path :=
  let absolute := if path.head? = some '/' then path else directory.text ++ '/' :: path
  rooted ((absolute.splitOn '/').foldl (enter true) [])

/-- A way down from the directory, by names alone, leads to the path. -/
def StrictlyBelow (directory path : Path) : Prop :=
  ∃ names, names ≠ [] ∧ (∀ name ∈ names, Name name) ∧ path = directory ++ '/' :: join '/' names

variable {names more : List Path}

theorem enter_name {absolute : Bool} {kept : List Path} {part : Path} (name : Name part) :
    enter absolute kept part = kept ++ [part] := by
  rw [enter, if_neg (not_or.mpr ⟨name.nonempty, name.notHere⟩), if_neg name.notParent]

theorem foldl_enter {absolute : Bool} {kept : List Path} (all : ∀ name ∈ names, Name name) :
    names.foldl (enter absolute) kept = kept ++ names := by
  induction names generalizing kept with
  | nil => exact (List.append_nil kept).symm
  | cons name names ih =>
    obtain ⟨first, others⟩ := List.forall_mem_cons.mp all
    rw [List.foldl_cons, enter_name first, ih others, List.append_assoc]
    rfl

/-- From the root, only names are kept. -/
theorem name_of_mem_enter {kept : List Path} {part name : Path} (all : ∀ name ∈ kept, Name name)
    (plain : '/' ∉ part) (member : name ∈ enter true kept part) : Name name := by
  simp only [enter, if_true] at member
  split_ifs at member with empty parent
  · exact all name member
  · exact all name (List.mem_of_mem_dropLast member)
  · exact all name member
  · rcases List.mem_append.mp member with old | new
    · exact all name old
    · rw [List.mem_singleton.mp new]
      exact ⟨fun none => empty (.inl none), fun here => empty (.inr here), parent, plain⟩

theorem name_of_mem_foldl {parts kept : List Path} {name : Path} (all : ∀ name ∈ kept, Name name)
    (plain : ∀ part ∈ parts, '/' ∉ part) (member : name ∈ parts.foldl (enter true) kept) :
    Name name := by
  induction parts generalizing kept with
  | nil => exact all name member
  | cons part parts ih =>
    obtain ⟨first, others⟩ := List.forall_mem_cons.mp plain
    exact ih (fun name => name_of_mem_enter all first) others member

/-- What is resolved is a path from the root. -/
theorem resolve_rooted (directory : AbsolutePath) (path : Path) :
    ∃ names, (∀ name ∈ names, Name name) ∧ resolve directory path = rooted names :=
  ⟨_, fun _ member => name_of_mem_foldl (fun _ none => absurd none List.not_mem_nil)
    (fun _ => not_mem_of_mem_splitOn) member, rfl⟩

/-! ### Joining names to a rooted path -/

theorem rooted_append (some : names ≠ []) (someMore : more ≠ []) :
    rooted (names ++ more) = rooted names ++ '/' :: join '/' more := by
  rw [rooted, join_append '/' some someMore]
  rfl

theorem splitOn_rooted (some : names ≠ []) (plain : ∀ name ∈ names, '/' ∉ name) :
    (rooted names).splitOn '/' = [] :: names := by
  rw [rooted, List.splitOn_cons_eq_if_modifyHead, if_pos (beq_self_eq_true _), join,
    List.splitOn_intercalate '/' plain some]

theorem rooted_injective (some : names ≠ []) (someMore : more ≠ [])
    (plain : ∀ name ∈ names, '/' ∉ name) (plainMore : ∀ name ∈ more, '/' ∉ name)
    (same : rooted names = rooted more) : names = more := by
  have pieces := congrArg (List.splitOn '/') same
  rw [splitOn_rooted some plain, splitOn_rooted someMore plainMore] at pieces
  exact (List.cons.inj pieces).2

/-- Only the last part of a path is at its end. -/
theorem exists_front (before : List Path) :
    ∃ front, ∀ last, rooted (before ++ [last]) = front ++ last := by
  by_cases none : before = []
  · exact ⟨['/'], fun last => by simp [none, rooted, join]⟩
  · refine ⟨rooted before ++ ['/'], fun last => ?_⟩
    rw [rooted_append none (List.cons_ne_nil _ _)]
    simp [join]

theorem rooted_extend (before : List Path) (last extension : Path) :
    rooted (before ++ [last]) ++ extension = rooted (before ++ [last ++ extension]) := by
  obtain ⟨front, whole⟩ := exists_front before
  rw [whole, whole, List.append_assoc]

/-- A path that ends with a name does not end with a separator. -/
theorem getLast?_rooted {before : List Path} {name : Path} (last : Name name) :
    (rooted (before ++ [name])).getLast? ≠ some '/' := by
  obtain ⟨front, whole⟩ := exists_front before
  rw [whole, List.getLast?_append]
  intro ends
  have inside : name.getLast? = some '/' := by
    rw [List.getLast?_eq_getLast_of_ne_nil last.nonempty] at ends ⊢
    simpa using ends
  exact last.plain (List.mem_of_getLast? inside)

theorem normalize_rooted {before : List Path} {name : Path}
    (plain : ∀ part ∈ before, '/' ∉ part) (last : Name name) :
    normalize (rooted (before ++ [name])) =
      rooted ((before ++ [name]).foldl (enter true) []) := by
  have pieces : (rooted (before ++ [name])).splitOn '/' = [] :: (before ++ [name]) :=
    splitOn_rooted (by simp) fun part member => by
      rcases List.mem_append.mp member with own | same
      · exact plain part own
      · exact List.mem_singleton.mp same ▸ last.plain
  have kept : (before ++ [name]).foldl (enter true) [] ≠ [] := by
    rw [List.foldl_append, List.foldl_cons, List.foldl_nil, enter_name last]
    simp
  have absolute : decide ((rooted (before ++ [name])).head? = some '/') = true := rfl
  have first : enter true [] [] = [] := rfl
  simp only [normalize, pieces, if_neg (getLast?_rooted last), absolute, if_true,
    List.foldl_cons, first, if_neg kept, List.append_nil]
  rfl

theorem joinPaths_rooted (all : ∀ name ∈ names, Name name) (allMore : ∀ name ∈ more, Name name)
    (someMore : more ≠ []) : joinPaths (rooted names :: more) = rooted (names ++ more) := by
  have kept : (rooted names :: more).filter (· ≠ []) = rooted names :: more := by
    refine List.filter_eq_self.mpr fun path member => ?_
    rcases List.mem_cons.mp member with rfl | own
    · rfl
    · simpa using (allMore path own).nonempty
  obtain ⟨front, name, rfl⟩ := (List.eq_nil_or_concat' more).resolve_left someMore
  have last := allMore name (by simp)
  have plain : ∀ part ∈ front, '/' ∉ part := fun part own => (allMore part (by simp [own])).plain
  rw [joinPaths, kept, ← List.singleton_append, join_append '/' (by simp) someMore]
  by_cases none : names = []
  · subst none
    -- Below the root itself, a part between the two separators is empty.
    have path : join '/' [rooted []] ++ '/' :: join '/' (front ++ [name]) =
        rooted (([] :: front) ++ [name]) := by
      have joined := @join_append '/' [[]] (front ++ [name]) (by simp) someMore
      exact (congrArg ('/' :: ·) joined).symm
    rw [path, normalize_rooted (List.forall_mem_cons.mpr ⟨List.not_mem_nil, plain⟩) last,
      List.cons_append, List.foldl_cons]
    exact congrArg rooted (foldl_enter allMore)
  · have path : join '/' [rooted names] ++ '/' :: join '/' (front ++ [name]) =
        rooted ((names ++ front) ++ [name]) := by
      rw [List.append_assoc, rooted_append none someMore]
      simp [join]
    have everything : ∀ part ∈ names ++ front ++ [name], Name part := by
      intro part member
      rw [List.append_assoc] at member
      exact (List.mem_append.mp member).elim (all part) (allMore part)
    rw [path, normalize_rooted (fun part own => (everything part (List.mem_append_left _ own)).plain) last,
      foldl_enter everything, List.nil_append, List.append_assoc]

/-- What names are joined to lies below it. -/
theorem strictlyBelow_rooted (some : names ≠ []) (someMore : more ≠ [])
    (allMore : ∀ name ∈ more, Name name) :
    StrictlyBelow (rooted names) (rooted (names ++ more)) :=
  ⟨more, someMore, allMore, rooted_append some someMore⟩

end PosixPath
