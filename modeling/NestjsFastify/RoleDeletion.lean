import NestjsFastify.RoleCommands

/-! # Deleting a role

A role that an organization has defined is deleted unless a member holds it.  The statement takes
all white space from the stored list of roles before it splits it; the adapter that resolves the
permissions splits first and trims each name, and the two do not take the same characters for white
space.
-/
namespace NestjsFastify.Authorization
open ScriptText (trim isBlank Solid trim_eq_iff splitOn_filter)

/-! ### The outcome -/

/-- The row that the statement answers with. -/
structure DeleteUnlessHeldRow where
  found : Bool
  holders : Nat
  deleted : Bool
  deriving DecidableEq, Repr

/-- A row that is not deleted without holders was removed by a concurrent request. -/
def toDeletionOutcome : Option DeleteUnlessHeldRow → RoleDeletionOutcome
  | none => .notFound
  | some row =>
      if !row.found then .notFound
      else if row.deleted then .deleted
      else if 0 < row.holders then .inUse
      else .notFound

section
variable {isSpace : Char → Bool} {database : AuthorizationDatabase} {organizationId : String}
variable {role segment : List Char}

/-- The statement answers with the row of a database that nobody else changes meanwhile. -/
theorem deleteUnlessHeld_outcome :
    let found := database.organizationRoles.any (·.isNamed organizationId role)
    let holders := database.members.countP fun member =>
      member.organizationId = organizationId && member.holdsRole isSpace role
    (deleteUnlessHeld isSpace database organizationId role).2 =
      toDeletionOutcome (some ⟨found, holders, found && holders = 0⟩) := by
  intro found holders
  simp only [deleteUnlessHeld, toDeletionOutcome, found, holders]
  cases database.organizationRoles.any (·.isNamed organizationId role) with
  | false => rfl
  | true =>
    by_cases free : database.members.countP (fun member =>
      member.organizationId = organizationId && member.holdsRole isSpace role) = 0
    · simp [free]
    · simp [free, Nat.pos_of_ne_zero free]

/-! ### What is to hold -/

/-- The adapter looks the role up for the member. -/
def MemberRow.consults (row : MemberRow) (role : List Char) : Bool :=
  role ∈ customRoleNames (splitRoles row.role)

/-- A deletion takes no permission from anybody, and a role is in use only when it is consulted. -/
structure DeletionSound (isSpace : Char → Bool) (database : AuthorizationDatabase)
    (organizationId : String) (role : List Char) : Prop where
  unused : (deleteUnlessHeld isSpace database organizationId role).2 = .deleted →
    ∀ row ∈ database.members, row.organizationId = organizationId → row.consults role = false
  kept : (deleteUnlessHeld isSpace database organizationId role).2 = .deleted →
    ∀ otherId userId,
      memberPermissions database.members
        (deleteUnlessHeld isSpace database organizationId role).1.organizationRoles otherId userId =
      memberPermissions database.members database.organizationRoles otherId userId
  used : (deleteUnlessHeld isSpace database organizationId role).2 = .inUse →
    ∃ row ∈ database.members, row.organizationId = organizationId ∧ row.consults role = true

/-- What stands between two commas of a list of roles. -/
def AuthorizationDatabase.segments (database : AuthorizationDatabase) (organizationId : String) :
    List (List Char) :=
  (database.members.filter (·.organizationId = organizationId)).flatMap (·.role.splitOn ',')

/-- The segments of the lists that are not white space throughout: the array of an empty text has
no element. -/
def AuthorizationDatabase.countedSegments (isSpace : Char → Bool)
    (database : AuthorizationDatabase) (organizationId : String) : List (List Char) :=
  (database.members.filter fun row =>
    row.organizationId = organizationId && row.role.any (!isSpace ·)).flatMap (·.role.splitOn ',')

/-- Trimming leaves the name as it is, and no role that is built in has it. -/
structure LookedUp (role : List Char) : Prop where
  solid : Solid isBlank role
  custom : isSystemRole role = false

/-- The name between blanks. -/
def Surrounded (role segment : List Char) : Prop :=
  ∃ before after, segment = before ++ role ++ after ∧
    ∀ character ∈ before ++ after, isBlank character = true

/-- A name without white space, and nothing around it but what both take for white space. -/
def Plain (isSpace : Char → Bool) (role segment : List Char) : Prop :=
  LookedUp role ∧ (∀ character ∈ role, isSpace character = false) ∧
    ∃ before after, segment = before ++ role ++ after ∧
      ∀ character ∈ before ++ after, isBlank character = true ∧ isSpace character = true

/-- The name between blanks, one of which the database does not take for white space, or with white
space of the database in it. -/
def Marked (isSpace : Char → Bool) (role segment : List Char) : Prop :=
  LookedUp role ∧ ∃ before after, segment = before ++ role ++ after ∧
    (∀ character ∈ before ++ after, isBlank character = true) ∧
      ((∃ character ∈ before ++ after, isSpace character = false) ∨
        ∃ character ∈ role, isSpace character = true)

/-- The name once the white space of the database is taken away, but not the name between blanks, or
one that is not looked up. -/
def Spaced (isSpace : Char → Bool) (role segment : List Char) : Prop :=
  (segment.filter fun character => !isSpace character) = role ∧
    ¬ (LookedUp role ∧ Surrounded role segment)

/-- Some list has the plain name, or the lists have segments of both odd kinds or of neither. -/
def SegmentsAgree (isSpace : Char → Bool) (database : AuthorizationDatabase)
    (organizationId : String) (role : List Char) : Prop :=
  (∃ segment ∈ database.segments organizationId, Plain isSpace role segment) ∨
    ((∃ segment ∈ database.countedSegments isSpace organizationId, Spaced isSpace role segment) ↔
      ∃ segment ∈ database.segments organizationId, Marked isSpace role segment)

/-! ### Segments -/

/-- The adapter reads the name in a segment. -/
theorem trim_eq_role_iff : (trim segment = role ∧ role ≠ [] ∧ isSystemRole role = false) ↔
    LookedUp role ∧ Surrounded role segment := by
  constructor
  · rintro ⟨rfl, some, custom⟩
    have solid := ScriptText.solid_trim some
    exact ⟨⟨solid, custom⟩, (trim_eq_iff solid).mp rfl⟩
  · rintro ⟨lookedUp, surrounded⟩
    exact ⟨(trim_eq_iff lookedUp.solid).mpr surrounded, lookedUp.solid.nonempty, lookedUp.custom⟩

theorem surrounded_iff : LookedUp role ∧ Surrounded role segment ↔
    Plain isSpace role segment ∨ Marked isSpace role segment := by
  constructor
  · rintro ⟨lookedUp, before, after, same, blank⟩
    by_cases spaces : ∀ character ∈ before ++ after, isSpace character = true
    · by_cases own : ∀ character ∈ role, isSpace character = false
      · exact .inl ⟨lookedUp, own, before, after, same, fun character member =>
          ⟨blank character member, spaces character member⟩⟩
      · simp only [not_forall, Bool.not_eq_false, exists_prop] at own
        exact .inr ⟨lookedUp, before, after, same, blank, .inr own⟩
    · simp only [not_forall, Bool.not_eq_true, exists_prop] at spaces
      exact .inr ⟨lookedUp, before, after, same, blank, .inl spaces⟩
  · rintro (⟨lookedUp, -, before, after, same, both⟩ | ⟨lookedUp, before, after, same, blank, -⟩)
    · exact ⟨lookedUp, before, after, same, fun character member => (both character member).1⟩
    · exact ⟨lookedUp, before, after, same, blank⟩

/-- The name is what remains of a segment around it when white space surrounds it and none is in it.
-/
theorem filter_surrounded {before after : List Char} :
    ((before ++ role ++ after).filter fun character => !isSpace character) = role ↔
      (∀ character ∈ role, isSpace character = false) ∧
        ∀ character ∈ before ++ after, isSpace character = true := by
  constructor
  · intro same
    have own : ∀ character ∈ role, isSpace character = false := by
      intro character member
      rw [← same] at member
      simpa using (List.mem_filter.mp member).2
    have whole : (role.filter fun character => !isSpace character) = role :=
      List.filter_eq_self.mpr fun character member => by simp [own character member]
    rw [List.filter_append, List.filter_append, whole] at same
    have lengths := congrArg List.length same
    simp only [List.length_append] at lengths
    have none : (before.filter fun character => !isSpace character) = [] ∧
        (after.filter fun character => !isSpace character) = [] :=
      ⟨List.eq_nil_of_length_eq_zero (by omega), List.eq_nil_of_length_eq_zero (by omega)⟩
    refine ⟨own, fun character member => ?_⟩
    rcases List.mem_append.mp member with front | back
    · simpa using List.filter_eq_nil_iff.mp none.1 character front
    · simpa using List.filter_eq_nil_iff.mp none.2 character back
  · rintro ⟨own, all⟩
    have whole : (role.filter fun character => !isSpace character) = role :=
      List.filter_eq_self.mpr fun character member => by simp [own character member]
    have front : (before.filter fun character => !isSpace character) = [] :=
      List.filter_eq_nil_iff.mpr fun character member => by
        simp [all character (List.mem_append_left _ member)]
    have back : (after.filter fun character => !isSpace character) = [] :=
      List.filter_eq_nil_iff.mpr fun character member => by
        simp [all character (List.mem_append_right _ member)]
    rw [List.filter_append, List.filter_append, whole, front, back, List.nil_append,
      List.append_nil]

/-- The statement reads the name in a segment. -/
theorem filter_eq_role_iff : (segment.filter fun character => !isSpace character) = role ↔
    Plain isSpace role segment ∨ Spaced isSpace role segment := by
  constructor
  · intro read
    by_cases surrounded : LookedUp role ∧ Surrounded role segment
    · obtain ⟨lookedUp, before, after, rfl, blank⟩ := surrounded
      have both := filter_surrounded.mp read
      exact .inl ⟨lookedUp, both.1, before, after, rfl, fun character member =>
        ⟨blank character member, both.2 character member⟩⟩
    · exact .inr ⟨read, surrounded⟩
  · rintro (⟨-, own, before, after, rfl, both⟩ | ⟨read, -⟩)
    · exact filter_surrounded.mpr ⟨own, fun character member => (both character member).2⟩
    · exact read

/-! ### Members -/

theorem mem_segments : segment ∈ database.segments organizationId ↔
    ∃ row ∈ database.members, row.organizationId = organizationId ∧
      segment ∈ row.role.splitOn ',' := by
  simp [AuthorizationDatabase.segments, and_assoc]

theorem mem_countedSegments : segment ∈ database.countedSegments isSpace organizationId ↔
    ∃ row ∈ database.members, row.organizationId = organizationId ∧
      (∃ character ∈ row.role, isSpace character = false) ∧ segment ∈ row.role.splitOn ',' := by
  simp [AuthorizationDatabase.countedSegments, and_assoc]

/-- A plain name stands in a list that is not white space throughout. -/
theorem countedSegments_of_plain (plain : Plain isSpace role segment)
    (member : segment ∈ database.segments organizationId) :
    segment ∈ database.countedSegments isSpace organizationId := by
  obtain ⟨row, listed, here, inside⟩ := mem_segments.mp member
  obtain ⟨lookedUp, own, before, after, same, -⟩ := plain
  obtain ⟨character, others, rfl⟩ := List.exists_cons_of_ne_nil lookedUp.solid.nonempty
  have found : character ∈ segment := by simp [same]
  have kept := own character List.mem_cons_self
  exact mem_countedSegments.mpr ⟨row, listed, here,
    ⟨character, ScriptText.mem_of_mem_splitOn inside found, kept⟩, inside⟩

/-- The adapter consults the role for a segment that trims to its name. -/
theorem consults_iff {row : MemberRow} : row.consults role = true ↔
    ∃ segment ∈ row.role.splitOn ',', LookedUp role ∧ Surrounded role segment := by
  simp only [MemberRow.consults, customRoleNames, splitRoles, decide_eq_true_eq, List.mem_filter,
    List.mem_map, ← trim_eq_role_iff]
  grind

/-- The statement counts a member for a segment that reads the name without white space. -/
theorem holdsRole_iff (comma : isSpace ',' = false) {row : MemberRow} :
    row.holdsRole isSpace role = true ↔ (∃ character ∈ row.role, isSpace character = false) ∧
      ∃ segment ∈ row.role.splitOn ',',
        (segment.filter fun character => !isSpace character) = role := by
  have kept : (!isSpace ',') = true := by simp [comma]
  simp only [MemberRow.holdsRole, Bool.and_eq_true, decide_eq_true_eq]
  rw [@splitOn_filter row.role ',' (fun character => !isSpace character) kept, List.mem_map]
  simp

/-- Some member consults the role, in terms of segments. -/
theorem exists_consults_iff :
    (∃ row ∈ database.members, row.organizationId = organizationId ∧ row.consults role = true) ↔
      ∃ segment ∈ database.segments organizationId,
        Plain isSpace role segment ∨ Marked isSpace role segment := by
  simp only [consults_iff, mem_segments, ← surrounded_iff]
  grind

/-- The statement finds a holder, in terms of segments. -/
theorem exists_holds_iff (comma : isSpace ',' = false) :
    database.members.countP (fun row =>
        row.organizationId = organizationId && row.holdsRole isSpace role) ≠ 0 ↔
      (∃ segment ∈ database.segments organizationId, Plain isSpace role segment) ∨
        ∃ segment ∈ database.countedSegments isSpace organizationId,
          Spaced isSpace role segment := by
  have counted : database.members.countP (fun row =>
        row.organizationId = organizationId && row.holdsRole isSpace role) ≠ 0 ↔
      ∃ segment ∈ database.countedSegments isSpace organizationId,
        Plain isSpace role segment ∨ Spaced isSpace role segment := by
    rw [← Nat.pos_iff_ne_zero, List.countP_pos_iff]
    simp only [Bool.and_eq_true, decide_eq_true_eq, holdsRole_iff comma, mem_countedSegments,
      ← filter_eq_role_iff]
    grind
  rw [counted]
  constructor
  · rintro ⟨segment, member, plain | spaced⟩
    · obtain ⟨row, listed, here, -, inside⟩ := mem_countedSegments.mp member
      exact .inl ⟨segment, mem_segments.mpr ⟨row, listed, here, inside⟩, plain⟩
    · exact .inr ⟨segment, member, spaced⟩
  · rintro (⟨segment, member, plain⟩ | ⟨segment, member, spaced⟩)
    · exact ⟨segment, countedSegments_of_plain plain member, .inl plain⟩
    · exact ⟨segment, member, .inr spaced⟩

/-! ### Deletions -/

/-- A role that nobody consults takes no permission with it. -/
theorem memberPermissions_deleteMany
    (unused : ∀ row ∈ database.members, row.organizationId = organizationId →
      row.consults role = false) (otherId userId : String) :
    memberPermissions database.members
        (RecordTable.deleteMany (·.isNamed organizationId role) database.organizationRoles) otherId
        userId =
      memberPermissions database.members database.organizationRoles otherId userId := by
  unfold memberPermissions membershipRole
  cases found : database.members.find? fun row =>
      row.organizationId = otherId ∧ row.userId = userId with
  | none => rfl
  | some row =>
    have member : row ∈ database.members := List.mem_of_find?_eq_some found
    have here : row.organizationId = otherId := by
      have selected := List.find?_some found
      simp only [decide_eq_true_eq] at selected
      exact selected.1
    have same : findCustomRoles
          (RecordTable.deleteMany (·.isNamed organizationId role) database.organizationRoles)
          otherId (customRoleNames (splitRoles row.role)) =
        findCustomRoles database.organizationRoles otherId
          (customRoleNames (splitRoles row.role)) := by
      unfold findCustomRoles RecordTable.deleteMany
      rw [List.filter_filter]
      refine List.filter_congr fun custom _ => ?_
      by_cases named : custom.isNamed organizationId role = true
      · simp only [OrganizationRoleRow.isNamed, decide_eq_true_eq] at named
        obtain ⟨rfl, rfl⟩ := named
        have absent : ¬ (custom.organizationId = otherId ∧
            custom.role ∈ customRoleNames (splitRoles row.role)) := by
          rintro ⟨same, consulted⟩
          have none := unused row member (here.trans same.symm)
          simp [MemberRow.consults, consulted] at none
        simp [absent]
      · simp [named]
    simp only [Option.map_some, resolvePermissions, same]

/-- The statement and the adapter agree exactly when the segments of the members' lists do. -/
theorem deletionSound_iff (comma : isSpace ',' = false) :
    DeletionSound isSpace database organizationId role ↔
      database.organizationRoles.any (·.isNamed organizationId role) = false ∨
        SegmentsAgree isSpace database organizationId role := by
  have consulted := @exists_consults_iff isSpace database organizationId role
  have held := @exists_holds_iff isSpace database organizationId role comma
  simp only [and_or_left, exists_or] at consulted
  cases found : database.organizationRoles.any (·.isNamed organizationId role) with
  | false =>
    have outcome : deleteUnlessHeld isSpace database organizationId role =
        (database, .notFound) := by
      simp [deleteUnlessHeld, found]
    refine iff_of_true ⟨?_, ?_, ?_⟩ (.inl rfl) <;> simp [outcome]
  | true =>
    simp only [Bool.true_eq_false, false_or, SegmentsAgree]
    by_cases free : database.members.countP (fun row =>
        row.organizationId = organizationId && row.holdsRole isSpace role) = 0
    · have outcome : deleteUnlessHeld isSpace database organizationId role =
          ({ database with organizationRoles :=
              RecordTable.deleteMany (·.isNamed organizationId role) database.organizationRoles },
            .deleted) := by
        simp [deleteUnlessHeld, found, free]
      obtain ⟨notPlain, notSpaced⟩ := not_or.mp (mt held.mpr (not_not.mpr free))
      simp only [notPlain, notSpaced, false_or, false_iff]
      constructor
      · intro sound marked
        obtain ⟨row, member, here, uses⟩ := consulted.mpr (.inr marked)
        have unused := sound.unused (by rw [outcome]) row member here
        exact Bool.noConfusion (uses.symm.trans unused)
      · intro notMarked
        have unused : ∀ row ∈ database.members, row.organizationId = organizationId →
            row.consults role = false := by
          intro row member here
          by_contra uses
          exact (consulted.mp ⟨row, member, here, by simpa using uses⟩).elim notPlain notMarked
        refine ⟨fun _ => unused, fun _ => ?_, ?_⟩
        · rw [outcome]
          exact memberPermissions_deleteMany unused
        · rw [outcome]
          exact fun never => nomatch never
    · have outcome : deleteUnlessHeld isSpace database organizationId role =
          (database, .inUse) := by
        simp [deleteUnlessHeld, found, free]
      have some := held.mp free
      constructor
      · intro sound
        rcases consulted.mp (sound.used (by rw [outcome])) with plain | marked
        · exact .inl plain
        · exact some.imp_right fun spaced => iff_of_true spaced marked
      · intro agree
        refine ⟨?_, ?_, fun _ => consulted.mpr ?_⟩
        · rw [outcome]
          exact fun never => nomatch never
        · rw [outcome]
          exact fun never => nomatch never
        · rcases agree with plain | agree
          · exact .inl plain
          · exact some.imp_right agree.mp

end

/-! ### Particular lists -/

/-- White space of a database whose locale is plain. -/
def asciiSpace (character : Char) : Bool :=
  character = ' ' || (9 ≤ character.toNat && character.toNat ≤ 13)

/-- An organization with one custom role and one member. -/
def oneMember (custom role : String) : AuthorizationDatabase where
  members := [⟨"organization", "user", role.toList⟩]
  organizationRoles := [⟨"organization", custom.toList, none⟩]
  apiKeys := []

/-- A member who holds the role among others. -/
theorem deletionSound_example : DeletionSound asciiSpace (oneMember "editor" "admin, editor ,")
    "organization" "editor".toList := by
  refine (deletionSound_iff (by decide)).mpr (.inr (.inl ?_))
  refine ⟨" editor ".toList, by decide, ⟨⟨by decide, by decide, by decide⟩, by decide⟩,
    by simp [asciiSpace], [' '], [' '], rfl, fun character member => ?_⟩
  obtain rfl : character = ' ' := by simpa using member
  decide

/-- A name with a blank inside keeps the role although nobody consults it; a mark before the name, or
a blank in the name itself, lets the role be deleted although the member has it. -/
theorem roles_parsed_apart :
    ¬ DeletionSound asciiSpace (oneMember "editor" "ed itor") "organization" "editor".toList ∧
      ¬ DeletionSound asciiSpace (oneMember "editor" "\uFEFFeditor") "organization"
        "editor".toList ∧
        ¬ DeletionSound asciiSpace (oneMember "support team" "support team") "organization"
          "support team".toList := by
  refine ⟨?_, ?_, ?_⟩
  · intro sound
    obtain ⟨row, member, -, consulted⟩ := sound.used (by decide)
    obtain rfl := List.mem_singleton.mp member
    exact absurd consulted (by decide)
  · intro sound
    have unused := sound.unused (by decide) _ List.mem_cons_self rfl
    exact absurd unused (by decide)
  · intro sound
    have unused := sound.unused (by decide) _ List.mem_cons_self rfl
    exact absurd unused (by decide)

end NestjsFastify.Authorization
