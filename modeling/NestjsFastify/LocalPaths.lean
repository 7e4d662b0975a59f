import NestjsFastify.PosixPath
import NestjsFastify.PresignedUrls

/-! # Where the local storage keeps its files

Below the root of the storage there is a directory for objects, one for their metadata and one for
temporary files.  The path of a file is joined from the root and the segments of a bucket and a key.
-/
namespace NestjsFastify.LocalPaths
open PosixPath
open PresignedUrls (segments isSegment isSegmentStart)
open ScriptText (join)

def defaultRoot : Path := "storage".toList

def objectsDir : Path := "objects".toList

def metaDir : Path := "meta".toList

def tmpDir : Path := "tmp".toList

/-- `this.root`; an empty setting counts as missing. -/
def storageRoot (directory : AbsolutePath) (setting : Option Path) : Path :=
  resolve directory ((setting.filter (· ≠ [])).getD defaultRoot)

structure ObjectLocation where
  objectPath : Path
  metaPath : Path

def locate (root bucket key : Path) : Except Failure ObjectLocation :=
  (segments bucket key).map fun parts =>
    { objectPath := joinPaths (root :: objectsDir :: bucket :: parts)
      metaPath := joinPaths (root :: metaDir :: bucket :: parts) ++ ".json".toList }

def bucketRoot (root bucket : Path) : Path := joinPaths [root, objectsDir, bucket]

/-- The key that `deleteObjectsOlderThan` removes for a file that it has found. -/
def rebuiltKey (root bucket objectPath : Path) : Path :=
  join '/' ((objectPath.drop ((bucketRoot root bucket).length + 1)).splitOn '/')

/-! ### The property -/

/-- The path is neither the directory of temporary files nor below it. -/
def NotTemporary (root path : Path) : Prop :=
  path ≠ joinPaths [root, tmpDir] ∧ ¬ StrictlyBelow (joinPaths [root, tmpDir]) path

structure Confined (root : Path) : Prop where
  object : ∀ bucket key location, locate root bucket key = .ok location →
    StrictlyBelow (joinPaths [root, objectsDir]) (bucketRoot root bucket) ∧
      StrictlyBelow (bucketRoot root bucket) location.objectPath ∧
      NotTemporary root location.objectPath
  metadata : ∀ bucket key location, locate root bucket key = .ok location →
    StrictlyBelow (joinPaths [root, metaDir]) (joinPaths [root, metaDir, bucket]) ∧
      StrictlyBelow (joinPaths [root, metaDir, bucket]) location.metaPath ∧
      NotTemporary root location.metaPath
  distinct : ∀ bucket key location other otherKey otherLocation,
    locate root bucket key = .ok location → locate root other otherKey = .ok otherLocation →
    location.objectPath = otherLocation.objectPath ∨ location.metaPath = otherLocation.metaPath →
      bucket = other ∧ key = otherKey
  rebuilt : ∀ bucket key location, locate root bucket key = .ok location →
    rebuiltKey root bucket location.objectPath = key
  /-- A file that is found is the object of the key that is rebuilt, if the key names one. -/
  found : ∀ bucket path location, StrictlyBelow (bucketRoot root bucket) path →
    locate root bucket (rebuiltKey root bucket path) = .ok location → location.objectPath = path

/-! ### Segments -/

variable {names parts : List Path} {bucket key : Path} {location : ObjectLocation}

theorem name_of_isSegment {part : Path} (valid : isSegment part = true) : Name part := by
  cases part with
  | nil => cases valid
  | cons first rest =>
    rw [isSegment, Bool.and_eq_true, List.all_eq_true] at valid
    have starts : first ≠ '.' := by
      rintro rfl
      exact absurd valid.1 (by decide)
    refine ⟨List.cons_ne_nil _ _, fun here => starts (List.cons.inj here).1,
      fun parent => starts (List.cons.inj parent).1, fun member => ?_⟩
    rcases List.mem_cons.mp member with rfl | own
    · exact absurd valid.1 (by decide)
    · exact absurd (valid.2 '/' own) (by decide)

theorem segments_eq_ok (accepted : segments bucket key = .ok parts) :
    Name bucket ∧ (∀ part ∈ parts, Name part) ∧ parts ≠ [] ∧ key = join '/' parts := by
  unfold segments at accepted
  dsimp only at accepted
  split_ifs at accepted with invalid
  cases accepted
  simp only [Bool.or_eq_true, Bool.not_eq_true', not_or, Bool.not_eq_false, List.all_eq_true]
    at invalid
  exact ⟨name_of_isSegment invalid.1, fun part own => name_of_isSegment (invalid.2 part own),
    List.splitOn_ne_nil _ _, (List.intercalate_splitOn '/').symm⟩

/-! ### Locations below a rooted path -/

theorem name_objectsDir : Name objectsDir := ⟨by decide, by decide, by decide, by decide⟩

theorem name_metaDir : Name metaDir := ⟨by decide, by decide, by decide, by decide⟩

theorem name_tmpDir : Name tmpDir := ⟨by decide, by decide, by decide, by decide⟩

theorem name_json {part : Path} (name : Name part) : Name (part ++ ".json".toList) := by
  have length : ∀ short : Path, short.length ≤ 2 → part ++ ".json".toList ≠ short := by
    rintro short few rfl
    rw [List.length_append] at few
    exact absurd few (by simp)
  refine ⟨length _ (by simp), length _ (by simp), length _ (by simp), fun member => ?_⟩
  rcases List.mem_append.mp member with own | extension
  · exact name.plain own
  · exact absurd extension (by decide)

theorem locate_of_segments {front : List Path} {last : Path} (all : ∀ name ∈ names, Name name)
    (accepted : segments bucket key = .ok (front ++ [last])) :
    locate (rooted names) bucket key =
      .ok ⟨rooted (names ++ objectsDir :: bucket :: (front ++ [last])),
        rooted (names ++ metaDir :: bucket :: (front ++ [last ++ ".json".toList]))⟩ := by
  obtain ⟨own, allParts, -, -⟩ := segments_eq_ok accepted
  have object := joinPaths_rooted all (List.forall_mem_cons.mpr
    ⟨name_objectsDir, List.forall_mem_cons.mpr ⟨own, allParts⟩⟩) (List.cons_ne_nil _ _)
  have metadata := joinPaths_rooted all (List.forall_mem_cons.mpr
    ⟨name_metaDir, List.forall_mem_cons.mpr ⟨own, allParts⟩⟩) (List.cons_ne_nil _ _)
  have extended := rooted_extend (names ++ metaDir :: bucket :: front) last ".json".toList
  simp only [List.append_assoc, List.cons_append] at extended
  rw [locate, accepted, Except.map, object, metadata, extended]

/-- The paths are those of the presigned URLs, in one text. -/
theorem locate_rooted (all : ∀ name ∈ names, Name name) :
    locate (rooted names) bucket key = (PresignedUrls.locate bucket key).map fun location =>
      ⟨rooted (names ++ location.objectPath), rooted (names ++ location.metaPath)⟩ := by
  cases accepted : segments bucket key with
  | error refusal => rw [locate, PresignedUrls.locate, accepted]; rfl
  | ok parts =>
    obtain ⟨front, last, rfl⟩ :=
      (List.eq_nil_or_concat' parts).resolve_left (segments_eq_ok accepted).2.2.1
    rw [locate_of_segments all accepted, PresignedUrls.locate, accepted]
    simp only [Except.map, List.dropLast_concat, List.getLast?_concat, Option.getD_some,
      List.cons_append]
    rfl

/-- What a key and its location are made of. -/
inductive Located (names : List Path) (bucket : Path) : Path → ObjectLocation → Prop
  | mk {front : List Path} {last : Path} (bucketName : Name bucket)
      (partNames : ∀ part ∈ front ++ [last], Name part) :
      Located names bucket (join '/' (front ++ [last]))
        ⟨rooted (names ++ objectsDir :: bucket :: (front ++ [last])),
          rooted (names ++ metaDir :: bucket :: (front ++ [last ++ ".json".toList]))⟩

theorem located_of_locate (all : ∀ name ∈ names, Name name)
    (located : locate (rooted names) bucket key = .ok location) :
    Located names bucket key location := by
  cases accepted : segments bucket key with
  | error refusal =>
    rw [locate, accepted] at located
    cases located
  | ok parts =>
    obtain ⟨own, allParts, some, rfl⟩ := segments_eq_ok accepted
    obtain ⟨front, last, rfl⟩ := (List.eq_nil_or_concat' parts).resolve_left some
    rw [locate_of_segments all accepted] at located
    cases located
    exact .mk own allParts

theorem bucketRoot_rooted (all : ∀ name ∈ names, Name name) (own : Name bucket) :
    bucketRoot (rooted names) bucket = rooted (names ++ [objectsDir, bucket]) :=
  joinPaths_rooted all (List.forall_mem_cons.mpr
    ⟨name_objectsDir, List.forall_mem_singleton.mpr own⟩) (List.cons_ne_nil _ _)

/-- What is behind the directory of the bucket is the key. -/
theorem rebuiltKey_below {root rest : Path} :
    rebuiltKey root bucket (bucketRoot root bucket ++ '/' :: rest) = rest := by
  rw [rebuiltKey, List.drop_append, List.drop_eq_nil_of_le (Nat.le_succ _)]
  simp [join, List.intercalate_splitOn]

theorem notTemporary_rooted {directory : Path} {rest : List Path} (all : ∀ name ∈ names, Name name)
    (own : ∀ name ∈ directory :: rest, Name name) (other : directory ≠ tmpDir) :
    NotTemporary (rooted names) (rooted (names ++ directory :: rest)) := by
  have temporary : joinPaths [rooted names, tmpDir] = rooted (names ++ [tmpDir]) :=
    joinPaths_rooted all (by simp [name_tmpDir]) (List.cons_ne_nil _ _)
  have apart : ∀ more : List Path, (∀ name ∈ more, Name name) →
      rooted (names ++ directory :: rest) ≠ rooted (names ++ tmpDir :: more) := by
    intro more allMore same
    have parts := rooted_injective (by simp) (by simp)
      (fun name member => ((List.mem_append.mp member).elim (all name) (own name)).plain)
      (fun name member => ((List.mem_append.mp member).elim (all name)
        (List.forall_mem_cons.mpr ⟨name_tmpDir, allMore⟩ name)).plain) same
    exact other (List.cons.inj (List.append_cancel_left parts)).1
  constructor
  · intro same
    exact apart [] (by simp) (same.trans temporary)
  · rintro ⟨more, someMore, allMore, same⟩
    refine apart more allMore (same.trans ?_)
    rw [temporary, ← rooted_append (by simp) someMore, List.append_assoc]
    rfl

/-- What has a bucket's directory of its own is below it. -/
theorem filed_rooted {directory : Path} {rest : List Path} (all : ∀ name ∈ names, Name name)
    (own : Name directory) (other : directory ≠ tmpDir) (bucketName : Name bucket)
    (someRest : rest ≠ []) (allRest : ∀ name ∈ rest, Name name) :
    StrictlyBelow (joinPaths [rooted names, directory]) (joinPaths [rooted names, directory, bucket]) ∧
      StrictlyBelow (joinPaths [rooted names, directory, bucket])
        (rooted (names ++ directory :: bucket :: rest)) ∧
      NotTemporary (rooted names) (rooted (names ++ directory :: bucket :: rest)) := by
  have upper : joinPaths [rooted names, directory] = rooted (names ++ [directory]) :=
    joinPaths_rooted all (by simp [own]) (List.cons_ne_nil _ _)
  have lower : joinPaths [rooted names, directory, bucket] = rooted (names ++ [directory, bucket]) :=
    joinPaths_rooted all (by simp [own, bucketName]) (List.cons_ne_nil _ _)
  have bucketBelow : StrictlyBelow (rooted (names ++ [directory]))
      (rooted (names ++ [directory] ++ [bucket])) :=
    strictlyBelow_rooted (by simp) (by simp) (by simp [bucketName])
  have below : StrictlyBelow (rooted (names ++ [directory, bucket]))
      (rooted (names ++ [directory, bucket] ++ rest)) :=
    strictlyBelow_rooted (by simp) someRest allRest
  rw [List.append_assoc] at bucketBelow below
  rw [upper, lower]
  exact ⟨bucketBelow, below, notTemporary_rooted all
    (List.forall_mem_cons.mpr ⟨own, List.forall_mem_cons.mpr ⟨bucketName, allRest⟩⟩) other⟩

theorem filed_inj {directory other : Path} {rest otherRest : List Path}
    (all : ∀ name ∈ names, Name name) (own : Name directory) (bucketName : Name bucket)
    (otherName : Name other) (allRest : ∀ name ∈ rest, Name name)
    (allOthers : ∀ name ∈ otherRest, Name name)
    (same : rooted (names ++ directory :: bucket :: rest) =
      rooted (names ++ directory :: other :: otherRest)) : bucket = other ∧ rest = otherRest := by
  have plain : ∀ {bucket rest}, Name bucket → (∀ name ∈ rest, Name name) →
      ∀ name ∈ names ++ directory :: bucket :: rest, '/' ∉ name := by
    intro bucket rest bucketName allRest name member
    rcases List.mem_append.mp member with above | below
    · exact (all name above).plain
    · exact (List.forall_mem_cons.mpr ⟨own, List.forall_mem_cons.mpr ⟨bucketName, allRest⟩⟩
        name below).plain
  have parts := rooted_injective (by simp) (by simp) (plain bucketName allRest)
    (plain otherName allOthers) same
  exact List.cons.inj (List.cons.inj (List.append_cancel_left parts)).2

/-- The path of an object is that of its bucket, a separator and the key. -/
theorem filed_path {rest : List Path} (all : ∀ name ∈ names, Name name) (own : Name bucket)
    (someRest : rest ≠ []) : bucketRoot (rooted names) bucket ++ '/' :: join '/' rest =
      rooted (names ++ objectsDir :: bucket :: rest) := by
  rw [bucketRoot_rooted all own, ← rooted_append (by simp) someRest, List.append_assoc]
  rfl

theorem metaNames {front : List Path} {last : Path} (parts : ∀ part ∈ front ++ [last], Name part) :
    ∀ part ∈ front ++ [last ++ ".json".toList], Name part := by
  intro part member
  rcases List.mem_append.mp member with inner | ending
  · exact parts part (List.mem_append_left _ inner)
  · rw [List.mem_singleton.mp ending]
    exact name_json (parts last (by simp))

/-! ### The paths are confined -/

theorem confined_storageRoot (directory : AbsolutePath) (setting : Option Path) :
    Confined (storageRoot directory setting) := by
  obtain ⟨names, all, root⟩ :=
    resolve_rooted directory ((setting.filter (· ≠ [])).getD defaultRoot)
  rw [storageRoot, root]
  refine ⟨?_, ?_, ?_, ?_, ?_⟩
  · intro bucket key location located
    obtain ⟨own, parts⟩ := located_of_locate all located
    exact filed_rooted all name_objectsDir (by decide) own (by simp) parts
  · intro bucket key location located
    obtain ⟨own, parts⟩ := located_of_locate all located
    exact filed_rooted all name_metaDir (by decide) own (by simp) (metaNames parts)
  · intro bucket key location other otherKey otherLocation located otherLocated same
    obtain ⟨own, parts⟩ := located_of_locate all located
    obtain ⟨otherOwn, otherParts⟩ := located_of_locate all otherLocated
    rcases same with object | metadata
    · obtain ⟨bucketSame, rest⟩ := filed_inj all name_objectsDir own otherOwn parts otherParts object
      exact ⟨bucketSame, congrArg (join '/') rest⟩
    · obtain ⟨bucketSame, rest⟩ := filed_inj all name_metaDir own otherOwn (metaNames parts)
        (metaNames otherParts) metadata
      obtain ⟨frontSame, lastSame⟩ := List.append_inj' rest rfl
      rw [frontSame, List.append_cancel_right (List.cons.inj lastSame).1]
      exact ⟨bucketSame, rfl⟩
  · intro bucket key location located
    obtain ⟨own, parts⟩ := located_of_locate all located
    rw [← filed_path all own (by simp), rebuiltKey_below]
  · intro bucket path location below located
    obtain ⟨more, someMore, allMore, rfl⟩ := below
    rw [rebuiltKey_below] at located
    generalize keyOf : join '/' more = key at located ⊢
    obtain ⟨own, parts⟩ := located_of_locate all located
    exact (filed_path all own (by simp)).symm

end NestjsFastify.LocalPaths
