import NestjsFastify.LocalObjects

/-! # Finalizing of uploads in the local storage

A confirmed upload is moved to its final key.  Its object is claimed by a rename to a temporary
file, checked, and committed at the final key; other uploads may overwrite the source key meanwhile,
and every step on the file system may fail.
-/
namespace NestjsFastify.LocalFinalize
open LengthPrefixedFraming (Bytes)
open LocalObjects

/-- SHA-256, taken to be free of collisions. -/
structure Sha256 where
  digest : Bytes → String
  injective : Function.Injective digest

/-- How far `finalize` has come, with the metadata that it has read. -/
inductive FinalizeStage where
  | started
  | found
  | read (metadata : StoredMeta)
  | claimed (metadata : StoredMeta)
  | verified (metadata : StoredMeta)
  | prepared (metadata : StoredMeta)
  | described (metadata : StoredMeta)
  | moved
  | restoring
  | restored
  | succeeded
  | failed
  deriving DecidableEq, Repr

/-- The stages in which the claimed object is to be moved on or put back. -/
def FinalizeStage.holds : FinalizeStage → Bool
  | .claimed _ => true
  | .verified _ => true
  | .prepared _ => true
  | .described _ => true
  | .restoring => true
  | _ => false

/-- The source key, the temporary file of the claimed object, and the files of the final key; also
the bytes that were claimed with the upload that had put them there, and the uploads that have put
their objects in place since `finalize` has begun. -/
structure State where
  key : Key
  stage : FinalizeStage := .started
  claimed : Option Bytes := none
  finalObject : Option Bytes := none
  finalMetadata : Option StoredMeta := none
  taken : Option Bytes := none
  takenBy : Option Nat := none
  newer : Nat → Bool := fun _ => false

/-- A step of an upload to the source key, or the next step of `finalize`, which may fail. -/
inductive Action where
  | upload (action : WriteAction)
  | finalize (fails : Bool)
  deriving DecidableEq, Repr

/-- The next step of `finalize` and of `restoreClaimed`. -/
def State.finalize (sha256 : Sha256) (expectedEtag : String) (state : State) (fails : Bool) :
    Option State :=
  match state.stage with
  | .started =>
      if fails ∨ state.key.object = none then some { state with stage := .failed }
      else some { state with stage := .found }
  | .found =>
      match state.key.metadata with
      | none => some { state with stage := .failed }
      | some metadata =>
          if fails ∨ metadata.etag ≠ expectedEtag then some { state with stage := .failed }
          else some { state with stage := .read metadata }
  | .read metadata =>
      match state.key.object with
      | none => some { state with stage := .failed }
      | some bytes =>
          if fails then some { state with stage := .failed }
          else some { state with
            key := { state.key with object := none }
            stage := .claimed metadata
            claimed := some bytes
            taken := some bytes
            takenBy := state.key.objectBy }
  | .claimed metadata =>
      if fails ∨ state.claimed.map (etagOf sha256.digest) ≠ some expectedEtag then
        some { state with stage := .restoring }
      else some { state with stage := .verified metadata }
  | .verified metadata =>
      if fails then some { state with stage := .restoring }
      else some { state with stage := .prepared metadata }
  | .prepared metadata =>
      if fails then some { state with stage := .restoring }
      else some { state with stage := .described metadata, finalMetadata := some metadata }
  | .described _ =>
      if fails then some { state with stage := .restoring }
      else some { state with stage := .moved, finalObject := state.claimed, claimed := none }
  | .moved =>
      if fails then some { state with stage := .succeeded }
      else some { state with key := { state.key with metadata := none }, stage := .succeeded }
  | .restoring =>
      -- the link fails where an object exists, which then stays
      if fails then some { state with stage := .failed }
      else some { state with
        key := { state.key with object := state.key.object.or state.claimed }
        stage := .restored }
  | .restored =>
      if fails then some { state with stage := .failed }
      else some { state with stage := .failed, claimed := none }
  | .succeeded => none
  | .failed => none

/-- An upload that puts its object in place once `finalize` has begun is newer. -/
def State.mark (state : State) : WriteAction → Nat → Bool
  | .renameObject id =>
      if state.stage = .started then state.newer else Function.update state.newer id true
  | _ => state.newer

def State.step (sha256 : Sha256) (expectedEtag : String) (state : State) : Action → Option State
  | .upload action => (state.key.step sha256.digest action).map fun key =>
      { state with key, newer := state.mark action }
  | .finalize fails => state.finalize sha256 expectedEtag fails

/-- Uploads to the source key while it is finalized to a fresh key. -/
def finalizeSystem (sha256 : Sha256) (before : Option (Stored sha256.digest))
    (expectedEtag : String) : TransitionSystem State Action where
  initial state := state =
    { key := { object := before.map Stored.bytes, metadata := before.map Stored.metadata } }
  step := State.step sha256 expectedEtag

/-- `head` of the final key. -/
def State.finalHead (state : State) : Option StoredMeta :=
  state.finalObject.bind fun _ => state.finalMetadata

/-- An upload has put its object at the source key since the claim. -/
def State.Replaced (state : State) : Prop :=
  ∃ id, state.key.objectBy = some id ∧ state.takenBy ≠ some id

/-! ## What is promised -/

/-- The final key has the expected object with its metadata, or nothing; then the claimed bytes are
kept unless they were replaced. -/
structure State.Finalized (sha256 : Sha256) (expectedEtag : String) (state : State) : Prop where
  success : state.stage = .succeeded → ∃ bytes metadata, state.finalObject = some bytes ∧
    state.finalMetadata = some metadata ∧ etagOf sha256.digest bytes = expectedEtag ∧
      Describes sha256.digest metadata bytes
  failure : state.stage = .failed → state.finalHead = none ∧ ∀ bytes, state.taken = some bytes →
    state.claimed = some bytes ∨ state.key.object = some bytes ∨ state.Replaced

/-- The object that a newer upload has put at the source key last is there, or is claimed and neither
moved on nor put back yet. -/
def State.KeepsContent (state : State) : Prop :=
  ∀ id, state.key.objectBy = some id → state.newer id = true → ∃ upload,
    state.key.uploads id = some upload ∧ (state.key.object = some upload.received ∨
      state.stage.holds = true ∧ state.claimed = some upload.received)

/-- The object that an upload has put at the source key last, and that was not claimed, is there. -/
def State.KeepsUnclaimed (state : State) : Prop :=
  ∀ id, state.key.objectBy = some id → state.takenBy ≠ some id → ∃ upload,
    state.key.uploads id = some upload ∧ state.key.object = some upload.received

/-- The metadata that a newer upload has put at the source key last are there. -/
def State.KeepsMetadata (sha256 : Sha256) (state : State) : Prop :=
  ∀ id, state.key.metadataBy = some id → state.newer id = true → ∃ upload,
    state.key.uploads id = some upload ∧
      state.key.metadata = some (upload.metadata sha256.digest)

/-- All that is promised of `finalize`. -/
structure State.Promised (sha256 : Sha256) (expectedEtag : String) (state : State) : Prop where
  finalized : state.Finalized sha256 expectedEtag
  content : state.KeepsContent
  metadata : state.KeepsMetadata sha256

/-- The claimed object is that of a newer upload, and no upload has put another in its place. -/
def State.HoldsNewer (state : State) : Prop :=
  ∃ id, state.key.objectBy = some id ∧ state.newer id = true ∧ state.takenBy = some id

/-- The object that `finalize` moves on, or fails to put back, is not that of a newer upload; and the
metadata that it removes are not those of a newer upload, or of one that still has to put its object
in place. -/
def SparesNewer (state : State) : Action → Prop
  | .finalize fails =>
      match state.stage with
      | .described _ => fails = false → ¬ state.HoldsNewer
      | .restoring => fails = true → ¬ state.HoldsNewer
      | .moved => fails = false → ∀ id, state.key.metadataBy = some id →
          state.newer id = false ∧ ¬ state.key.Between id
      | _ => True
  | .upload _ => True

/-! ## Steps of uploads -/

section
variable {digest : Bytes → String} {key next : Key} {action : WriteAction} {id : Nat}
  {upload : Upload}

/-- The upload has put its metadata in place. -/
def Sealed (stage : Stage) : Prop := stage = .renamed ∨ stage = .completed ∨ stage = .rejected

/-- Only the last rename changes the object. -/
theorem object_of_step (taken : Key.Step digest key action next) :
    ((∀ id, action ≠ .renameObject id) ∧ next.object = key.object ∧
        next.objectBy = key.objectBy) ∨
      ∃ id upload, action = .renameObject id ∧ next.objectBy = some id ∧
        next.uploads id = some upload ∧ upload.stage = .completed ∧
          next.object = some upload.temp := by
  cases taken with
  | @renameObject id upload known stage =>
    exact .inr ⟨id, { upload with stage := .completed }, rfl, rfl, Function.update_self .., rfl,
      rfl⟩
  | _ => exact .inl ⟨by simp, rfl, rfl⟩

/-- Only the first rename changes the metadata. -/
theorem metadata_of_step (taken : Key.Step digest key action next) :
    (next.metadata = key.metadata ∧ next.metadataBy = key.metadataBy) ∨
      ∃ id upload, next.metadataBy = some id ∧ next.uploads id = some upload ∧
        upload.stage = .renamed ∧ next.metadata = some (upload.metadata digest) := by
  cases taken with
  | @renameMetadata id upload known stage =>
    exact .inr ⟨id, { upload with stage := .renamed }, rfl, Function.update_self .., rfl, rfl⟩
  | _ => exact .inl ⟨rfl, rfl⟩

/-- An upload that has put its metadata in place only ends. -/
theorem sealed_of_step (taken : Key.Step digest key action next)
    (known : key.uploads id = some upload) (sealed : Sealed upload.stage) :
    ∃ stage, next.uploads id = some { upload with stage } ∧ Sealed stage ∧
      (upload.stage = .completed → stage = .completed) ∧
        (stage = .renamed → upload.stage = .renamed) := by
  have other {moving : Nat} {moved : Upload} (apart : id ≠ moving) :
      (key.put moving moved).uploads id = some { upload with stage := upload.stage } := by
    rw [Key.put_uploads, if_neg apart, known]
  have own {moving : Nat} {moved : Upload} (same : id = moving)
      (found : key.uploads moving = some moved) : moved = upload :=
    Option.some.inj (found.symm.trans (same ▸ known))
  have apart {moving : Nat} {moved : Upload} (found : key.uploads moving = some moved)
      (early : ¬ Sealed moved.stage) : id ≠ moving :=
    fun same => early (own same found ▸ sealed)
  have stays (unchanged : next.uploads id = some { upload with stage := upload.stage }) :
      ∃ stage, next.uploads id = some { upload with stage } ∧ Sealed stage ∧
        (upload.stage = .completed → stage = .completed) ∧
          (stage = .renamed → upload.stage = .renamed) :=
    ⟨upload.stage, unchanged, sealed, fun same => same, fun same => same⟩
  cases taken with
  | @start moving contentType limits fresh =>
    refine stays (other ?_)
    rintro rfl
    rw [known] at fresh
    cases fresh
  | chunk bytes found streams => exact stays (other (apart found (by simp [Sealed, streams])))
  | finish found streams => exact stays (other (apart found (by simp [Sealed, streams])))
  | prepare found stage => exact stays (other (apart found (by simp [Sealed, stage])))
  | renameMetadata found stage => exact stays (other (apart found (by simp [Sealed, stage])))
  | @renameObject moving moved found stage =>
    by_cases same : id = moving
    · obtain rfl := own same found
      subst same
      exact ⟨.completed, Function.update_self .., .inr (.inl rfl), fun _ => rfl, by simp⟩
    · exact stays (other same)
  | @fail moving moved found flies =>
    by_cases same : id = moving
    · obtain rfl := own same found
      subst same
      refine ⟨.rejected, Function.update_self .., .inr (.inr rfl), fun completed => ?_, by simp⟩
      simp [Upload.inFlight, completed] at flies
    · exact stays (other same)

end

/-! ## Owners of files -/

/-- The uploads that last put an object and metadata in place have done so. -/
structure Owned (key : Key) : Prop where
  metered : key.Metered
  object : ∀ id, key.objectBy = some id → ∃ upload, key.uploads id = some upload ∧
    upload.stage = .completed
  metadata : ∀ id, key.metadataBy = some id → ∃ upload, key.uploads id = some upload ∧
    Sealed upload.stage

section
variable {digest : Bytes → String} {key next : Key} {action : WriteAction}

theorem Owned.step (owned : Owned key) (taken : Key.Step digest key action next) : Owned next where
  metered := taken.metered owned.metered
  object := by
    intro id owns
    rcases object_of_step taken with ⟨-, -, same⟩ | ⟨other, upload, -, by', known, completed, -⟩
    · obtain ⟨upload, known, completed⟩ := owned.object id (same ▸ owns)
      obtain ⟨stage, after, -, done, -⟩ := sealed_of_step taken known (.inr (.inl completed))
      exact ⟨_, after, done completed⟩
    · obtain rfl := Option.some.inj (owns.symm.trans by')
      exact ⟨upload, known, completed⟩
  metadata := by
    intro id owns
    rcases metadata_of_step taken with ⟨-, same⟩ | ⟨other, upload, by', known, renamed, -⟩
    · obtain ⟨upload, known, sealed⟩ := owned.metadata id (same ▸ owns)
      obtain ⟨stage, after, later, -⟩ := sealed_of_step taken known sealed
      exact ⟨_, after, later⟩
    · obtain rfl := Option.some.inj (owns.symm.trans by')
      exact ⟨upload, known, .inl renamed⟩

/-- The metadata are those of the upload that put them there. -/
def InPlace (digest : Bytes → String) (key : Key) (id : Nat) : Prop :=
  ∃ upload, key.uploads id = some upload ∧ key.metadata = some (upload.metadata digest)

/-- Metadata stay in place until others are put there. -/
theorem InPlace.step {id : Nat} (inPlace : InPlace digest key id) (owned : Owned key)
    (owns : key.metadataBy = some id) (taken : Key.Step digest key action next) :
    next.metadataBy = some id → InPlace digest next id := by
  intro ownsAfter
  rcases metadata_of_step taken with ⟨same, -⟩ | ⟨other, upload, by', known, -, own⟩
  · obtain ⟨upload, known, metadata⟩ := inPlace
    obtain ⟨found, foundKnown, sealed⟩ := owned.metadata id owns
    obtain rfl := Option.some.inj (known.symm.trans foundKnown)
    obtain ⟨stage, after, -⟩ := sealed_of_step taken known sealed
    exact ⟨_, after, same.trans metadata⟩
  · obtain rfl := Option.some.inj (ownsAfter.symm.trans by')
    exact ⟨upload, known, own⟩

/-- The object of the upload that put it there. -/
def ContentInPlace (key : Key) (id : Nat) : Prop :=
  ∃ upload, key.uploads id = some upload ∧ key.object = some upload.temp

theorem ContentInPlace.step {id : Nat} (inPlace : ContentInPlace key id) (owned : Owned key)
    (owns : key.objectBy = some id) (taken : Key.Step digest key action next) :
    next.objectBy = some id → ContentInPlace next id := by
  intro ownsAfter
  rcases object_of_step taken with ⟨-, same, -⟩ | ⟨other, upload, -, by', known, -, own⟩
  · obtain ⟨upload, known, object⟩ := inPlace
    obtain ⟨found, foundKnown, completed⟩ := owned.object id owns
    obtain rfl := Option.some.inj (known.symm.trans foundKnown)
    obtain ⟨stage, after, -⟩ := sealed_of_step taken known (.inr (.inl completed))
    exact ⟨_, after, same.trans object⟩
  · obtain rfl := Option.some.inj (ownsAfter.symm.trans by')
    exact ⟨upload, known, own⟩

/-- Metadata at the key describe some bytes. -/
def Described (digest : Bytes → String) (key : Key) : Prop :=
  ∀ metadata, key.metadata = some metadata → ∃ bytes, Describes digest metadata bytes

theorem Described.step (described : Described digest key) (owned : Owned key)
    (taken : Key.Step digest key action next) : Described digest next := by
  intro metadata found
  rcases metadata_of_step taken with ⟨same, -⟩ | ⟨other, upload, -, known, renamed, own⟩
  · exact described metadata (same ▸ found)
  · obtain rfl := Option.some.inj (found.symm.trans own)
    have metered := taken.metered owned.metered other upload known
    exact ⟨upload.temp, metered.describes (by simp [renamed]) (by simp [renamed])⟩

end

/-! ## Facts about each stage -/

/-- The metadata have the expected ETag and describe some bytes. -/
def Matches (sha256 : Sha256) (expectedEtag : String) (metadata : StoredMeta) : Prop :=
  metadata.etag = expectedEtag ∧ ∃ bytes, Describes sha256.digest metadata bytes

/-- The source key has the bytes, unless an upload has replaced them since the claim. -/
def State.Has (state : State) (object : Option Bytes) : Prop :=
  state.key.object = object ∨ state.Replaced

/-- The claimed object is in its temporary file only. -/
def State.Holds (state : State) : Prop :=
  state.finalObject = none ∧ state.Has none ∧ ∃ bytes, state.claimed = some bytes ∧
    state.taken = some bytes

def State.Verified (sha256 : Sha256) (expectedEtag : String) (state : State) : Prop :=
  state.claimed.map (etagOf sha256.digest) = some expectedEtag

def State.Facts (sha256 : Sha256) (expectedEtag : String) (state : State) : Prop :=
  match state.stage with
  | .started => state.taken = none ∧ state.finalObject = none
  | .found => state.taken = none ∧ state.finalObject = none
  | .read metadata => state.taken = none ∧ state.finalObject = none ∧
      Matches sha256 expectedEtag metadata
  | .claimed metadata => state.Holds ∧ Matches sha256 expectedEtag metadata
  | .verified metadata => state.Holds ∧ Matches sha256 expectedEtag metadata ∧
      state.Verified sha256 expectedEtag
  | .prepared metadata => state.Holds ∧ Matches sha256 expectedEtag metadata ∧
      state.Verified sha256 expectedEtag
  | .described metadata => state.Holds ∧ Matches sha256 expectedEtag metadata ∧
      state.Verified sha256 expectedEtag ∧ state.finalMetadata = some metadata
  | .moved => ∃ bytes metadata, state.finalObject = some bytes ∧
      state.finalMetadata = some metadata ∧ etagOf sha256.digest bytes = expectedEtag ∧
        Matches sha256 expectedEtag metadata
  | .succeeded => ∃ bytes metadata, state.finalObject = some bytes ∧
      state.finalMetadata = some metadata ∧ etagOf sha256.digest bytes = expectedEtag ∧
        Matches sha256 expectedEtag metadata
  | .restoring => state.Holds
  | .restored => state.finalObject = none ∧ ∃ bytes, state.taken = some bytes ∧
      state.Has (some bytes)
  | .failed => state.finalObject = none ∧ ∀ bytes, state.taken = some bytes →
      state.claimed = some bytes ∨ state.Has (some bytes)

/-- What holds in every state. -/
structure State.Sound (sha256 : Sha256) (expectedEtag : String) (state : State) : Prop where
  owned : Owned state.key
  described : Described sha256.digest state.key
  unclaimed : state.taken = none → state.takenBy = none
  claimant : ∀ id, state.takenBy = some id → ∃ upload, state.key.uploads id = some upload ∧
    upload.stage = .completed
  content : ∀ id, state.key.objectBy = some id → state.takenBy ≠ some id →
    ContentInPlace state.key id
  metadata : state.stage ≠ .succeeded → ∀ id, state.key.metadataBy = some id →
    InPlace sha256.digest state.key id
  facts : state.Facts sha256 expectedEtag

section
variable {sha256 : Sha256} {expectedEtag : String} {state next : State}

/-- A step that leaves the source key alone. -/
theorem State.Sound.move (sound : state.Sound sha256 expectedEtag) (key : next.key = state.key)
    (taken : next.taken = state.taken) (takenBy : next.takenBy = state.takenBy)
    (early : state.stage ≠ .succeeded) (facts : next.Facts sha256 expectedEtag) :
    next.Sound sha256 expectedEtag where
  owned := key ▸ sound.owned
  described := key ▸ sound.described
  unclaimed := by
    rw [taken, takenBy]
    exact sound.unclaimed
  claimant := by
    rw [key, takenBy]
    exact sound.claimant
  content := by
    rw [key, takenBy]
    exact sound.content
  metadata := by
    rw [key]
    exact fun _ => sound.metadata early
  facts := facts

/-- The source key is told from its files and the claimed bytes only. -/
theorem State.Facts.mono (facts : state.Facts sha256 expectedEtag)
    (stage : next.stage = state.stage) (claimed : next.claimed = state.claimed)
    (finalObject : next.finalObject = state.finalObject)
    (finalMetadata : next.finalMetadata = state.finalMetadata) (taken : next.taken = state.taken)
    (has : ∀ bytes object, state.taken = some bytes → state.Has object → next.Has object) :
    next.Facts sha256 expectedEtag := by
  have holds (own : state.Holds) : next.Holds := by
    obtain ⟨nothing, empty, bytes, held, was⟩ := own
    exact ⟨finalObject.trans nothing, has bytes none was empty, bytes, claimed.trans held,
      taken.trans was⟩
  unfold State.Facts State.Verified at facts ⊢
  rw [stage, claimed, finalObject, finalMetadata, taken]
  cases own : state.stage <;> rw [own] at facts
  case claimed => exact ⟨holds facts.1, facts.2⟩
  case verified => exact ⟨holds facts.1, facts.2⟩
  case prepared => exact ⟨holds facts.1, facts.2⟩
  case described => exact ⟨holds facts.1, facts.2⟩
  case restoring => exact holds facts
  case restored =>
    obtain ⟨nothing, bytes, was, there⟩ := facts
    exact ⟨nothing, bytes, was, has bytes _ was there⟩
  case failed => exact ⟨facts.1, fun bytes was => (facts.2 bytes was).imp_right (has bytes _ was)⟩
  all_goals exact facts

/-! ## Every step is sound -/

/-- The upload whose object was claimed has ended, and puts none in place. -/
theorem State.Sound.takenBy_ne (sound : state.Sound sha256 expectedEtag) {id : Nat} {key : Key}
    (taken : Key.Step sha256.digest state.key (.renameObject id) key) : state.takenBy ≠ some id := by
  intro claimant
  obtain ⟨upload, known, completed⟩ := sound.claimant id claimant
  cases taken with
  | renameObject own renamed =>
    obtain rfl := Option.some.inj (known.symm.trans own)
    rw [completed] at renamed
    cases renamed

/-- An upload only replaces the object. -/
theorem State.Sound.has_of_upload (sound : state.Sound sha256 expectedEtag) {action : WriteAction}
    {key : Key} (taken : Key.Step sha256.digest state.key action key) {object : Option Bytes}
    (has : state.Has object) : State.Has { state with key, newer := state.mark action } object := by
  rcases object_of_step taken with ⟨-, same, by'⟩ | ⟨id, upload, rfl, by', -⟩
  · exact has.imp (fun there => same.trans there) fun ⟨id, owns, apart⟩ =>
      ⟨id, by'.trans owns, apart⟩
  · exact .inr ⟨id, by', sound.takenBy_ne taken⟩

theorem State.Sound.upload (sound : state.Sound sha256 expectedEtag) {action : WriteAction}
    {key : Key} (taken : Key.Step sha256.digest state.key action key) :
    State.Sound sha256 expectedEtag { state with key, newer := state.mark action } where
  owned := sound.owned.step taken
  described := sound.described.step sound.owned taken
  unclaimed := sound.unclaimed
  claimant := by
    intro id claimant
    obtain ⟨upload, known, completed⟩ := sound.claimant id claimant
    obtain ⟨stage, after, -, done, -⟩ := sealed_of_step taken known (.inr (.inl completed))
    exact ⟨_, after, done completed⟩
  content := by
    intro id owns apart
    rcases object_of_step taken with ⟨-, same, by'⟩ | ⟨moved, upload, -, by', known, -, own⟩
    · have before : state.key.objectBy = some id := by'.symm.trans owns
      exact (sound.content id before apart).step sound.owned before taken owns
    · obtain rfl := Option.some.inj (owns.symm.trans by')
      exact ⟨upload, known, own⟩
  metadata := by
    intro early id owns
    rcases metadata_of_step taken with ⟨same, by'⟩ | ⟨moved, upload, by', known, -, own⟩
    · have before : state.key.metadataBy = some id := by'.symm.trans owns
      exact (sound.metadata early id before).step sound.owned before taken owns
    · obtain rfl := Option.some.inj (owns.symm.trans by')
      exact ⟨upload, known, own⟩
  facts := sound.facts.mono rfl rfl rfl rfl rfl fun _ _ _ has => sound.has_of_upload taken has

/-- The claim takes the object away that was put there last. -/
theorem State.Sound.claim (sound : state.Sound sha256 expectedEtag) {metadata : StoredMeta}
    {bytes : Bytes} (stage : state.stage = .read metadata) :
    State.Sound sha256 expectedEtag { state with
      key := { state.key with object := none }
      stage := .claimed metadata
      claimed := some bytes
      taken := some bytes
      takenBy := state.key.objectBy } := by
  have facts := sound.facts
  simp only [State.Facts, stage] at facts
  obtain ⟨-, nothing, fits⟩ := facts
  exact
    { owned := ⟨sound.owned.metered, sound.owned.object, sound.owned.metadata⟩
      described := sound.described
      unclaimed := fun impossible => by cases impossible
      claimant := sound.owned.object
      content := fun id owns apart => absurd owns apart
      metadata := by
        intro _ id owns
        exact sound.metadata (by simp [stage]) id owns
      facts := ⟨⟨nothing, .inl rfl, bytes, rfl, rfl⟩, fits⟩ }

/-- The source metadata are removed after everything else is done. -/
theorem State.Sound.unlink (sound : state.Sound sha256 expectedEtag)
    (stage : state.stage = .moved) :
    State.Sound sha256 expectedEtag { state with
      key := { state.key with metadata := none }
      stage := .succeeded } := by
  have facts := sound.facts
  simp only [State.Facts, stage] at facts
  exact
    { owned := ⟨sound.owned.metered, sound.owned.object, sound.owned.metadata⟩
      described := fun _ impossible => by cases impossible
      unclaimed := sound.unclaimed
      claimant := sound.claimant
      content := sound.content
      metadata := fun impossible => absurd rfl impossible
      facts := facts }

/-- The link puts the claimed object back unless a newer one is there. -/
theorem State.Sound.link (sound : state.Sound sha256 expectedEtag)
    (stage : state.stage = .restoring) :
    State.Sound sha256 expectedEtag { state with
      key := { state.key with object := state.key.object.or state.claimed }
      stage := .restored } := by
  have facts := sound.facts
  simp only [State.Facts, stage] at facts
  obtain ⟨nothing, empty, bytes, held, was⟩ := facts
  refine
    { owned := ⟨sound.owned.metered, sound.owned.object, sound.owned.metadata⟩
      described := sound.described
      unclaimed := sound.unclaimed
      claimant := sound.claimant
      content := ?_
      metadata := fun _ => sound.metadata (by simp [stage])
      facts := ⟨nothing, bytes, was, ?_⟩ }
  · intro id owns apart
    obtain ⟨upload, known, object⟩ := sound.content id owns apart
    exact ⟨upload, known, by simp [object]⟩
  · refine empty.imp (fun none => ?_) fun replaced => replaced
    simp [none, held]

theorem State.Sound.finalize (sound : state.Sound sha256 expectedEtag) {fails : Bool}
    (taken : state.finalize sha256 expectedEtag fails = some next) :
    next.Sound sha256 expectedEtag := by
  have facts := sound.facts
  unfold State.Facts at facts
  unfold State.finalize at taken
  cases stage : state.stage with
  | started =>
    simp only [stage] at taken facts
    split_ifs at taken with refused <;> obtain rfl := Option.some.inj taken
    · exact sound.move rfl rfl rfl (by simp [stage]) ⟨facts.2, by simp [facts.1]⟩
    · exact sound.move rfl rfl rfl (by simp [stage]) facts
  | found =>
    simp only [stage] at taken facts
    have missing : State.Facts sha256 expectedEtag { state with stage := .failed } :=
      ⟨facts.2, by simp [facts.1]⟩
    cases own : state.key.metadata with
    | none =>
      rw [own] at taken
      obtain rfl := Option.some.inj taken
      exact sound.move rfl rfl rfl (by simp [stage]) missing
    | some metadata =>
      simp only [own] at taken
      split_ifs at taken with refused <;> obtain rfl := Option.some.inj taken
      · exact sound.move rfl rfl rfl (by simp [stage]) missing
      · rw [not_or, not_not] at refused
        exact sound.move rfl rfl rfl (by simp [stage])
          ⟨facts.1, facts.2, refused.2, sound.described metadata own⟩
  | read metadata =>
    simp only [stage] at taken facts
    have missing : State.Facts sha256 expectedEtag { state with stage := .failed } :=
      ⟨facts.2.1, by simp [facts.1]⟩
    cases own : state.key.object with
    | none =>
      rw [own] at taken
      obtain rfl := Option.some.inj taken
      exact sound.move rfl rfl rfl (by simp [stage]) missing
    | some bytes =>
      simp only [own] at taken
      split_ifs at taken with refused <;> obtain rfl := Option.some.inj taken
      · exact sound.move rfl rfl rfl (by simp [stage]) missing
      · exact sound.claim stage
  | claimed metadata =>
    simp only [stage] at taken facts
    split_ifs at taken with refused <;> obtain rfl := Option.some.inj taken
    · exact sound.move rfl rfl rfl (by simp [stage]) facts.1
    · rw [not_or, not_not] at refused
      exact sound.move rfl rfl rfl (by simp [stage]) ⟨facts.1, facts.2, refused.2⟩
  | verified metadata =>
    simp only [stage] at taken facts
    split_ifs at taken with refused <;> obtain rfl := Option.some.inj taken
    · exact sound.move rfl rfl rfl (by simp [stage]) facts.1
    · exact sound.move rfl rfl rfl (by simp [stage]) facts
  | prepared metadata =>
    simp only [stage] at taken facts
    split_ifs at taken with refused <;> obtain rfl := Option.some.inj taken
    · exact sound.move rfl rfl rfl (by simp [stage]) facts.1
    · exact sound.move rfl rfl rfl (by simp [stage]) ⟨facts.1, facts.2.1, facts.2.2, rfl⟩
  | described metadata =>
    simp only [stage] at taken facts
    split_ifs at taken with refused <;> obtain rfl := Option.some.inj taken
    · exact sound.move rfl rfl rfl (by simp [stage]) facts.1
    · obtain ⟨⟨-, -, bytes, held, -⟩, fits, verified, written⟩ := facts
      rw [State.Verified, held, Option.map_some, Option.some.injEq] at verified
      exact sound.move rfl rfl rfl (by simp [stage])
        ⟨bytes, metadata, held, written, verified, fits⟩
  | moved =>
    simp only [stage] at taken facts
    split_ifs at taken with refused <;> obtain rfl := Option.some.inj taken
    · exact sound.move rfl rfl rfl (by simp [stage]) facts
    · exact sound.unlink stage
  | restoring =>
    simp only [stage] at taken facts
    split_ifs at taken with refused <;> obtain rfl := Option.some.inj taken
    · obtain ⟨nothing, -, bytes, held, was⟩ := facts
      refine sound.move rfl rfl rfl (by simp [stage]) ⟨nothing, fun other same => .inl ?_⟩
      exact held.trans (was.symm.trans same)
    · exact sound.link stage
  | restored =>
    simp only [stage] at taken facts
    obtain ⟨nothing, bytes, was, has⟩ := facts
    have kept (other : Bytes) (same : state.taken = some other) : state.Has (some other) :=
      was.symm.trans same ▸ has
    split_ifs at taken with refused <;> obtain rfl := Option.some.inj taken
    all_goals
      exact sound.move rfl rfl rfl (by simp [stage])
        ⟨nothing, fun other own => .inr (kept other own)⟩
  | succeeded =>
    simp only [stage] at taken
    cases taken
  | failed =>
    simp only [stage] at taken
    cases taken

/-! ## Metadata of newer uploads -/

/-- The metadata of an upload that has put its object in place since `finalize` has begun, or still has
to, are there unless others were put in their place. -/
def State.Current (sha256 : Sha256) (state : State) : Prop :=
  ∀ id, state.key.metadataBy = some id → state.newer id = true ∨ state.key.Between id →
    InPlace sha256.digest state.key id

/-- Between its renames was who is there after a step that left the metadata alone, and who becomes
newer. -/
theorem between_of_step {digest : Bytes → String} {key after : Key} {action : WriteAction}
    {id : Nat} (taken : Key.Step digest key action after) (owned : Owned key)
    (owns : key.metadataBy = some id) :
    (after.Between id → key.Between id) ∧ (action = .renameObject id → key.Between id) := by
  obtain ⟨upload, known, sealed⟩ := owned.metadata id owns
  constructor
  · rintro ⟨found, foundKnown, renamed⟩
    obtain ⟨stage, later, -, -, back⟩ := sealed_of_step taken known sealed
    obtain rfl := Option.some.inj (foundKnown.symm.trans later)
    exact ⟨upload, known, back renamed⟩
  · rintro rfl
    cases taken with
    | renameObject own renamed => exact ⟨_, own, renamed⟩

theorem State.newer_of_mark {action : WriteAction} {id : Nat}
    (marked : state.mark action id = true) :
    state.newer id = true ∨ action = .renameObject id := by
  cases action with
  | renameObject moved =>
    by_cases same : id = moved
    · exact .inr (by rw [same])
    · refine .inl ?_
      simp only [State.mark] at marked
      split_ifs at marked
      · exact marked
      · rwa [Function.update_of_ne same] at marked
  | _ => exact .inl marked

theorem State.Current.upload (current : state.Current sha256)
    (sound : state.Sound sha256 expectedEtag) {action : WriteAction} {key : Key}
    (taken : Key.Step sha256.digest state.key action key) :
    State.Current sha256 { state with key, newer := state.mark action } := by
  intro id owns either
  rcases metadata_of_step taken with ⟨same, by'⟩ | ⟨moved, upload, by', known, -, own⟩
  · have before : state.key.metadataBy = some id := by'.symm.trans owns
    obtain ⟨stays, renames⟩ := between_of_step taken sound.owned before
    refine InPlace.step (current id before ?_) sound.owned before taken owns
    rcases either with newer | between
    · exact (State.newer_of_mark newer).imp_right renames
    · exact .inr (stays between)
  · obtain rfl := Option.some.inj (owns.symm.trans by')
    exact ⟨upload, known, own⟩

/-- `finalize` removes no metadata but those of the source key, at its end. -/
theorem State.finalize_frame {fails : Bool}
    (taken : state.finalize sha256 expectedEtag fails = some next) :
    next.key.uploads = state.key.uploads ∧ next.key.metadataBy = state.key.metadataBy ∧
      next.newer = state.newer ∧
        (next.key.metadata = state.key.metadata ∨ state.stage = .moved ∧ fails = false) := by
  unfold State.finalize at taken
  repeat' split at taken
  all_goals first
    | cases taken
      done
    | obtain rfl := Option.some.inj taken
      simp_all

theorem State.Current.finalize (current : state.Current sha256) {fails : Bool}
    (spares : SparesNewer state (.finalize fails))
    (taken : state.finalize sha256 expectedEtag fails = some next) : next.Current sha256 := by
  obtain ⟨uploads, owner, newer, metadata⟩ := state.finalize_frame taken
  intro id owns either
  rw [owner] at owns
  have before : state.newer id = true ∨ state.key.Between id := by
    rw [newer] at either
    exact either.imp_right fun ⟨upload, known, renamed⟩ => ⟨upload, uploads ▸ known, renamed⟩
  rcases metadata with same | ⟨moved, rfl⟩
  · obtain ⟨upload, known, own⟩ := current id owns before
    exact ⟨upload, uploads.symm ▸ known, same.trans own⟩
  · simp only [SparesNewer, moved] at spares
    obtain ⟨old, settled⟩ := spares trivial id owns
    exact (before.elim (by simp [old]) settled).elim

/-! ## Objects of newer uploads -/

/-- The claimed object of a newer upload is held, or is back, unless an upload has replaced it. -/
def State.Retained (state : State) : Prop :=
  ∀ id, state.key.objectBy = some id → state.newer id = true → state.takenBy = some id →
    ∃ upload, state.key.uploads id = some upload ∧ (state.key.object = some upload.temp ∨
      state.stage.holds = true ∧ state.claimed = some upload.temp)

theorem State.Retained.upload (retained : state.Retained)
    (sound : state.Sound sha256 expectedEtag) {action : WriteAction} {key : Key}
    (taken : Key.Step sha256.digest state.key action key) :
    State.Retained { state with key, newer := state.mark action } := by
  intro id owns newer claimant
  rcases object_of_step taken with ⟨other, same, by'⟩ | ⟨moved, upload, rfl, by', -⟩
  · have before : state.key.objectBy = some id := by'.symm.trans owns
    have was : state.newer id = true :=
      (State.newer_of_mark newer).resolve_right (other id)
    obtain ⟨upload, known, there⟩ := retained id before was claimant
    obtain ⟨found, again, completed⟩ := sound.claimant id claimant
    obtain rfl := Option.some.inj (known.symm.trans again)
    obtain ⟨stage, after, -⟩ := sealed_of_step taken known (.inr (.inl completed))
    exact ⟨_, after, there.imp_left same.trans⟩
  · obtain rfl := Option.some.inj (owns.symm.trans by')
    exact absurd claimant (sound.takenBy_ne taken)

/-- A step that leaves the source key, the claim and what it holds alone. -/
theorem State.Retained.move (retained : state.Retained) (key : next.key = state.key)
    (newer : next.newer = state.newer) (takenBy : next.takenBy = state.takenBy)
    (held : state.stage.holds = true → next.stage.holds = true ∧ next.claimed = state.claimed) :
    next.Retained := by
  intro id owns isNewer claimant
  obtain ⟨upload, known, there⟩ :=
    retained id (key ▸ owns) (newer ▸ isNewer) (takenBy.symm.trans claimant)
  rw [key]
  exact ⟨upload, known, there.imp_right fun ⟨holds, own⟩ =>
    ⟨(held holds).1, (held holds).2.trans own⟩⟩

/-- A state in which no object of a newer upload is claimed. -/
theorem State.retained_of_not_holdsNewer (spares : ¬ state.HoldsNewer) : state.Retained :=
  fun id owns newer claimant => absurd ⟨id, owns, newer, claimant⟩ spares

theorem State.Retained.finalize (retained : state.Retained)
    (sound : state.Sound sha256 expectedEtag) {fails : Bool}
    (spares : SparesNewer state (.finalize fails))
    (taken : state.finalize sha256 expectedEtag fails = some next) : next.Retained := by
  unfold State.finalize at taken
  unfold SparesNewer at spares
  cases stage : state.stage with
  | read metadata =>
    simp only [stage] at taken
    cases own : state.key.object with
    | none =>
      rw [own] at taken
      obtain rfl := Option.some.inj taken
      exact retained.move rfl rfl rfl (by simp [stage, FinalizeStage.holds])
    | some bytes =>
      simp only [own] at taken
      split_ifs at taken <;> obtain rfl := Option.some.inj taken
      · exact retained.move rfl rfl rfl (by simp [stage, FinalizeStage.holds])
      · have facts := sound.facts
        simp only [State.Facts, stage] at facts
        intro id owns _ _
        obtain ⟨upload, known, there⟩ :=
          sound.content id owns (by simp [sound.unclaimed facts.1])
        exact ⟨upload, known, .inr ⟨rfl, own.symm.trans there⟩⟩
  | described metadata =>
    simp only [stage] at taken spares
    split_ifs at taken with refused <;> obtain rfl := Option.some.inj taken
    · exact retained.move rfl rfl rfl (by simp [FinalizeStage.holds])
    · exact State.retained_of_not_holdsNewer (spares (by simpa using refused))
  | moved =>
    simp only [stage] at taken
    split_ifs at taken <;> obtain rfl := Option.some.inj taken
    · exact retained.move rfl rfl rfl (by simp [stage, FinalizeStage.holds])
    · intro id owns newer claimant
      obtain ⟨upload, known, there⟩ := retained id owns newer claimant
      refine ⟨upload, known, .inl (there.resolve_right ?_)⟩
      simp [stage, FinalizeStage.holds]
  | restoring =>
    simp only [stage] at taken spares
    split_ifs at taken with refused <;> obtain rfl := Option.some.inj taken
    · exact State.retained_of_not_holdsNewer (spares (by simpa using refused))
    · have facts := sound.facts
      simp only [State.Facts, stage] at facts
      obtain ⟨-, empty, -⟩ := facts
      intro id owns newer claimant
      obtain ⟨upload, known, there⟩ := retained id owns newer claimant
      refine ⟨upload, known, .inl ?_⟩
      -- nothing has replaced the claimed object, so that the link puts it back
      have none : state.key.object = none := by
        refine empty.resolve_right ?_
        rintro ⟨other, by', apart⟩
        obtain rfl := Option.some.inj (owns.symm.trans by')
        exact apart claimant
      rw [none] at there
      obtain ⟨-, held⟩ := there.resolve_left (fun impossible => nomatch impossible)
      simp [none, held]
  | _ =>
    simp only [stage] at taken
    repeat' split at taken
    all_goals first
      | cases taken
        done
      | obtain rfl := Option.some.inj taken
        exact retained.move rfl rfl rfl (by simp [stage, FinalizeStage.holds])

end

/-! ## The laws of finalizing -/

section
variable {sha256 : Sha256} {before : Option (Stored sha256.digest)} {expectedEtag : String}
  {history : List (State × Action)} {state : State}

theorem State.Sound.step (sound : state.Sound sha256 expectedEtag) {action : Action} {next : State}
    (taken : state.step sha256 expectedEtag action = some next) :
    next.Sound sha256 expectedEtag := by
  cases action with
  | upload action =>
    obtain ⟨key, moved, rfl⟩ := Option.map_eq_some_iff.mp taken
    exact sound.upload (.of_step moved)
  | finalize fails => exact sound.finalize taken

theorem sound_of_run (run : (finalizeSystem sha256 before expectedEtag).Run history state) :
    state.Sound sha256 expectedEtag := by
  refine run.invariant ?_ fun _ _ _ sound taken => sound.step taken
  rintro _ rfl
  exact
    { owned :=
        { metered := fun _ _ known => by cases known
          object := fun _ owns => by cases owns
          metadata := fun _ owns => by cases owns }
      described := by
        intro metadata found
        obtain ⟨stored, -, rfl⟩ := Option.map_eq_some_iff.mp found
        exact ⟨stored.bytes, stored.described⟩
      unclaimed := fun _ => rfl
      claimant := fun _ claimant => by cases claimant
      content := fun _ owns => by cases owns
      metadata := fun _ _ owns => by cases owns
      facts := ⟨rfl, rfl⟩ }

/-- What newer uploads have put in place is kept along a run whose steps spare it. -/
theorem kept_of_run (run : (finalizeSystem sha256 before expectedEtag).Run history state)
    (spares : TransitionSystem.Guarded SparesNewer history) :
    state.Current sha256 ∧ state.Retained := by
  have all : state.Sound sha256 expectedEtag ∧ state.Current sha256 ∧ state.Retained := by
    refine @TransitionSystem.Run.guardedInvariant _ _ _ _ _ SparesNewer
      (fun state => state.Sound sha256 expectedEtag ∧ state.Current sha256 ∧ state.Retained)
      ?_ ?_ run spares
    · rintro start initial
      refine ⟨sound_of_run (.start initial), ?_⟩
      obtain rfl := initial
      exact ⟨fun _ owns => (nomatch owns), fun _ owns => (nomatch owns)⟩
    · rintro earlier action later guard ⟨sound, current, retained⟩ taken
      refine ⟨sound.step taken, ?_⟩
      cases action with
      | upload action =>
        obtain ⟨key, moved, rfl⟩ := Option.map_eq_some_iff.mp taken
        exact ⟨current.upload sound (.of_step moved), retained.upload sound (.of_step moved)⟩
      | finalize fails =>
        exact ⟨current.finalize guard taken, retained.finalize sound guard taken⟩
  exact all.2

/-- Equal ETags are those of equal bytes. -/
theorem etagOf_injective (sha256 : Sha256) : Function.Injective (etagOf sha256.digest) := by
  intro bytes other same
  unfold etagOf at same
  exact sha256.injective (by simpa using same)

theorem State.Sound.finalized (sound : state.Sound sha256 expectedEtag) :
    state.Finalized sha256 expectedEtag where
  success := by
    intro stage
    have facts := sound.facts
    simp only [State.Facts, stage] at facts
    obtain ⟨bytes, metadata, object, written, verified, etag, other, described⟩ := facts
    have same : other = bytes :=
      etagOf_injective sha256 (described.2.symm.trans (etag.trans verified.symm))
    exact ⟨bytes, metadata, object, written, verified, same ▸ described⟩
  failure := by
    intro stage
    have facts := sound.facts
    simp only [State.Facts, stage] at facts
    exact ⟨by rw [State.finalHead, facts.1, Option.bind_none], facts.2⟩

/-- What an upload that has ended put in place is what it received. -/
theorem State.Sound.received (sound : state.Sound sha256 expectedEtag) {id : Nat} {upload : Upload}
    (known : state.key.uploads id = some upload) (owns : state.key.objectBy = some id) :
    upload.temp = upload.received := by
  obtain ⟨found, same, completed⟩ := sound.owned.object id owns
  obtain rfl := Option.some.inj (known.symm.trans same)
  exact ((sound.owned.metered id upload known).within (by simp [completed])
    (by simp [completed])).2

theorem State.Sound.keepsUnclaimed (sound : state.Sound sha256 expectedEtag) :
    state.KeepsUnclaimed := by
  intro id owns apart
  obtain ⟨upload, known, object⟩ := sound.content id owns apart
  exact ⟨upload, known, sound.received known owns ▸ object⟩

theorem State.Sound.keepsContent (sound : state.Sound sha256 expectedEtag)
    (retained : state.Retained) : state.KeepsContent := by
  intro id owns newer
  by_cases claimant : state.takenBy = some id
  · obtain ⟨upload, known, there⟩ := retained id owns newer claimant
    rw [sound.received known owns] at there
    exact ⟨upload, known, there⟩
  · obtain ⟨upload, known, object⟩ := sound.keepsUnclaimed id owns claimant
    exact ⟨upload, known, .inl object⟩

end

structure FinalizeLaws (sha256 : Sha256) (before : Option (Stored sha256.digest))
    (expectedEtag : String) : Prop where
  promised : ∀ history state, (finalizeSystem sha256 before expectedEtag).Run history state →
    TransitionSystem.Guarded SparesNewer history → state.Promised sha256 expectedEtag
  always : ∀ history state, (finalizeSystem sha256 before expectedEtag).Run history state →
    state.Finalized sha256 expectedEtag ∧ state.KeepsUnclaimed
  unfinished : ∀ history state, (finalizeSystem sha256 before expectedEtag).Run history state →
    state.stage ≠ .succeeded → state.KeepsMetadata sha256

/-- Whatever fails, the final key has the verified object or none, the claimed bytes are not lost
and an upload keeps the object that it puts in place after the claim.  A newer upload keeps its
object and its metadata unless `finalize` moves the object on, cannot put it back or removes the
metadata at its end. -/
theorem finalizeLaws (sha256 : Sha256) (before : Option (Stored sha256.digest))
    (expectedEtag : String) : FinalizeLaws sha256 before expectedEtag where
  promised _ _ run spares :=
    have sound := sound_of_run run
    have kept := kept_of_run run spares
    ⟨sound.finalized, sound.keepsContent kept.2,
      fun id owns newer => kept.1 id owns (.inl newer)⟩
  always _ _ run := ⟨(sound_of_run run).finalized, (sound_of_run run).keepsUnclaimed⟩
  unfinished _ _ run unfinished id owns _ := (sound_of_run run).metadata unfinished id owns

/-! ## An overwritten source -/

theorem plainDigest_injective : Function.Injective plainDigest := by
  have characters : Function.Injective fun byte : UInt8 => Char.ofNat byte.toNat := by
    intro byte other same
    have read (byte : UInt8) : (Char.ofNat byte.toNat).toNat = byte.toNat := by
      have small := byte.toNat_lt
      have valid : byte.toNat.isValidChar := .inl (by omega)
      rw [Char.ofNat, dif_pos valid]
      rfl
    refine UInt8.toNat_inj.mp ((read byte).symm.trans ?_)
    exact (congrArg Char.toNat same).trans (read other)
  intro bytes other same
  exact characters.list_map (String.ofList_injective same)

def plainSha256 : Sha256 := ⟨plainDigest, plainDigest_injective⟩

/-- The object that is finalized. -/
def confirmed : Stored plainDigest := ⟨[97], ⟨"text/plain", 1, "\"a\""⟩, rfl, by decide⟩

/-- All steps of an upload. -/
def uploadActions (id : Nat) (contentType : String) (byte : UInt8) : List Action :=
  [.upload (.start id (some contentType) ⟨1, 1⟩), .upload (.chunk id [byte]), .upload (.finish id),
    .upload (.prepare id), .upload (.renameMetadata id), .upload (.renameObject id)]

/-- The upload that an object or metadata are of is newer. -/
def State.isNewer (state : State) (owner : Option Nat) : Bool := owner.any state.newer

def sparesNewer (state : State) : Action → Bool
  | .finalize fails =>
      match state.stage with
      | .described _ => fails || !(state.isNewer state.key.objectBy &&
          state.takenBy = state.key.objectBy)
      | .restoring => !fails || !(state.isNewer state.key.objectBy &&
          state.takenBy = state.key.objectBy)
      | .moved => fails || !(state.isNewer state.key.metadataBy ||
          (state.key.metadataBy.bind state.key.uploads).any fun upload => upload.stage = .renamed)
      | _ => true
  | .upload _ => true

theorem sparesNewer_sound (state : State) (action : Action)
    (passes : sparesNewer state action = true) : SparesNewer state action := by
  have apart (own : (state.isNewer state.key.objectBy &&
      decide (state.takenBy = state.key.objectBy)) = false) : ¬ state.HoldsNewer := by
    rintro ⟨id, owns, newer, claimant⟩
    simp [State.isNewer, owns, newer, claimant] at own
  cases action with
  | upload action => trivial
  | finalize fails =>
    cases stage : state.stage with
    | described metadata =>
      simp only [sparesNewer, SparesNewer, stage] at passes ⊢
      rintro rfl
      exact apart (by simpa only [Bool.not_true, Bool.false_or, Bool.not_eq_true'] using passes)
    | restoring =>
      simp only [sparesNewer, SparesNewer, stage] at passes ⊢
      rintro rfl
      exact apart (by simpa only [Bool.not_true, Bool.false_or, Bool.not_eq_true'] using passes)
    | moved =>
      simp only [sparesNewer, SparesNewer, stage] at passes ⊢
      rintro rfl id owns
      simp only [State.isNewer, owns, Option.any_some, Bool.false_or, Bool.not_eq_true',
        Bool.or_eq_false_iff, Option.bind_some] at passes
      refine ⟨passes.1, ?_⟩
      rintro ⟨upload, known, renamed⟩
      simp [known, renamed] at passes
    | _ => simp only [SparesNewer, stage]

/-- The source key holds the confirmed object. -/
def confirmedKey : State :=
  { key := { object := some [97], metadata := some ⟨"text/plain", 1, "\"a\""⟩ } }

/-- An upload puts another object in place before the claim, and gets it back. -/
theorem finalizeLaws_example : ∃ history state,
    (finalizeSystem plainSha256 (some confirmed) "\"a\"").Run history state ∧
      TransitionSystem.Guarded SparesNewer history ∧ state.stage = .failed ∧
        state.newer 0 = true ∧ state.takenBy = some 0 ∧
          state.Promised plainSha256 "\"a\"" := by
  obtain ⟨history, state, run, spares, -, reached⟩ :=
    @TransitionSystem.run_of_execute _ _ (finalizeSystem plainSha256 (some confirmed) "\"a\"")
      sparesNewer SparesNewer sparesNewer_sound confirmedKey
      (List.replicate 2 (.finalize false) ++ uploadActions 0 "image/png" 98 ++
        List.replicate 4 (.finalize false))
      (fun state => state.stage = .failed && (state.newer 0 && state.takenBy = some 0)) rfl
      (by decide)
  simp only [Bool.and_eq_true, decide_eq_true_eq] at reached
  exact ⟨history, state, run, spares, reached.1, reached.2.1, reached.2.2,
    (finalizeLaws plainSha256 (some confirmed) "\"a\"").promised history state run spares⟩

/-- An upload after the claim loses its metadata; one of the same bytes before the claim loses its
object; and one of other bytes loses its object when it cannot be put back. -/
theorem newer_uploads_lost :
    (¬ ∀ history state, (finalizeSystem plainSha256 (some confirmed) "\"a\"").Run history state →
      state.KeepsMetadata plainSha256) ∧
    (¬ ∀ history state, (finalizeSystem plainSha256 (some confirmed) "\"a\"").Run history state →
      state.stage = .succeeded → state.KeepsContent) ∧
    ¬ ∀ history state, (finalizeSystem plainSha256 (some confirmed) "\"a\"").Run history state →
      state.stage = .failed → state.KeepsContent := by
  refine ⟨fun keeps => ?_, fun keeps => ?_, fun keeps => ?_⟩
  · obtain ⟨history, state, run, -, -, lost⟩ :=
      @TransitionSystem.run_of_execute _ _ (finalizeSystem plainSha256 (some confirmed) "\"a\"")
        (fun _ _ => true) (fun _ _ => True) (fun _ _ _ => trivial) confirmedKey
        (List.replicate 7 (.finalize false) ++ uploadActions 0 "image/png" 98 ++ [.finalize false])
        (fun state => state.key.metadataBy = some 0 && (state.newer 0 && state.key.metadata = none))
        rfl (by decide)
    simp only [Bool.and_eq_true, decide_eq_true_eq] at lost
    obtain ⟨upload, -, there⟩ := keeps history state run 0 lost.1 lost.2.1
    rw [lost.2.2] at there
    cases there
  · obtain ⟨history, state, run, -, -, lost⟩ :=
      @TransitionSystem.run_of_execute _ _ (finalizeSystem plainSha256 (some confirmed) "\"a\"")
        (fun _ _ => true) (fun _ _ => True) (fun _ _ _ => trivial) confirmedKey
        (List.replicate 2 (.finalize false) ++ uploadActions 0 "image/png" 97 ++
          List.replicate 6 (.finalize false))
        (fun state => state.stage = .succeeded && (state.key.objectBy = some 0 &&
          (state.newer 0 && state.key.object = none))) rfl (by decide)
    simp only [Bool.and_eq_true, decide_eq_true_eq] at lost
    obtain ⟨upload, -, there⟩ := keeps history state run lost.1 0 lost.2.1 lost.2.2.1
    simp [lost.1, lost.2.2.2, FinalizeStage.holds] at there
  · obtain ⟨history, state, run, -, -, lost⟩ :=
      @TransitionSystem.run_of_execute _ _ (finalizeSystem plainSha256 (some confirmed) "\"a\"")
        (fun _ _ => true) (fun _ _ => True) (fun _ _ _ => trivial) confirmedKey
        (List.replicate 2 (.finalize false) ++ uploadActions 0 "image/png" 98 ++
          [.finalize false, .finalize false, .finalize true])
        (fun state => state.stage = .failed && (state.key.objectBy = some 0 &&
          (state.newer 0 && state.key.object = none))) rfl (by decide)
    simp only [Bool.and_eq_true, decide_eq_true_eq] at lost
    obtain ⟨upload, -, there⟩ := keeps history state run lost.1 0 lost.2.1 lost.2.2.1
    simp [lost.1, lost.2.2.2, FinalizeStage.holds] at there

end NestjsFastify.LocalFinalize
