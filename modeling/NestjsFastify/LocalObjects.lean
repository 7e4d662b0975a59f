import Mathlib.Logic.Function.Basic
import NestjsFastify.LengthPrefixedFraming
import NestjsFastify.TransitionSystem

/-! # Objects of the local storage

An upload streams to a temporary file of its own.  When the stream is complete the metadata of the
object and then the object are put in place, each by a rename, while other uploads do the same.
-/
namespace NestjsFastify.LocalObjects
open LengthPrefixedFraming (Bytes)

/-! ## One upload -/

structure StoredMeta where
  contentType : String
  size : Nat
  etag : String
  deriving DecidableEq, Repr

def etagOf (sha256 : Bytes → String) (bytes : Bytes) : String := "\"" ++ sha256 bytes ++ "\""

/-- The size and the ETag are those of the bytes. -/
def Describes (sha256 : Bytes → String) (metadata : StoredMeta) (bytes : Bytes) : Prop :=
  metadata.size = bytes.length ∧ metadata.etag = etagOf sha256 bytes

structure WriteLimits where
  minBytes : Nat
  maxBytes : Nat
  deriving DecidableEq, Repr

/-- How far `writeObject` has come. -/
inductive Stage where
  | streaming
  | metered
  | prepared
  | renamed
  | completed
  | rejected
  deriving DecidableEq, Repr

/-- An upload: what its stream has yielded, what the meter has passed on to the temporary file and
the hash, and what the meter remembers. -/
structure Upload where
  contentType : Option String
  limits : WriteLimits
  received : Bytes := []
  temp : Bytes := []
  size : Nat := 0
  overflowed : Bool := false
  stage : Stage := .streaming
  deriving DecidableEq, Repr

/-- `transform` -/
def Upload.transform (upload : Upload) (chunk : Bytes) : Upload :=
  let upload := { upload with
    received := upload.received ++ chunk
    size := upload.size + chunk.length }
  if upload.limits.maxBytes < upload.size then { upload with overflowed := true }
  else { upload with temp := upload.temp ++ chunk }

/-- The end of the pipeline, with the check of the size. -/
def Upload.finish (upload : Upload) : Upload :=
  { upload with
    stage := if upload.overflowed ∨ upload.size < upload.limits.minBytes then .rejected
      else .metered }

/-- The metadata that `writeObject` commits. -/
def Upload.metadata (sha256 : Bytes → String) (upload : Upload) : StoredMeta where
  contentType := upload.contentType.getD "application/octet-stream"
  size := upload.size
  etag := etagOf sha256 upload.temp

/-- The size of the stream is within the limits. -/
def Upload.Within (upload : Upload) : Prop :=
  upload.limits.minBytes ≤ upload.received.length ∧
    upload.received.length ≤ upload.limits.maxBytes

def Upload.inFlight (upload : Upload) : Bool :=
  upload.stage ≠ .completed && upload.stage ≠ .rejected

/-! ## One key -/

/-- The files of a key with its uploads, and the uploads that last put an object and metadata in
place. -/
structure Key where
  object : Option Bytes
  metadata : Option StoredMeta
  uploads : Nat → Option Upload := fun _ => none
  objectBy : Option Nat := none
  metadataBy : Option Nat := none

inductive WriteAction where
  | start (id : Nat) (contentType : Option String) (limits : WriteLimits)
  | chunk (id : Nat) (bytes : Bytes)
  | finish (id : Nat)
  | prepare (id : Nat)
  | renameMetadata (id : Nat)
  | renameObject (id : Nat)
  | fail (id : Nat)
  deriving DecidableEq, Repr

def WriteAction.id : WriteAction → Nat
  | .start id _ _ => id
  | .chunk id _ => id
  | .finish id => id
  | .prepare id => id
  | .renameMetadata id => id
  | .renameObject id => id
  | .fail id => id

def Key.put (key : Key) (id : Nat) (upload : Upload) : Key :=
  { key with uploads := Function.update key.uploads id (some upload) }

/-- A step of an upload: directories and the temporary file of the metadata are made in one. -/
def Key.take (sha256 : Bytes → String) (key : Key) (upload : Upload) : WriteAction → Option Key
  | .start _ _ _ => none
  | .chunk id bytes =>
      if upload.stage = .streaming then some (key.put id (upload.transform bytes)) else none
  | .finish id => if upload.stage = .streaming then some (key.put id upload.finish) else none
  | .prepare id =>
      if upload.stage = .metered then some (key.put id { upload with stage := .prepared }) else none
  | .renameMetadata id =>
      if upload.stage = .prepared then
        some { key.put id { upload with stage := .renamed } with
          metadata := some (upload.metadata sha256)
          metadataBy := some id }
      else none
  | .renameObject id =>
      if upload.stage = .renamed then
        some { key.put id { upload with stage := .completed } with
          object := some upload.temp
          objectBy := some id }
      else none
  | .fail id =>
      if upload.inFlight then some (key.put id { upload with stage := .rejected }) else none

def Key.step (sha256 : Bytes → String) (key : Key) (action : WriteAction) : Option Key :=
  match key.uploads action.id, action with
  | none, .start id contentType limits => some (key.put id { contentType, limits })
  | none, _ => none
  | some upload, action => key.take sha256 upload action

/-- `readMeta` -/
def Key.head (key : Key) : Option StoredMeta := key.object.bind fun _ => key.metadata

/-- An object that was stored before. -/
structure Stored (sha256 : Bytes → String) where
  bytes : Bytes
  metadata : StoredMeta
  described : Describes sha256 metadata bytes

/-- The uploads of a key, which may have an object before. -/
def uploadSystem (sha256 : Bytes → String) (before : Option (Stored sha256)) :
    TransitionSystem Key WriteAction where
  initial key := key = { object := before.map Stored.bytes, metadata := before.map Stored.metadata }
  step := Key.step sha256

/-! ## The meter -/

/-- What the meter has counted, and what it lets through. -/
structure Upload.Metered (upload : Upload) : Prop where
  counted : upload.size = upload.received.length
  limited : upload.overflowed = decide (upload.limits.maxBytes < upload.size)
  passed : upload.overflowed = false → upload.temp = upload.received
  complete : upload.stage ≠ .streaming → upload.stage ≠ .rejected →
    upload.overflowed = false ∧ upload.limits.minBytes ≤ upload.size

section
variable {sha256 : Bytes → String} {upload : Upload}

theorem Upload.Metered.transform (metered : upload.Metered) (streams : upload.stage = .streaming)
    (chunk : Bytes) : (upload.transform chunk).Metered := by
  have counted := metered.counted
  unfold Upload.transform
  simp only
  split_ifs with large
  · exact
      { counted := by simp [counted]
        limited := by simp [large]
        passed := by simp
        complete := fun moved => absurd streams moved }
  · have early : upload.overflowed = false := by
      rw [metered.limited, decide_eq_false_iff_not]
      omega
    exact
      { counted := by simp [counted]
        limited := by simp [early, large]
        passed := by simp [metered.passed early]
        complete := fun moved => absurd streams moved }

theorem Upload.Metered.finish (metered : upload.Metered) : upload.finish.Metered where
  counted := metered.counted
  limited := metered.limited
  passed := metered.passed
  complete := by
    intro _ accepted
    simp only [Upload.finish] at accepted ⊢
    split_ifs at accepted with refused
    · exact absurd rfl accepted
    · rw [not_or, Bool.not_eq_true, not_lt] at refused
      exact refused

/-- An upload that goes on, or is rejected, stays metered. -/
theorem Upload.Metered.advance (metered : upload.Metered) {stage : Stage}
    (later : stage = .rejected ∨ upload.stage ≠ .streaming ∧ upload.stage ≠ .rejected) :
    { upload with stage := stage }.Metered where
  counted := metered.counted
  limited := metered.limited
  passed := metered.passed
  complete := by
    intro _ accepted
    obtain rfl | ⟨moved, alive⟩ := later
    · exact absurd rfl accepted
    · exact metered.complete moved alive

/-- A complete stream was within its limits, and is what the temporary file contains. -/
theorem Upload.Metered.within (metered : upload.Metered) (moved : upload.stage ≠ .streaming)
    (accepted : upload.stage ≠ .rejected) : upload.Within ∧ upload.temp = upload.received := by
  obtain ⟨fits, enough⟩ := metered.complete moved accepted
  have small := metered.limited
  rw [fits, eq_comm, decide_eq_false_iff_not, not_lt] at small
  have counted := metered.counted
  exact ⟨⟨by omega, by omega⟩, metered.passed fits⟩

/-- The metadata of a complete stream describe what was streamed. -/
theorem Upload.Metered.describes (metered : upload.Metered) (moved : upload.stage ≠ .streaming)
    (accepted : upload.stage ≠ .rejected) :
    Describes sha256 (upload.metadata sha256) upload.temp := by
  obtain ⟨-, same⟩ := metered.within moved accepted
  exact ⟨by rw [same]; exact metered.counted, rfl⟩

end

/-! ## What a step does -/

section
variable {sha256 : Bytes → String} {key next : Key} {action : WriteAction}

/-- The steps of uploads. -/
inductive Key.Step (sha256 : Bytes → String) (key : Key) : WriteAction → Key → Prop
  | start {id : Nat} (contentType : Option String) (limits : WriteLimits)
      (fresh : key.uploads id = none) :
      Step sha256 key (.start id contentType limits) (key.put id { contentType, limits })
  | chunk {id : Nat} {upload : Upload} (bytes : Bytes) (known : key.uploads id = some upload)
      (streams : upload.stage = .streaming) :
      Step sha256 key (.chunk id bytes) (key.put id (upload.transform bytes))
  | finish {id : Nat} {upload : Upload} (known : key.uploads id = some upload)
      (streams : upload.stage = .streaming) :
      Step sha256 key (.finish id) (key.put id upload.finish)
  | prepare {id : Nat} {upload : Upload} (known : key.uploads id = some upload)
      (metered : upload.stage = .metered) :
      Step sha256 key (.prepare id) (key.put id { upload with stage := .prepared })
  | renameMetadata {id : Nat} {upload : Upload} (known : key.uploads id = some upload)
      (prepared : upload.stage = .prepared) :
      Step sha256 key (.renameMetadata id) { key.put id { upload with stage := .renamed } with
        metadata := some (upload.metadata sha256)
        metadataBy := some id }
  | renameObject {id : Nat} {upload : Upload} (known : key.uploads id = some upload)
      (renamed : upload.stage = .renamed) :
      Step sha256 key (.renameObject id) { key.put id { upload with stage := .completed } with
        object := some upload.temp
        objectBy := some id }
  | fail {id : Nat} {upload : Upload} (known : key.uploads id = some upload)
      (flies : upload.inFlight = true) :
      Step sha256 key (.fail id) (key.put id { upload with stage := .rejected })

theorem Key.Step.of_step (taken : key.step sha256 action = some next) :
    Key.Step sha256 key action next := by
  unfold Key.step at taken
  cases known : key.uploads action.id with
  | none =>
    rw [known] at taken
    cases action <;> cases taken
    exact .start _ _ known
  | some upload =>
    rw [known] at taken
    cases action <;> simp only [Key.take, Option.ite_none_right_eq_some, Option.some.injEq,
      reduceCtorEq] at taken <;> obtain ⟨stage, rfl⟩ := taken
    · exact .chunk _ known stage
    · exact .finish known stage
    · exact .prepare known stage
    · exact .renameMetadata known stage
    · exact .renameObject known stage
    · exact .fail known stage

theorem Key.put_uploads (id other : Nat) (upload : Upload) :
    (key.put id upload).uploads other = if other = id then some upload else key.uploads other := by
  by_cases same : other = id
  · subst same
    simp [Key.put]
  · simp [Key.put, same]

/-- Every upload is metered. -/
def Key.Metered (key : Key) : Prop :=
  ∀ id upload, key.uploads id = some upload → upload.Metered

theorem Key.Metered.put (metered : key.Metered) (id : Nat) {upload : Upload}
    (own : upload.Metered) : (key.put id upload).Metered := by
  intro other found known
  rw [Key.put_uploads] at known
  split_ifs at known
  · cases known
    exact own
  · exact metered other found known

theorem Key.Step.metered (taken : Key.Step sha256 key action next) (metered : key.Metered) :
    next.Metered := by
  cases taken with
  | start contentType limits fresh =>
    exact metered.put _
      { counted := rfl
        limited := by simp
        passed := fun _ => rfl
        complete := fun moved => absurd rfl moved }
  | chunk bytes known streams =>
    exact metered.put _ ((metered _ _ known).transform streams bytes)
  | finish known streams => exact metered.put _ (metered _ _ known).finish
  | prepare known stage =>
    exact metered.put _ ((metered _ _ known).advance (.inr (by simp [stage])))
  | renameMetadata known stage =>
    exact metered.put _ ((metered _ _ known).advance (.inr (by simp [stage])))
  | renameObject known stage =>
    exact metered.put _ ((metered _ _ known).advance (.inr (by simp [stage])))
  | fail known flies => exact metered.put _ ((metered _ _ known).advance (.inl rfl))

/-- The upload is between its two renames. -/
def Key.Between (key : Key) (id : Nat) : Prop :=
  ∃ upload, key.uploads id = some upload ∧ upload.stage = .renamed

theorem Key.between_put {id other : Nat} {upload : Upload} (moved : upload.stage ≠ .renamed)
    (between : (key.put id upload).Between other) : other ≠ id ∧ key.Between other := by
  obtain ⟨found, known, stage⟩ := between
  rw [Key.put_uploads] at known
  split_ifs at known with same
  · cases known
    exact absurd stage moved
  · exact ⟨same, found, known, stage⟩

/-! ## Commits in order -/

/-- The upload whose metadata are in place puts its object there after all others that are between
their renames, and does not fail. -/
def InOrder (key : Key) : WriteAction → Prop
  | .renameObject id => key.metadataBy = some id → ∀ other, key.Between other → other = id
  | .fail id => key.metadataBy = some id → ¬ key.Between id
  | _ => True

/-- The metadata are of an upload that still has to put its object in place, or are with its object
and no other upload is between its renames. -/
structure Key.Settled (before : Option (Stored sha256)) (key : Key) : Prop where
  own : ∀ id, key.metadataBy = some id → ∃ upload, key.uploads id = some upload ∧
    key.metadata = some (upload.metadata sha256) ∧
      (upload.stage = .renamed ∨
        upload.stage = .completed ∧ key.object = some upload.temp ∧ ∀ other, ¬ key.Between other)
  before : key.metadataBy = none → (∀ other, ¬ key.Between other) ∧
    key.object = before.map Stored.bytes ∧ key.metadata = before.map Stored.metadata

variable {before : Option (Stored sha256)}

/-- A step without a rename of an upload that does not own the metadata. -/
theorem Key.Settled.put (settled : key.Settled before) {id : Nat} {upload : Upload}
    (moved : upload.stage ≠ .renamed) (other : key.metadataBy ≠ some id) :
    (key.put id upload).Settled before where
  own := by
    intro owner owns
    obtain ⟨found, known, metadata, stage⟩ := settled.own owner owns
    have apart : owner ≠ id := fun same => other (same ▸ owns)
    refine ⟨found, by rw [Key.put_uploads, if_neg apart, known], metadata, stage.imp_right ?_⟩
    rintro ⟨completed, object, alone⟩
    exact ⟨completed, object, fun another between =>
      alone another (Key.between_put moved between).2⟩
  before := by
    intro nobody
    obtain ⟨alone, same⟩ := settled.before nobody
    exact ⟨fun another between => alone another (Key.between_put moved between).2, same⟩

/-- The owner of the metadata has renamed them. -/
theorem Key.Settled.ne_owner (settled : key.Settled before) {id : Nat} {upload : Upload}
    (known : key.uploads id = some upload) (early : upload.stage ≠ .renamed)
    (unfinished : upload.stage ≠ .completed) : key.metadataBy ≠ some id := by
  intro owns
  obtain ⟨found, same, -, stage⟩ := settled.own id owns
  obtain rfl := Option.some.inj (known.symm.trans same)
  exact stage.elim early fun completed => unfinished completed.1

theorem Key.Settled.renameObject (settled : key.Settled before) {id : Nat} {upload : Upload}
    (known : key.uploads id = some upload) (renamed : upload.stage = .renamed)
    (ordered : InOrder key (.renameObject id)) :
    Key.Settled before { key.put id { upload with stage := .completed } with
      object := some upload.temp
      objectBy := some id } where
  own := by
    intro owner owns
    obtain ⟨found, own, metadata, stage⟩ := settled.own owner owns
    by_cases same : owner = id
    · subst same
      obtain rfl := Option.some.inj (known.symm.trans own)
      refine ⟨{ upload with stage := .completed }, Function.update_self .., metadata,
        .inr ⟨rfl, rfl, fun other between => ?_⟩⟩
      obtain ⟨apart, earlier⟩ := Key.between_put (by simp) between
      exact apart (ordered owns other earlier)
    · refine ⟨found, by simp [Key.put, same, own], metadata, .inl ?_⟩
      exact stage.resolve_right fun ⟨_, _, alone⟩ => alone id ⟨upload, known, renamed⟩
  before := by
    intro nobody
    exact absurd ⟨upload, known, renamed⟩ ((settled.before nobody).1 id)

theorem Key.Step.settled (taken : Key.Step sha256 key action next) (ordered : InOrder key action)
    (settled : key.Settled before) : next.Settled before := by
  cases taken with
  | start contentType limits fresh =>
    refine settled.put (by simp) fun owns => ?_
    obtain ⟨found, known, -⟩ := settled.own _ owns
    rw [fresh] at known
    cases known
  | chunk bytes known streams =>
    refine settled.put ?_ (settled.ne_owner known (by simp [streams]) (by simp [streams]))
    unfold Upload.transform
    simp only
    split_ifs <;> simp [streams]
  | finish known streams =>
    refine settled.put ?_ (settled.ne_owner known (by simp [streams]) (by simp [streams]))
    unfold Upload.finish
    simp only
    split_ifs <;> simp
  | prepare known stage =>
    exact settled.put (by simp) (settled.ne_owner known (by simp [stage]) (by simp [stage]))
  | @renameMetadata id upload known stage =>
    exact
      { own := by
          rintro owner owns
          cases owns
          exact ⟨{ upload with stage := .renamed }, Function.update_self .., rfl, .inl rfl⟩
        before := fun nobody => by cases nobody }
  | renameObject known stage => exact settled.renameObject known stage ordered
  | @fail id upload known flies =>
    refine settled.put (by simp) fun owns => ?_
    have early : upload.stage ≠ .renamed := fun stage => ordered owns ⟨upload, known, stage⟩
    have unfinished : upload.stage ≠ .completed := by
      rintro stage
      simp [Upload.inFlight, stage] at flies
    exact settled.ne_owner known early unfinished owns

end

/-! ## The laws of objects -/

def Key.Quiescent (key : Key) : Prop :=
  ∀ id upload, key.uploads id = some upload → upload.inFlight = false

/-- What `head` returns describes the object, which is that of a completed upload, or was there
before. -/
def Key.Agrees {sha256 : Bytes → String} (before : Option (Stored sha256)) (key : Key) : Prop :=
  ∀ metadata, key.head = some metadata → ∃ bytes, key.object = some bytes ∧
    Describes sha256 metadata bytes ∧
      ((∃ id upload, key.uploads id = some upload ∧ upload.stage = .completed ∧
          upload.received = bytes ∧ upload.metadata sha256 = metadata) ∨
        ∃ stored, before = some stored ∧ stored.bytes = bytes ∧ stored.metadata = metadata)

structure ObjectLaws (sha256 : Bytes → String) (before : Option (Stored sha256)) : Prop where
  agrees : ∀ history key, (uploadSystem sha256 before).Run history key →
    TransitionSystem.Guarded InOrder history → key.Quiescent → key.Agrees before
  rejected : ∀ history key, (uploadSystem sha256 before).Run history key →
    ∀ id upload, key.uploads id = some upload → ¬ upload.Within →
      upload.stage = .streaming ∨ upload.stage = .rejected
  untouched : ∀ history key action next upload, (uploadSystem sha256 before).Run history key →
    key.step sha256 action = some next → key.uploads action.id = some upload →
      ¬ upload.Within → next.object = key.object ∧ next.metadata = key.metadata

section
variable {sha256 : Bytes → String} {before : Option (Stored sha256)} {key : Key}

theorem Key.Settled.agrees (settled : key.Settled before) (metered : key.Metered)
    (quiescent : key.Quiescent) : key.Agrees before := by
  intro metadata found
  obtain ⟨bytes, object, same⟩ := Option.bind_eq_some_iff.mp found
  refine ⟨bytes, object, ?_⟩
  cases owner : key.metadataBy with
  | none =>
    obtain ⟨-, oldObject, oldMetadata⟩ := settled.before owner
    rw [oldObject, Option.map_eq_some_iff] at object
    obtain ⟨stored, rfl, rfl⟩ := object
    rw [oldMetadata] at same
    obtain rfl := Option.some.inj same
    exact ⟨stored.described, .inr ⟨stored, rfl, rfl, rfl⟩⟩
  | some id =>
    obtain ⟨upload, known, own, stage⟩ := settled.own id owner
    obtain rfl := Option.some.inj (same.symm.trans own)
    have done := quiescent id upload known
    obtain ⟨completed, placed, -⟩ := stage.resolve_left fun renamed => by
      simp [Upload.inFlight, renamed] at done
    obtain rfl := Option.some.inj (object.symm.trans placed)
    have meter := metered id upload known
    exact ⟨meter.describes (by simp [completed]) (by simp [completed]),
      .inl ⟨id, upload, known, completed,
        (meter.within (by simp [completed]) (by simp [completed])).2.symm, rfl⟩⟩

theorem metered_of_run {history : List (Key × WriteAction)}
    (run : (uploadSystem sha256 before).Run history key) : key.Metered := by
  refine run.invariant ?_ fun _ _ _ metered taken => (Key.Step.of_step taken).metered metered
  rintro _ rfl id upload known
  cases known

theorem settled_of_run {history : List (Key × WriteAction)}
    (run : (uploadSystem sha256 before).Run history key)
    (ordered : TransitionSystem.Guarded InOrder history) : key.Settled before := by
  refine run.guardedInvariant InOrder ?_ (fun _ _ _ guard settled taken =>
    (Key.Step.of_step taken).settled guard settled) ordered
  rintro _ rfl
  exact
    { own := fun id owns => by cases owns
      before := fun _ => by
        refine ⟨?_, rfl, rfl⟩
        rintro other ⟨upload, known, -⟩
        cases known }

/-- An upload outside its limits has not come to its renames. -/
theorem Key.Step.untouched {next : Key} {action : WriteAction} {upload : Upload}
    (taken : Key.Step sha256 key action next) (metered : key.Metered)
    (known : key.uploads action.id = some upload) (outside : ¬ upload.Within) :
    next.object = key.object ∧ next.metadata = key.metadata := by
  have early (moved : upload.stage ≠ .streaming) (accepted : upload.stage ≠ .rejected) : False :=
    outside ((metered _ _ known).within moved accepted).1
  cases taken with
  | renameMetadata own stage =>
    obtain rfl := Option.some.inj (known.symm.trans own)
    exact (early (by simp [stage]) (by simp [stage])).elim
  | renameObject own stage =>
    obtain rfl := Option.some.inj (known.symm.trans own)
    exact (early (by simp [stage]) (by simp [stage])).elim
  | _ => exact ⟨rfl, rfl⟩

end

/-- While commits are in order the metadata agree with the object whenever no upload is in flight.
An upload outside its limits is rejected and changes neither. -/
theorem objectLaws (sha256 : Bytes → String) (before : Option (Stored sha256)) :
    ObjectLaws sha256 before where
  agrees _ _ run ordered quiescent :=
    (settled_of_run run ordered).agrees (metered_of_run run) quiescent
  rejected history key run id upload known outside := by
    by_contra neither
    rw [not_or] at neither
    exact outside ((metered_of_run run id upload known).within neither.1 neither.2).1
  untouched _ _ _ _ _ run taken known outside :=
    (Key.Step.of_step taken).untouched (metered_of_run run) known outside

/-! ## Particular runs -/

/-- A hash for the runs: the bytes themselves. -/
def plainDigest (bytes : Bytes) : String :=
  String.ofList (bytes.map fun byte => Char.ofNat byte.toNat)

/-- The action ends no upload whose metadata are in place. -/
def sparesOwner (key : Key) : WriteAction → Bool
  | .renameObject id => key.metadataBy != some id
  | .fail id => key.metadataBy != some id
  | _ => true

theorem inOrder_of_sparesOwner {key : Key} {action : WriteAction}
    (spares : sparesOwner key action = true) : InOrder key action := by
  cases action with
  | renameObject id | fail id =>
    intro owns
    simp [sparesOwner, owns] at spares
  | start | chunk | finish | prepare | renameMetadata => trivial

/-- Two uploads of one byte overlap, and the one whose metadata are in place puts its object there
last.  A third upload is larger than it may be. -/
def orderedActions : List WriteAction :=
  [.start 0 (some "text/plain") ⟨1, 1⟩, .start 1 (some "image/png") ⟨1, 1⟩, .start 2 none ⟨0, 1⟩,
    .chunk 0 [97], .chunk 1 [98], .chunk 2 [99, 99], .finish 0, .finish 1, .finish 2, .prepare 0,
    .prepare 1, .renameMetadata 0, .renameMetadata 1, .renameObject 0]

theorem objectLaws_example : ∃ history key,
    (uploadSystem plainDigest none).Run history key ∧ TransitionSystem.Guarded InOrder history ∧
      key.Quiescent ∧ key.Agrees (none : Option (Stored plainDigest)) ∧
        key.head = some ⟨"image/png", 1, "\"b\""⟩ ∧ key.object = some [98] ∧
          (key.uploads 2).map Upload.stage = some .rejected := by
  obtain ⟨before, executed⟩ : ∃ before, (uploadSystem plainDigest none).execute sparesOwner
      ⟨none, none, fun _ => none, none, none⟩ orderedActions = some before := ⟨_, rfl⟩
  obtain ⟨history, run, ordered, -⟩ := (TransitionSystem.Run.start rfl).execute
    (fun _ _ => inOrder_of_sparesOwner) (fun _ impossible => nomatch impossible) executed
  obtain ⟨key, taken⟩ : ∃ key, before.step plainDigest (.renameObject 1) = some key := by
    obtain rfl := Option.some.inj executed
    exact ⟨_, rfl⟩
  have last : InOrder before (.renameObject 1) := by
    obtain rfl := Option.some.inj executed
    rintro - other ⟨upload, known, stage⟩
    rcases other with _ | _ | _ | other
    · cases known
      cases stage
    · rfl
    · cases known
      cases stage
    · cases known
  have quiescent : key.Quiescent := by
    obtain rfl := Option.some.inj executed
    obtain rfl := Option.some.inj taken
    intro id upload known
    rcases id with _ | _ | _ | id <;> cases known <;> rfl
  have whole := run.step taken
  have guarded : TransitionSystem.Guarded InOrder ((before, .renameObject 1) :: history) :=
    List.forall_mem_cons.mpr ⟨last, ordered⟩
  refine ⟨_, key, whole, guarded, quiescent,
    (objectLaws plainDigest none).agrees _ key whole guarded quiescent, ?_⟩
  obtain rfl := Option.some.inj executed
  obtain rfl := Option.some.inj taken
  exact ⟨rfl, rfl, rfl⟩

/-- Two uploads of one byte: the first puts its metadata in place first and its object last. -/
def crossingActions : List WriteAction :=
  [.start 0 (some "text/plain") ⟨1, 1⟩, .start 1 (some "image/png") ⟨1, 1⟩, .chunk 0 [97],
    .chunk 1 [98], .finish 0, .finish 1, .prepare 0, .prepare 1, .renameMetadata 0,
    .renameMetadata 1, .renameObject 1, .renameObject 0]

def crossed : Option Key :=
  (uploadSystem plainDigest none).execute (fun _ _ => true) ⟨none, none, fun _ => none, none, none⟩
    crossingActions

theorem crossed_disagrees :
    ¬ ∀ history key, (uploadSystem plainDigest none).Run history key → key.Quiescent →
      key.Agrees (none : Option (Stored plainDigest)) := by
  intro agree
  obtain ⟨key, executed⟩ : ∃ key, crossed = some key := ⟨_, rfl⟩
  obtain ⟨history, run, -, -⟩ := (TransitionSystem.Run.start rfl).execute (fun _ _ _ => trivial)
    (fun _ impossible => nomatch impossible) executed
  have quiescent : key.Quiescent := by
    obtain rfl := Option.some.inj executed
    intro id upload known
    rcases id with _ | _ | id
    · cases known
      rfl
    · cases known
      rfl
    · cases known
  obtain ⟨bytes, object, described, -⟩ := agree history key run quiescent
    ⟨"image/png", 1, "\"b\""⟩ (by
      obtain rfl := Option.some.inj executed
      rfl)
  obtain rfl : bytes = [97] := by
    obtain rfl := Option.some.inj executed
    exact (Option.some.inj object).symm
  exact absurd described.2 (by decide)

end NestjsFastify.LocalObjects
