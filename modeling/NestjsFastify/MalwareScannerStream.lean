import Mathlib.Data.List.TakeWhile
import NestjsFastify.LengthPrefixedFraming

/-! # Streaming an object to clamd

`MalwareScannerService.streamToScanner` sends the INSTREAM command, one length-prefixed frame for
each chunk of the object, and a frame of length zero.  clamd scans what these bytes decode to.
-/
namespace NestjsFastify.MalwareScanner
open LengthPrefixedFraming

/-- `unscannable` is the absence of a verdict: the scanner did not look at the whole object. -/
inductive MalwareScanResult where
  | clean
  | infected
  | unscannable
  deriving DecidableEq, Repr

/-! ## The content and its chunks -/

def instreamChunkBytes : Nat := 64 * 1024

/-- How the iteration over an object stream ends. -/
inductive StreamEnd where
  | done
  | failed
  deriving DecidableEq, Repr

/-- `AsyncIterable<Uint8Array> | Buffer`: a stream is the chunks it yields and its end. -/
inductive Content where
  | buffer (bytes : Bytes)
  | stream (chunks : List Bytes) (ending : StreamEnd)
  deriving DecidableEq, Repr

/-- The loop of `toChunks` over a buffer, from `offset` on. -/
def bufferChunks (content : Bytes) (offset : Nat) : List Bytes :=
  if offset < content.length then
    (content.drop offset).take (min (offset + instreamChunkBytes) content.length - offset) ::
      bufferChunks content (offset + instreamChunkBytes)
  else []
  termination_by content.length - offset
  decreasing_by simp only [instreamChunkBytes]; omega

def toChunks : Content → List Bytes
  | .buffer bytes => bufferChunks bytes 0
  | .stream chunks _ => chunks

def Content.ending : Content → StreamEnd
  | .buffer _ => .done
  | .stream _ ending => ending

/-- All bytes of the object, as far as the content yields them. -/
def Content.bytes : Content → Bytes
  | .buffer bytes => bytes
  | .stream chunks _ => chunks.flatten

/-! ## The sender -/

/-- What the sender sees of the socket when it looks at it. -/
structure SocketView where
  replied : Bool
  writableEnded : Bool
  destroyed : Bool
  deriving DecidableEq, Repr

/-- A socket on which clamd has neither replied nor closed. -/
def SocketView.calm : SocketView := ⟨false, false, false⟩

/-- Why the loop over the chunks stopped. -/
inductive LoopEnd where
  | drained
  | interrupted
  | threw
  deriving DecidableEq, Repr

/-- The largest value that `writeUInt32BE` accepts. -/
def maxUInt32 : Nat := 4294967295

/-- The loop of `streamToScanner`: the bytes it writes and why it stops.  Each chunk comes with
the socket as the guard at the head of the loop sees it. -/
def writeChunks : List (SocketView × Bytes) → Bytes × LoopEnd
  | [] => ([], .drained)
  | (socket, chunk) :: chunks =>
      if socket.replied || socket.writableEnded || socket.destroyed then ([], .interrupted)
      else if maxUInt32 < chunk.length then ([], .threw)
      else
        let (written, ending) := writeChunks chunks
        (bigEndian 4 chunk.length ++ chunk ++ written, ending)

def instreamCommand : Bytes :=
  "zINSTREAM\x00".toList.map fun character => UInt8.ofNat character.toNat

/-- The bytes that `streamToScanner` writes once connected, for the chunks it is given, the end
of their iteration, and the socket as it stands after the loop. -/
def streamToScanner (chunks : List (SocketView × Bytes)) (ending : StreamEnd)
    (final : SocketView) : Bytes :=
  let (written, loopEnd) := writeChunks chunks
  let completed := match loopEnd, ending with
    | .drained, .done => true
    | .drained, .failed => false
    | .interrupted, _ => true
    | .threw, _ => false
  instreamCommand ++ written ++
    if completed && !final.writableEnded && !final.destroyed then List.replicate 4 0 else []

/-- The bytes on the socket when clamd neither replies nor closes before the end. -/
def calmTranscript (content : Content) : Bytes :=
  streamToScanner ((toChunks content).map fun chunk => (.calm, chunk)) content.ending .calm

/-! ## clamd's reading of the bytes -/

/-- What clamd makes of the bytes on an INSTREAM connection, `none` without the command. -/
def decodeInstream (bytes : Bytes) : Option Reader :=
  if instreamCommand.isPrefixOf bytes then
    some (Reader.feedAll 3 (.header [] []) (bytes.drop instreamCommand.length))
  else none

/-- clamd has seen the frame that ends the object. -/
def terminated : Option Reader → Bool
  | some (.finished _ _) => true
  | _ => false

/-- A complete object decodes to exactly its bytes with nothing behind the terminating frame, and
an object whose stream fails is never terminated. -/
def FramedFaithfully (content : Content) : Prop :=
  match content.ending with
  | .done => decodeInstream (calmTranscript content) = some (.finished content.bytes [])
  | .failed => terminated (decodeInstream (calmTranscript content)) = false

/-! ## What the sender writes on a calm socket -/

/-- The length of the chunk fits the header that `writeUInt32BE` fills. -/
def fitsHeader (chunk : Bytes) : Bool := chunk.length ≤ maxUInt32

/-- The chunks that are framed before an oversized one makes `writeUInt32BE` throw. -/
def framedChunks (content : Content) : List Bytes := (toChunks content).takeWhile fitsHeader

private theorem writeChunks_calm (chunks : List Bytes) :
    writeChunks (chunks.map fun chunk => (.calm, chunk)) =
      ((chunks.takeWhile fitsHeader).flatMap (frame 4),
        if chunks.takeWhile fitsHeader = chunks then .drained else .threw) := by
  induction chunks with
  | nil => rfl
  | cons chunk chunks ih =>
    rw [List.map_cons, writeChunks]
    by_cases fits : chunk.length ≤ maxUInt32
    · rw [if_neg (by simp [SocketView.calm]), if_neg (by omega), ih,
        List.takeWhile_cons_of_pos (by simpa [fitsHeader] using fits)]
      simp [frame]
    · rw [if_neg (by simp [SocketView.calm]), if_pos (by omega),
        List.takeWhile_cons_of_neg (by simpa [fitsHeader] using fits)]
      simp

theorem calmTranscript_eq (content : Content) :
    calmTranscript content =
      instreamCommand ++ ((framedChunks content).flatMap (frame 4) ++
        if framedChunks content = toChunks content ∧ content.ending = .done
        then terminator 4 else []) := by
  rw [calmTranscript, streamToScanner, writeChunks_calm]
  by_cases drained : framedChunks content = toChunks content
  · rw [framedChunks] at drained ⊢
    cases ending : content.ending <;> simp [drained, SocketView.calm, terminator]
  · rw [framedChunks] at drained ⊢
    simp [drained]

theorem decodeInstream_command (bytes : Bytes) :
    decodeInstream (instreamCommand ++ bytes) =
      some (Reader.feedAll 3 (.header [] []) bytes) := by
  rw [decodeInstream, if_pos (by simp), List.drop_left]

private theorem framed_fits (content : Content) {chunk : Bytes}
    (framed : chunk ∈ framedChunks content) : chunk.length < 256 ^ 4 := by
  have fits : chunk.length ≤ maxUInt32 := by
    simpa [fitsHeader] using List.mem_takeWhile_imp framed
  exact Nat.lt_succ_of_le fits

/-- Without an empty chunk among the framed ones, clamd reads all of them, and sees the end of
the object exactly if all of them were framed and the stream ended. -/
theorem decode_calmTranscript (content : Content)
    (nonempty : ∀ chunk ∈ framedChunks content, chunk ≠ []) :
    decodeInstream (calmTranscript content) =
      some (if framedChunks content = toChunks content ∧ content.ending = .done
        then .finished (framedChunks content).flatten []
        else .header [] (framedChunks content).flatten) := by
  have carried : ∀ chunk ∈ framedChunks content, Carries 4 chunk := fun chunk framed =>
    ⟨nonempty chunk framed, framed_fits _ framed⟩
  rw [calmTranscript_eq, decodeInstream_command]
  split
  · rw [feedAll_message _ carried]
  · rw [List.append_nil, feedAll_frames [] _ carried, List.nil_append]

/-- An empty chunk is the terminating frame: clamd reads what precedes it and takes the rest of
the transcript for bytes behind the object. -/
theorem decode_emptyChunk (content : Content) {before after : List Bytes}
    (framed : framedChunks content = before ++ [] :: after) (first : [] ∉ before) :
    decodeInstream (calmTranscript content) =
      some (.finished before.flatten (after.flatMap (frame 4) ++
        if framedChunks content = toChunks content ∧ content.ending = .done
        then terminator 4 else [])) := by
  have carried : ∀ chunk ∈ before, Carries 4 chunk := fun chunk member =>
    ⟨ne_of_mem_of_not_mem member first, framed_fits content (by simp [framed, member])⟩
  rw [calmTranscript_eq, decodeInstream_command, framed]
  simp only [List.flatMap_append, List.flatMap_cons, List.append_assoc]
  rw [feedAll_emptyPayload before _ carried]

/-! ## Buffers -/

private theorem bufferChunks_flatten (content : Bytes) (offset : Nat) :
    (bufferChunks content offset).flatten = content.drop offset := by
  induction offset using bufferChunks.induct content with
  | case1 offset inside ih =>
    have cut : (content.drop offset).take
          (min (offset + instreamChunkBytes) content.length - offset) =
        (content.drop offset).take instreamChunkBytes := by
      rw [List.take_eq_take_iff, List.length_drop]
      omega
    rw [bufferChunks, if_pos inside, List.flatten_cons, ih, cut, ← List.drop_drop,
      List.take_append_drop]
  | case2 offset outside =>
    rw [bufferChunks, if_neg outside, List.drop_eq_nil_of_le (by omega), List.flatten_nil]

private theorem bufferChunks_carries (content : Bytes) (offset : Nat) :
    ∀ chunk ∈ bufferChunks content offset, Carries 4 chunk := by
  induction offset using bufferChunks.induct content with
  | case1 offset inside ih =>
    rw [bufferChunks, if_pos inside]
    intro chunk member
    rcases List.mem_cons.mp member with rfl | later
    · rw [Carries, ← List.length_pos_iff, List.length_take, List.length_drop]
      simp only [instreamChunkBytes]
      omega
    · exact ih chunk later
  | case2 offset outside =>
    rw [bufferChunks, if_neg outside]
    simp

/-! ## When the framing is faithful -/

/-- Every chunk of a complete object has a length that a frame can carry.  If the stream fails,
only the chunks that are framed before its failure count, and only empty ones do harm. -/
def Frameable : Content → Prop
  | .buffer _ => True
  | .stream chunks .done => ∀ chunk ∈ chunks, Carries 4 chunk
  | .stream chunks .failed => [] ∉ chunks.takeWhile fitsHeader

private theorem framedChunks_eq_toChunks {content : Content}
    (fits : ∀ chunk ∈ toChunks content, chunk.length < 256 ^ 4) :
    framedChunks content = toChunks content := by
  refine List.takeWhile_eq_self_iff.mpr fun chunk member => ?_
  exact decide_eq_true (Nat.le_of_lt_succ (fits chunk member))

private theorem framedFaithfully_of_carries (content : Content) (complete : content.ending = .done)
    (whole : (toChunks content).flatten = content.bytes)
    (carried : ∀ chunk ∈ toChunks content, Carries 4 chunk) :
    FramedFaithfully content := by
  have all : framedChunks content = toChunks content :=
    framedChunks_eq_toChunks fun chunk member => (carried chunk member).2
  have nonempty : ∀ chunk ∈ framedChunks content, chunk ≠ [] := fun chunk member =>
    (carried chunk (all ▸ member)).1
  rw [FramedFaithfully, complete]
  simp only
  rw [decode_calmTranscript content nonempty, if_pos ⟨all, complete⟩, all, whole]

/-- Bytes of the object are left unframed only from an oversized chunk on. -/
private theorem framedChunks_eq_of_flatten {chunks : List Bytes}
    (unframed : (chunks.dropWhile fitsHeader).flatten = []) :
    chunks.takeWhile fitsHeader = chunks := by
  have drained : chunks.dropWhile fitsHeader = [] := by
    by_contra rest
    have oversized := List.head_dropWhile_not fitsHeader rest
    have empty : (chunks.dropWhile fitsHeader).head rest = [] :=
      List.flatten_eq_nil_iff.mp unframed _ (List.head_mem rest)
    rw [empty] at oversized
    exact absurd oversized (by decide)
  have whole : chunks.takeWhile fitsHeader ++ chunks.dropWhile fitsHeader = chunks :=
    List.takeWhile_append_dropWhile
  rwa [drained, List.append_nil] at whole

private theorem carries_of_framedFaithfully {chunks : List Bytes}
    (faithful : FramedFaithfully (.stream chunks .done)) :
    ∀ chunk ∈ chunks, Carries 4 chunk := by
  have reading : decodeInstream (calmTranscript (.stream chunks .done)) =
    some (.finished chunks.flatten []) := faithful
  have framedEq : framedChunks (.stream chunks .done) = chunks.takeWhile fitsHeader := rfl
  have whole : chunks.takeWhile fitsHeader ++ chunks.dropWhile fitsHeader = chunks :=
    List.takeWhile_append_dropWhile
  by_cases empty : [] ∈ chunks.takeWhile fitsHeader
  · obtain ⟨before, after, framed, first⟩ := List.eq_append_cons_of_mem empty
    rw [decode_emptyChunk _ (framedEq.trans framed) first] at reading
    obtain ⟨content, rest⟩ := Reader.finished.inj (Option.some.inj reading)
    have unframed : (chunks.dropWhile fitsHeader).flatten = [] := by
      rw [← whole, framed, List.flatten_append, List.flatten_append, List.append_assoc] at content
      exact (List.append_eq_nil_iff.mp (List.self_eq_append_right.mp content)).2
    have all := framedChunks_eq_of_flatten unframed
    rw [if_pos ⟨framedEq.trans all, rfl⟩] at rest
    simp [terminator] at rest
  · have nonempty : ∀ chunk ∈ framedChunks (.stream chunks .done), chunk ≠ [] :=
      fun chunk member => ne_of_mem_of_not_mem member empty
    rw [decode_calmTranscript _ nonempty] at reading
    split at reading
    · rename_i all
      intro chunk member
      have framed : chunk ∈ framedChunks (.stream chunks .done) := all.1 ▸ member
      exact ⟨nonempty chunk framed, framed_fits _ framed⟩
    · simp at reading

private theorem framedFaithfully_failed_iff {chunks : List Bytes} :
    FramedFaithfully (.stream chunks .failed) ↔ [] ∉ chunks.takeWhile fitsHeader := by
  change terminated (decodeInstream (calmTranscript (.stream chunks .failed))) = false ↔ _
  have framedEq : framedChunks (.stream chunks .failed) = chunks.takeWhile fitsHeader := rfl
  by_cases empty : [] ∈ chunks.takeWhile fitsHeader
  · obtain ⟨before, after, framed, first⟩ := List.eq_append_cons_of_mem empty
    rw [decode_emptyChunk _ (framedEq.trans framed) first]
    simp [terminated, empty]
  · have nonempty : ∀ chunk ∈ framedChunks (.stream chunks .failed), chunk ≠ [] :=
      fun chunk member => ne_of_mem_of_not_mem member empty
    rw [decode_calmTranscript _ nonempty, if_neg (by simp [Content.ending])]
    simp [terminated, empty]

/-- The bytes on a calm socket frame the object faithfully exactly when no chunk is empty and no
chunk is longer than its four-byte length can say. -/
theorem framedFaithfully_iff_frameable (content : Content) :
    FramedFaithfully content ↔ Frameable content := by
  match content with
  | .buffer bytes =>
    have whole : (bufferChunks bytes 0).flatten = bytes := bufferChunks_flatten bytes 0
    exact iff_of_true (framedFaithfully_of_carries _ rfl whole (bufferChunks_carries bytes 0)) trivial
  | .stream chunks .done =>
    exact ⟨carries_of_framedFaithfully,
      framedFaithfully_of_carries (.stream chunks .done) rfl rfl⟩
  | .stream chunks .failed => exact framedFaithfully_failed_iff

/-- An empty chunk in front of the content makes clamd see an empty object. -/
theorem emptyChunk_truncates :
    decodeInstream (calmTranscript (.stream [[], [0x45]] .done)) =
        some (.finished [] [0, 0, 0, 1, 0x45, 0, 0, 0, 0]) ∧
      ¬ FramedFaithfully (.stream [[], [0x45]] .done) := by
  have reading : decodeInstream (calmTranscript (.stream [[], [0x45]] .done)) =
      some (.finished [] [0, 0, 0, 1, 0x45, 0, 0, 0, 0]) := by decide
  refine ⟨reading, fun faithful => ?_⟩
  have claimed : decodeInstream (calmTranscript (.stream [[], [0x45]] .done)) =
      some (.finished [0x45] []) := faithful
  rw [reading] at claimed
  exact absurd claimed (by decide)

end NestjsFastify.MalwareScanner
