import Mathlib.Algebra.Order.Ring.Nat
import Mathlib.Tactic.Ring

/-! # Length-prefixed framing of byte strings

A frame is a fixed-width big-endian length followed by that many bytes, and a frame of length
zero ends the message.  The reader is a fold over single bytes, so it composes over
concatenation and does not depend on how the bytes were cut on their way.
-/
namespace LengthPrefixedFraming

abbrev Bytes := List UInt8

/-! ## Fixed-width big-endian words -/

/-- The `width` big-endian bytes of `value`, high bytes beyond the width dropped. -/
def bigEndian : Nat → Nat → Bytes
  | 0, _ => []
  | width + 1, value => UInt8.ofNat (value / 256 ^ width) :: bigEndian width value

/-- The number that a string of big-endian bytes denotes. -/
def ofBigEndian (bytes : Bytes) : Nat :=
  bytes.foldl (fun value byte => value * 256 + byte.toNat) 0

@[simp] theorem length_bigEndian (width value : Nat) :
    (bigEndian width value).length = width := by
  induction width with
  | zero => rfl
  | succ width ih => simp [bigEndian, ih]

private theorem foldl_bigEndian (width value start : Nat) :
    (bigEndian width value).foldl (fun total byte => total * 256 + byte.toNat) start =
      start * 256 ^ width + value % 256 ^ width := by
  induction width generalizing start with
  | zero => simp [bigEndian, Nat.mod_one]
  | succ width ih =>
    have split : value % 256 ^ (width + 1) =
        value / 256 ^ width % 256 * 256 ^ width + value % 256 ^ width := by
      rw [pow_succ, Nat.mod_mul]
      ring
    have byte : (UInt8.ofNat (value / 256 ^ width)).toNat = value / 256 ^ width % 256 :=
      UInt8.toNat_ofNat'
    rw [bigEndian, List.foldl_cons, ih, split, byte, pow_succ]
    ring

theorem ofBigEndian_bigEndian {width value : Nat} (fits : value < 256 ^ width) :
    ofBigEndian (bigEndian width value) = value := by
  rw [ofBigEndian, foldl_bigEndian, Nat.mod_eq_of_lt fits, zero_mul, zero_add]

@[simp] theorem bigEndian_zero (width : Nat) :
    bigEndian width 0 = List.replicate width 0 := by
  induction width with
  | zero => rfl
  | succ width ih =>
    rw [bigEndian, ih, List.replicate_succ, Nat.zero_div]
    rfl

/-! ## The reader -/

/-- How far a reader has come: collecting the bytes of a length, inside a payload with
`remaining + 1` bytes to go, or past the terminating frame. -/
inductive Reader where
  | header (seen content : Bytes)
  | payload (remaining : Nat) (content : Bytes)
  | finished (content rest : Bytes)
  deriving DecidableEq, Repr

namespace Reader

/-- What the reader has accepted as content so far. -/
def content : Reader → Bytes
  | header _ content => content
  | payload _ content => content
  | finished content _ => content

/-- The state once a complete length has been read. -/
def start (content : Bytes) : Nat → Reader
  | 0 => finished content []
  | length + 1 => payload length content

/-- Read one byte, with lengths of `width + 1` bytes. -/
def feed (width : Nat) : Reader → UInt8 → Reader
  | header seen content, byte =>
      if seen.length = width then start content (ofBigEndian (seen ++ [byte]))
      else header (seen ++ [byte]) content
  | payload 0 content, byte => header [] (content ++ [byte])
  | payload (remaining + 1) content, byte => payload remaining (content ++ [byte])
  | finished content rest, byte => finished content (rest ++ [byte])

/-- Read a byte string from a given state. -/
def feedAll (width : Nat) (reader : Reader) (bytes : Bytes) : Reader :=
  bytes.foldl (feed width) reader

section
variable (width : Nat)

@[simp] theorem feedAll_nil (reader : Reader) : feedAll width reader [] = reader := rfl

theorem feedAll_append (reader : Reader) (first second : Bytes) :
    feedAll width reader (first ++ second) =
      feedAll width (feedAll width reader first) second :=
  List.foldl_append

theorem feedAll_finished (content rest bytes : Bytes) :
    feedAll width (finished content rest) bytes = finished content (rest ++ bytes) := by
  induction bytes generalizing rest with
  | nil => simp
  | cons byte bytes ih =>
    change feedAll width (finished content (rest ++ [byte])) bytes = _
    rw [ih, List.append_assoc, List.singleton_append]

private theorem feedAll_header_partial (seen content bytes : Bytes)
    (short : seen.length + bytes.length ≤ width) :
    feedAll width (header seen content) bytes = header (seen ++ bytes) content := by
  induction bytes generalizing seen with
  | nil => simp
  | cons byte bytes ih =>
    have incomplete : seen.length ≠ width := by
      simp only [List.length_cons] at short
      omega
    change feedAll width (if seen.length = width then _ else _) bytes = _
    rw [if_neg incomplete, ih (seen ++ [byte]) (by simpa [Nat.add_assoc, Nat.add_comm 1] using short),
      List.append_assoc, List.singleton_append]

theorem feedAll_header (content word : Bytes) (wordLength : word.length = width + 1) :
    feedAll width (header [] content) word = start content (ofBigEndian word) := by
  obtain ⟨front, last, rfl⟩ : ∃ front last, word = front ++ [last] :=
    ⟨word.dropLast, word.getLast (List.ne_nil_of_length_eq_add_one wordLength),
      (List.dropLast_concat_getLast _).symm⟩
  have frontLength : front.length = width := by simpa using wordLength
  rw [feedAll_append, feedAll_header_partial width [] content front (by simp [frontLength])]
  change (if ([] ++ front).length = width then _ else _) = _
  rw [if_pos (by simpa using frontLength), List.nil_append]

theorem feedAll_payload (content bytes : Bytes) (remaining : Nat)
    (complete : bytes.length = remaining + 1) :
    feedAll width (payload remaining content) bytes = header [] (content ++ bytes) := by
  induction remaining generalizing content bytes with
  | zero =>
    obtain ⟨byte, rfl⟩ := List.length_eq_one_iff.mp complete
    rfl
  | succ remaining ih =>
    cases bytes with
    | nil => simp at complete
    | cons byte bytes =>
      change feedAll width (payload remaining (content ++ [byte])) bytes = _
      rw [ih (content ++ [byte]) bytes (by simpa using complete), List.append_assoc,
        List.singleton_append]

end

end Reader

/-! ## Frames -/

/-- The frame of a payload, with a length of `width` bytes. -/
def frame (width : Nat) (payload : Bytes) : Bytes :=
  bigEndian width payload.length ++ payload

/-- The frame that ends a message. -/
def terminator (width : Nat) : Bytes :=
  List.replicate width 0

/-- A payload that its frame can carry: not empty, since an empty frame ends the message, and
short enough for its length to fit the prefix. -/
def Carries (width : Nat) (payload : Bytes) : Prop :=
  payload ≠ [] ∧ payload.length < 256 ^ width

instance (width : Nat) (payload : Bytes) : Decidable (Carries width payload) :=
  inferInstanceAs (Decidable (_ ∧ _))

@[simp] theorem frame_nil (width : Nat) : frame width [] = terminator width := by
  simp [frame, terminator]

open Reader

variable {width : Nat}

theorem feedAll_frame (content payload : Bytes) (carried : Carries (width + 1) payload) :
    feedAll width (header [] content) (frame (width + 1) payload) =
      header [] (content ++ payload) := by
  obtain ⟨nonempty, fits⟩ := carried
  obtain ⟨remaining, length⟩ : ∃ remaining, payload.length = remaining + 1 :=
    Nat.exists_eq_succ_of_ne_zero fun empty => nonempty (List.length_eq_zero_iff.mp empty)
  rw [frame, feedAll_append, feedAll_header width content _ (by simp),
    ofBigEndian_bigEndian fits, length]
  exact feedAll_payload width content payload remaining length

theorem feedAll_terminator (content : Bytes) :
    feedAll width (header [] content) (terminator (width + 1)) = finished content [] := by
  have zero : ofBigEndian (terminator (width + 1)) = 0 := by
    rw [terminator, ← bigEndian_zero]
    exact ofBigEndian_bigEndian (Nat.pow_pos (by omega))
  rw [feedAll_header width content _ (by simp [terminator]), zero]
  rfl

theorem feedAll_frames (content : Bytes) (payloads : List Bytes)
    (carried : ∀ payload ∈ payloads, Carries (width + 1) payload) :
    feedAll width (header [] content) (payloads.flatMap (frame (width + 1))) =
      header [] (content ++ payloads.flatten) := by
  induction payloads generalizing content with
  | nil => simp
  | cons payload payloads ih =>
    rw [List.flatMap_cons, feedAll_append,
      feedAll_frame content payload (carried payload List.mem_cons_self),
      ih _ fun other member => carried other (List.mem_cons_of_mem _ member),
      List.flatten_cons, List.append_assoc]

/-- A message of frames that carry their payloads reads back as the payloads in order, with
nothing after the terminating frame. -/
theorem feedAll_message (payloads : List Bytes)
    (carried : ∀ payload ∈ payloads, Carries (width + 1) payload) :
    feedAll width (header [] [])
        (payloads.flatMap (frame (width + 1)) ++ terminator (width + 1)) =
      finished payloads.flatten [] := by
  rw [feedAll_append, feedAll_frames [] payloads carried, List.nil_append, feedAll_terminator]

/-- An empty payload among the frames ends the message where it stands: what follows is not
read as content. -/
theorem feedAll_emptyPayload (before : List Bytes) (after : Bytes)
    (carried : ∀ payload ∈ before, Carries (width + 1) payload) :
    feedAll width (header [] [])
        (before.flatMap (frame (width + 1)) ++ (frame (width + 1) [] ++ after)) =
      finished before.flatten after := by
  rw [feedAll_append, feedAll_frames [] before carried, List.nil_append, feedAll_append,
    frame_nil, feedAll_terminator, feedAll_finished, List.nil_append]

end LengthPrefixedFraming
