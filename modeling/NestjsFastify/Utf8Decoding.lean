import Mathlib.Data.List.Infix

/-! # Lossy UTF-8 decoding

Bytes are decoded one by one.  A sequence that breaks off becomes one replacement character, and
the byte that breaks it is looked at afresh.  An ASCII text occurs in the decoded text exactly
where its bytes occur.
-/
namespace Utf8Decoding

def replacement : Char := '\uFFFD'

/-- Between sequences, or inside one: how many bytes are owed after the next, in which range the
next one has to be, and the code point so far. -/
inductive Decoder where
  | idle
  | inside (owed low high codePoint : Nat)
  deriving DecidableEq, Repr

/-- The character of a code point; surrogates have none. -/
def scalar (codePoint : Nat) : Char :=
  if codePoint.isValidChar then Char.ofNat codePoint else replacement

/-- The first byte of a sequence, by its value. -/
def leadOf (code : Nat) : Decoder × List Char :=
  if code < 0x80 then (.idle, [Char.ofNat code])
  else if 0xC2 ≤ code ∧ code ≤ 0xDF then (.inside 0 0x80 0xBF (code - 0xC0), [])
  else if 0xE0 ≤ code ∧ code ≤ 0xEF then
    (.inside 1 (if code = 0xE0 then 0xA0 else 0x80) (if code = 0xED then 0x9F else 0xBF)
      (code - 0xE0), [])
  else if 0xF0 ≤ code ∧ code ≤ 0xF4 then
    (.inside 2 (if code = 0xF0 then 0x90 else 0x80) (if code = 0xF4 then 0x8F else 0xBF)
      (code - 0xF0), [])
  else (.idle, [replacement])

def lead (byte : UInt8) : Decoder × List Char := leadOf byte.toNat

/-- One more byte of a sequence. -/
def extend (owed codePoint : Nat) : Decoder × List Char :=
  match owed with
  | 0 => (.idle, [scalar codePoint])
  | owed + 1 => (.inside owed 0x80 0xBF codePoint, [])

/-- The next byte, and the characters that are complete with it. -/
def feed : Decoder → UInt8 → Decoder × List Char
  | .idle, byte => lead byte
  | .inside owed low high codePoint, byte =>
      if low ≤ byte.toNat ∧ byte.toNat ≤ high then
        extend owed (codePoint * 64 + (byte.toNat - 0x80))
      else ((lead byte).1, replacement :: (lead byte).2)

/-- What becomes of a sequence that is not completed. -/
def flush : Decoder → List Char
  | .idle => []
  | .inside .. => [replacement]

def decodeFrom : Decoder → List UInt8 → List Char
  | decoder, [] => flush decoder
  | decoder, byte :: bytes => (feed decoder byte).2 ++ decodeFrom (feed decoder byte).1 bytes

def decode (bytes : List UInt8) : List Char := decodeFrom .idle bytes

/-! ### ASCII -/

def IsAscii (character : Char) : Prop := character.toNat < 0x80

def asciiByte (character : Char) : UInt8 := UInt8.ofNat character.toNat

def asciiBytes (text : List Char) : List UInt8 := text.map asciiByte

theorem toNat_asciiByte {character : Char} (ascii : IsAscii character) :
    (asciiByte character).toNat = character.toNat := by
  unfold IsAscii at ascii
  simp only [asciiByte, UInt8.toNat_ofNat']
  exact Nat.mod_eq_of_lt (by omega)

theorem lead_asciiByte {character : Char} (ascii : IsAscii character) :
    lead (asciiByte character) = (.idle, [character]) := by
  rw [lead, toNat_asciiByte ascii, leadOf, if_pos (show character.toNat < 0x80 from ascii),
    Char.ofNat_toNat]

/-- Inside a sequence every byte that goes on with it is at least `0x80`, and the code point in
the end as well. -/
def Long : Decoder → Prop
  | .idle => True
  | .inside owed low _ codePoint =>
      0x80 ≤ low ∧ (2 ≤ codePoint ∨ 1 ≤ owed ∧ (1 ≤ codePoint ∨ 0x82 ≤ low))

theorem long_lead (byte : UInt8) : Long (lead byte).1 := by
  unfold lead leadOf
  split_ifs <;> simp only [Long] <;> omega

theorem long_feed {decoder : Decoder} (long : Long decoder) (byte : UInt8) :
    Long (feed decoder byte).1 := by
  cases decoder with
  | idle => exact long_lead byte
  | inside owed low high codePoint =>
    simp only [Long] at long
    by_cases within : low ≤ byte.toNat ∧ byte.toNat ≤ high
    · rw [feed, if_pos within]
      cases owed with
      | zero => trivial
      | succ owed =>
        simp only [extend, Long]
        omega
    · rw [feed, if_neg within]
      exact long_lead byte

theorem feed_asciiByte {decoder : Decoder} (long : Long decoder) {character : Char}
    (ascii : IsAscii character) :
    feed decoder (asciiByte character) = (.idle, flush decoder ++ [character]) := by
  cases decoder with
  | idle => exact lead_asciiByte ascii
  | inside owed low high codePoint =>
    have outside : ¬ (low ≤ (asciiByte character).toNat ∧ (asciiByte character).toNat ≤ high) := by
      rw [toNat_asciiByte ascii]
      have : character.toNat < 0x80 := ascii
      simp only [Long] at long
      omega
    simp only [feed, if_neg outside, lead_asciiByte ascii, flush, List.singleton_append]

/-- An ASCII text is decoded to itself, behind what its first byte ends. -/
theorem decodeFrom_ascii {text : List Char} (ascii : ∀ character ∈ text, IsAscii character)
    (bytes : List UInt8) :
    decodeFrom .idle (asciiBytes text ++ bytes) = text ++ decodeFrom .idle bytes := by
  induction text with
  | nil => rfl
  | cons character text ih =>
    have here := ascii character List.mem_cons_self
    have rest := ih fun other member => ascii other (List.mem_cons_of_mem _ member)
    rw [asciiBytes, List.map_cons, List.cons_append, decodeFrom, @feed_asciiByte .idle trivial _ here]
    simpa [flush, asciiBytes] using rest

/-- Where the bytes of an ASCII text occur, the text occurs. -/
theorem decodeFrom_of_bytes {text : List Char} (ascii : ∀ character ∈ text, IsAscii character)
    (nonempty : text ≠ []) (front back : List UInt8) {decoder : Decoder} (long : Long decoder) :
    ∃ before, decodeFrom decoder (front ++ asciiBytes text ++ back) =
      before ++ text ++ decode back := by
  induction front generalizing decoder with
  | nil =>
    obtain ⟨character, text, rfl⟩ := List.exists_cons_of_ne_nil nonempty
    have here := ascii character List.mem_cons_self
    refine ⟨flush decoder, ?_⟩
    rw [List.nil_append, asciiBytes, List.map_cons, List.cons_append, decodeFrom,
      feed_asciiByte long here]
    simp only [List.append_assoc, List.cons_append, List.nil_append]
    rw [show List.map asciiByte text = asciiBytes text from rfl,
      decodeFrom_ascii (fun other member => ascii other (List.mem_cons_of_mem _ member)), decode]
  | cons byte front ih =>
    obtain ⟨before, same⟩ := ih (long_feed long byte)
    refine ⟨(feed decoder byte).2 ++ before, ?_⟩
    rw [List.cons_append, List.cons_append, decodeFrom, same]
    simp only [List.append_assoc]

theorem decode_of_bytes {text : List Char} (ascii : ∀ character ∈ text, IsAscii character)
    (nonempty : text ≠ []) (front back : List UInt8) :
    ∃ before, decode (front ++ asciiBytes text ++ back) = before ++ text ++ decode back :=
  decodeFrom_of_bytes ascii nonempty front back trivial

/-! ### Segments -/

/-- The characters with the bytes that each stands for.  An ASCII character stands for its byte. -/
structure Segmented (bytes : List UInt8) (text : List Char)
    (segments : List (Char × List UInt8)) : Prop where
  characters : segments.map (·.1) = text
  bytes : segments.flatMap (·.2) = bytes
  ascii : ∀ segment ∈ segments, IsAscii segment.1 → segment.2 = [asciiByte segment.1]

private theorem Segmented.cons {bytes : List UInt8} {text : List Char}
    {segments : List (Char × List UInt8)} (segmented : Segmented bytes text segments)
    {character : Char} {own : List UInt8}
    (ascii : IsAscii character → own = [asciiByte character]) :
    Segmented (own ++ bytes) (character :: text) ((character, own) :: segments) where
  characters := by rw [List.map_cons, segmented.characters]
  bytes := by rw [List.flatMap_cons, segmented.bytes]
  ascii := List.forall_mem_cons.mpr ⟨ascii, segmented.ascii⟩

theorem toNat_ofNat {codePoint : Nat} (valid : codePoint.isValidChar) :
    (Char.ofNat codePoint).toNat = codePoint := by
  rw [Char.ofNat, dif_pos valid]
  rfl

theorem not_ascii_replacement : ¬ IsAscii replacement := by
  unfold IsAscii
  decide

theorem not_ascii_scalar {codePoint : Nat} (large : 0x80 ≤ codePoint) :
    ¬ IsAscii (scalar codePoint) := by
  unfold scalar
  split
  · rename_i valid
    rw [IsAscii, toNat_ofNat valid]
    omega
  · exact not_ascii_replacement

private theorem lead_cases (byte : UInt8) :
    (∃ character, byte = asciiByte character ∧ lead byte = (.idle, [character])) ∨
      (∃ owed low high codePoint, lead byte = (.inside owed low high codePoint, [])) ∨
      lead byte = (.idle, [replacement]) := by
  unfold lead leadOf
  by_cases ascii : byte.toNat < 0x80
  · refine .inl ⟨Char.ofNat byte.toNat, ?_, if_pos ascii⟩
    rw [asciiByte, toNat_ofNat (.inl (by omega)), UInt8.ofNat_toNat]
  · rw [if_neg ascii]
    right
    by_cases two : 0xC2 ≤ byte.toNat ∧ byte.toNat ≤ 0xDF
    · exact .inl ⟨_, _, _, _, if_pos two⟩
    rw [if_neg two]
    by_cases three : 0xE0 ≤ byte.toNat ∧ byte.toNat ≤ 0xEF
    · exact .inl ⟨_, _, _, _, if_pos three⟩
    rw [if_neg three]
    by_cases four : 0xF0 ≤ byte.toNat ∧ byte.toNat ≤ 0xF4
    · exact .inl ⟨_, _, _, _, if_pos four⟩
    · exact .inr (if_neg four)

/-- The bytes that the decoder has taken since the last character belong to the next one. -/
private theorem exists_segments (bytes pending : List UInt8) {decoder : Decoder}
    (long : Long decoder) (idle : decoder = .idle → pending = []) :
    ∃ segments, Segmented (pending ++ bytes) (decodeFrom decoder bytes) segments := by
  induction bytes generalizing pending decoder with
  | nil =>
    cases decoder with
    | idle => exact ⟨[], by simp [decodeFrom, flush], by simp [idle rfl], by simp⟩
    | inside owed low high codePoint =>
      refine ⟨[(replacement, pending)], by simp [decodeFrom, flush], by simp, ?_⟩
      simpa using fun ascii => absurd ascii not_ascii_replacement
  | cons byte bytes ih =>
    have fresh : ∃ segments, Segmented (byte :: bytes)
        ((lead byte).2 ++ decodeFrom (lead byte).1 bytes) segments := by
      have long := long_lead byte
      rcases lead_cases byte with ⟨character, rfl, same⟩ | ⟨owed, low, high, codePoint, same⟩ | same
      · obtain ⟨segments, segmented⟩ := @ih [] .idle trivial fun _ => rfl
        rw [same]
        exact ⟨_, segmented.cons fun _ => rfl⟩
      · rw [same] at long ⊢
        exact ih [byte] long nofun
      · obtain ⟨segments, segmented⟩ := @ih [] .idle trivial fun _ => rfl
        rw [same]
        exact ⟨_, @Segmented.cons _ _ _ segmented replacement [byte] fun ascii => absurd ascii not_ascii_replacement⟩
    cases decoder with
    | idle =>
      rw [idle rfl]
      exact fresh
    | inside owed low high codePoint =>
      have longFeed := long_feed long byte
      simp only [Long] at long
      rw [decodeFrom]
      by_cases within : low ≤ byte.toNat ∧ byte.toNat ≤ high
      · rw [feed, if_pos within] at longFeed ⊢
        cases owed with
        | zero =>
          obtain ⟨segments, segmented⟩ := @ih [] .idle trivial fun _ => rfl
          have large : 0x80 ≤ codePoint * 64 + (byte.toNat - 0x80) := by omega
          have longer := @Segmented.cons _ _ _ segmented _ (pending ++ [byte])
            fun ascii => absurd ascii (not_ascii_scalar large)
          exact ⟨_, by simpa [extend] using longer⟩
        | succ owed => simpa [extend] using ih (pending ++ [byte]) longFeed (by simp [extend])
      · rw [feed, if_neg within]
        obtain ⟨segments, segmented⟩ := fresh
        exact ⟨_, segmented.cons fun ascii => absurd ascii not_ascii_replacement⟩

private theorem bytes_of_segments {segments : List (Char × List UInt8)}
    (own : ∀ segment ∈ segments, IsAscii segment.1 → segment.2 = [asciiByte segment.1])
    (ascii : ∀ character ∈ segments.map (·.1), IsAscii character) :
    segments.flatMap (·.2) = asciiBytes (segments.map (·.1)) := by
  induction segments with
  | nil => rfl
  | cons segment segments ih =>
    obtain ⟨here, others⟩ := List.forall_mem_cons.mp own
    rw [List.map_cons] at ascii
    obtain ⟨asciiHere, asciiOthers⟩ := List.forall_mem_cons.mp ascii
    rw [List.flatMap_cons, here asciiHere, ih others asciiOthers]
    rfl

/-- Bytes that are decoded to an ASCII text are the bytes of this text. -/
theorem eq_asciiBytes_of_decode {bytes : List UInt8}
    (ascii : ∀ character ∈ decode bytes, IsAscii character) : bytes = asciiBytes (decode bytes) := by
  obtain ⟨segments, segmented⟩ := @exists_segments bytes [] .idle trivial fun _ => rfl
  have characters : segments.map (·.1) = decode bytes := segmented.characters
  have whole : segments.flatMap (·.2) = bytes := segmented.bytes
  rw [← characters] at ascii
  rw [← characters, ← bytes_of_segments segmented.ascii ascii, whole]

/-- An ASCII text occurs in the decoded text exactly where its bytes occur. -/
theorem infix_decode_iff {text : List Char} (ascii : ∀ character ∈ text, IsAscii character)
    (bytes : List UInt8) : text <:+: decode bytes ↔ asciiBytes text <:+: bytes := by
  constructor
  · rintro ⟨before, after, occurs⟩
    obtain ⟨segments, segmented⟩ := @exists_segments bytes [] .idle trivial fun _ => rfl
    have characters : segments.map (·.1) = before ++ text ++ after :=
      segmented.characters.trans occurs.symm
    obtain ⟨front, back, rfl, front', rfl⟩ := List.map_eq_append_iff.mp characters
    obtain ⟨outer, middle, rfl, rfl, rfl⟩ := List.map_eq_append_iff.mp front'
    have own : ∀ segment ∈ middle, IsAscii segment.1 → segment.2 = [asciiByte segment.1] :=
      fun segment member => segmented.ascii segment (by simp [member])
    refine ⟨outer.flatMap (·.2), back.flatMap (·.2), ?_⟩
    rw [← bytes_of_segments own ascii, ← List.flatMap_append, ← List.flatMap_append]
    exact segmented.bytes
  · rintro ⟨front, back, rfl⟩
    by_cases nonempty : text = []
    · exact nonempty ▸ List.nil_infix
    · obtain ⟨before, same⟩ := decode_of_bytes ascii nonempty front back
      exact ⟨before, decode back, same.symm⟩

end Utf8Decoding
