import NestjsFastify.Base64Url
import NestjsFastify.IsoTimestamp
import NestjsFastify.KeysetWalk
import NestjsFastify.Utf8Decoding
import NestjsFastify.Uuid

/-! # Cursor pagination

Lists are sorted by `createdAt` and `id`, newest first, and cut into pages.  A cursor is the key of
the last row of a page, encoded as text; the next page has the rows after it.
-/
namespace NestjsFastify.CursorPagination
open IsoTimestamp (Timestamp toISOString readISOString)
open Uuid (isUuid7)
open Utf8Decoding (IsAscii asciiBytes)

/-! ### What the code uses -/

/-- The `uuid` package, what `Date` makes of texts in other forms, and the collation of the
default locale. -/
structure Platform where
  isUuid : List Char → Bool
  uuidVersion : List Char → Nat
  parseOther : List Char → Option Timestamp
  localeCompare : List Char → List Char → Int
  isUuid_of_isUuid7 : ∀ id, isUuid7 id = true → isUuid id = true ∧ uuidVersion id = 7

/-- The default locale puts UUIDs in the order of their code points. -/
def Platform.CollatesByCodePoint (platform : Platform) : Prop :=
  ∀ first second, isUuid7 first = true → isUuid7 second = true →
    (0 < platform.localeCompare first second ↔ second < first)

/-- `new Date(text)`, without a value where it is invalid. -/
def Platform.parseDate (platform : Platform) (text : List Char) : Option Timestamp :=
  match readISOString text with
  | some instant => some instant
  | none => platform.parseOther text

/-! ### Cursors -/

/-- `DecodedCursor`, and the part of a row that is `CursorKeyed`. -/
structure CursorKey where
  createdAt : Timestamp
  id : List Char
  deriving DecidableEq

/-- A row with its key. -/
class CursorKeyed (Row : Type) where
  key : Row → CursorKey

/-- `Buffer.from(text)` -/
def utf8Bytes (text : List Char) : List UInt8 := text.flatMap String.utf8EncodeChar

def encodeCursor (sortField : Timestamp) (id : List Char) : List Char :=
  Base64Url.encode (utf8Bytes (toISOString sortField ++ ':' :: id))

/-- The text up to the first `Z:`, with the `Z`, and the text behind it. -/
def splitCursor : List Char → Option (List Char × List Char)
  | 'Z' :: ':' :: id => some (['Z'], id)
  | character :: raw => (splitCursor raw).map fun (date, id) => (character :: date, id)
  | [] => none

def decodeCursor (platform : Platform) (cursor : List Char) : Option CursorKey :=
  if cursor.isEmpty || !cursor.all Base64Url.isInAlphabet then none
  else if Base64Url.encode (Base64Url.decode cursor) ≠ cursor then none
  else
    match splitCursor (Utf8Decoding.decode (Base64Url.decode cursor)) with
    | none => none
    | some (encodedDate, id) =>
        match platform.parseDate encodedDate with
        | none => none
        | some createdAt =>
            if toISOString createdAt ≠ encodedDate ∨ platform.isUuid id = false ∨
                platform.uuidVersion id ≠ 7 then
              none
            else some ⟨createdAt, id⟩

theorem splitCursor_append {front : List Char} (noZone : 'Z' ∉ front) (id : List Char) :
    splitCursor (front ++ 'Z' :: ':' :: id) = some (front ++ ['Z'], id) := by
  induction front with
  | nil => rfl
  | cons character front ih =>
    rw [List.mem_cons, not_or] at noZone
    obtain ⟨other, rest⟩ := noZone
    rw [List.cons_append, splitCursor]
    · rw [ih rest]
      rfl
    · rintro id rfl
      exact absurd rfl other

private theorem utf8Bytes_ascii {text : List Char} (ascii : ∀ character ∈ text, IsAscii character) :
    utf8Bytes text = asciiBytes text := by
  induction text with
  | nil => rfl
  | cons character text ih =>
    obtain ⟨here, rest⟩ := List.forall_mem_cons.mp ascii
    have one : String.utf8EncodeChar character = [Utf8Decoding.asciiByte character] :=
      if_pos (Nat.le_of_lt_succ here)
    rw [utf8Bytes, List.flatMap_cons, one, List.singleton_append, asciiBytes, List.map_cons]
    exact congrArg _ (ih rest)

private theorem isAscii_of_isDateTimeCharacter {character : Char}
    (own : IsoTimestamp.IsDateTimeCharacter character) : IsAscii character ∧ character ≠ 'Z' := by
  rcases own with digit | mark
  · have high : character.toNat ≤ 57 := of_decide_eq_true (Bool.and_eq_true_iff.mp digit).2
    refine ⟨Nat.lt_of_le_of_lt high (by decide), ?_⟩
    rintro rfl
    exact absurd digit (by decide)
  · have all : (['+', '-', 'T', ':', '.'].all fun character =>
        character.toNat < 0x80 && character != 'Z') = true := by decide
    have here := List.all_eq_true.mp all character mark
    simp only [Bool.and_eq_true, decide_eq_true_eq, bne_iff_ne] at here
    exact here

private theorem isAscii_of_mem_toISOString {createdAt : Timestamp} :
    ∀ character ∈ toISOString createdAt, IsAscii character := by
  intro character member
  rcases List.mem_append.mp member with own | zone
  · exact (isAscii_of_isDateTimeCharacter
      (IsoTimestamp.isDateTimeCharacter_of_mem createdAt _ own)).1
  · obtain rfl := List.mem_singleton.mp zone
    exact (by decide : 'Z'.toNat < 0x80)

/-- `isUuid(id) && uuidVersion(id) === 7` -/
def Platform.isUuidV7 (platform : Platform) (id : List Char) : Bool :=
  platform.isUuid id && platform.uuidVersion id == 7

/-- The text of a cursor is ASCII if its id is. -/
private theorem isAscii_of_mem_cursor (createdAt : Timestamp) {id : List Char}
    (plain : ∀ character ∈ id, IsAscii character) :
    ∀ character ∈ toISOString createdAt ++ ':' :: id, IsAscii character := by
  intro character member
  rcases List.mem_append.mp member with own | rest
  · exact isAscii_of_mem_toISOString character own
  · rcases List.mem_cons.mp rest with rfl | own
    · exact (by decide : ':'.toNat < 0x80)
    · exact plain character own

private theorem splitCursor_toISOString (createdAt : Timestamp) (id : List Char) :
    splitCursor (toISOString createdAt ++ ':' :: id) = some (toISOString createdAt, id) := by
  have noZone : 'Z' ∉ IsoTimestamp.toDateTime createdAt := fun member =>
    (isAscii_of_isDateTimeCharacter
      (IsoTimestamp.isDateTimeCharacter_of_mem createdAt _ member)).2 rfl
  rw [toISOString, List.append_assoc, List.singleton_append, splitCursor_append noZone]

/-- A cursor with an id in ASCII is read back as the key that it was made of. -/
theorem decodeCursor_of_ascii (platform : Platform) (createdAt : Timestamp) {id : List Char}
    (valid : platform.isUuidV7 id = true) (plain : ∀ character ∈ id, IsAscii character) :
    decodeCursor platform (encodeCursor createdAt id) = some ⟨createdAt, id⟩ := by
  have ascii := isAscii_of_mem_cursor createdAt plain
  have decoded : Utf8Decoding.decode (utf8Bytes (toISOString createdAt ++ ':' :: id)) =
      toISOString createdAt ++ ':' :: id := by
    have whole := Utf8Decoding.decodeFrom_ascii ascii []
    rw [List.append_nil] at whole
    rw [utf8Bytes_ascii ascii, Utf8Decoding.decode, whole]
    exact List.append_nil _
  have parsed : platform.parseDate (toISOString createdAt) = some createdAt := by
    rw [Platform.parseDate, IsoTimestamp.readISOString_toISOString]
  obtain ⟨accepted, version⟩ := Bool.and_eq_true_iff.mp valid
  have some : (encodeCursor createdAt id).isEmpty = false := by
    rw [List.isEmpty_eq_false_iff]
    refine Base64Url.encode_ne_nil ?_
    rw [utf8Bytes_ascii ascii, asciiBytes]
    simp
  rw [decodeCursor, some, encodeCursor, Base64Url.all_isInAlphabet_encode,
    Base64Url.decode_encode, decoded, splitCursor_toISOString]
  simp only [parsed, accepted, eq_of_beq version]
  simp

/-- A cursor is read back as the key that it was made of. -/
theorem decodeCursor_encodeCursor (platform : Platform) (createdAt : Timestamp) {id : List Char}
    (valid : isUuid7 id = true) :
    decodeCursor platform (encodeCursor createdAt id) = some ⟨createdAt, id⟩ := by
  obtain ⟨accepted, version⟩ := platform.isUuid_of_isUuid7 id valid
  exact decodeCursor_of_ascii platform createdAt
    (Bool.and_eq_true_iff.mpr ⟨accepted, beq_iff_eq.mpr version⟩) (Uuid.toNat_lt_of_mem valid)

theorem eq_of_splitCursor {raw date id : List Char} (split : splitCursor raw = some (date, id)) :
    raw = date ++ ':' :: id := by
  induction raw using splitCursor.induct generalizing date with
  | case1 id =>
    obtain ⟨rfl, rfl⟩ := Prod.mk.inj (Option.some.inj split)
    rfl
  | case2 character raw other ih =>
    rw [splitCursor] at split
    · obtain ⟨⟨rest, behind⟩, found, same⟩ := Option.map_eq_some_iff.mp split
      obtain ⟨rfl, rfl⟩ := Prod.mk.inj same
      rw [ih found]
      rfl
    · exact other
  | case3 => simp [splitCursor] at split

/-- What a cursor that is accepted has passed. -/
theorem of_decodeCursor {platform : Platform} {cursor : List Char} {position : CursorKey}
    (decoded : decodeCursor platform cursor = some position) :
    Base64Url.encode (Base64Url.decode cursor) = cursor ∧
      Utf8Decoding.decode (Base64Url.decode cursor) =
        toISOString position.createdAt ++ ':' :: position.id ∧
      platform.isUuidV7 position.id = true := by
  simp only [decodeCursor] at decoded
  split_ifs at decoded with empty canonical
  cases split : splitCursor (Utf8Decoding.decode (Base64Url.decode cursor)) with
  | none => simp [split] at decoded
  | some parts =>
    obtain ⟨date, id⟩ := parts
    cases parsed : platform.parseDate date with
    | none => simp [split, parsed] at decoded
    | some createdAt =>
      simp only [split, parsed] at decoded
      split_ifs at decoded with refused
      obtain rfl := Option.some.inj decoded
      simp only [not_or, not_not, Bool.not_eq_false] at refused
      obtain ⟨same, accepted, version⟩ := refused
      refine ⟨not_not.mp canonical, ?_, ?_⟩
      · rw [same]
        exact eq_of_splitCursor split
      · exact Bool.and_eq_true_iff.mpr ⟨accepted, beq_iff_eq.mpr version⟩

/-- What the `uuid` package takes for a UUID has hexadecimal digits and hyphens. -/
def Platform.Hexadecimal (platform : Platform) : Prop :=
  ∀ id, platform.isUuid id = true → ∀ character ∈ id,
    character.isDigit ∨ 'a' ≤ character ∧ character ≤ 'f' ∨ 'A' ≤ character ∧ character ≤ 'F' ∨
      character = '-'

theorem Platform.Hexadecimal.isAscii {platform : Platform} (hexadecimal : platform.Hexadecimal)
    {id : List Char} (valid : platform.isUuidV7 id = true) :
    ∀ character ∈ id, IsAscii character := by
  intro character member
  rcases hexadecimal id (Bool.and_eq_true_iff.mp valid).1 character member with
    digit | ⟨-, high⟩ | ⟨-, high⟩ | rfl
  · exact Nat.lt_of_le_of_lt (of_decide_eq_true (Bool.and_eq_true_iff.mp digit).2) (by decide)
  · exact Nat.lt_of_le_of_lt high (by decide)
  · exact Nat.lt_of_le_of_lt high (by decide)
  · exact (by decide : '-'.toNat < 0x80)

/-- Each position has exactly one cursor that is accepted, and every other text is rejected. -/
theorem decodeCursor_eq_some_iff (platform : Platform) (hexadecimal : platform.Hexadecimal)
    (cursor : List Char) (position : CursorKey) :
    decodeCursor platform cursor = some position ↔
      platform.isUuidV7 position.id = true ∧
        encodeCursor position.createdAt position.id = cursor := by
  constructor
  · intro decoded
    obtain ⟨canonical, text, valid⟩ := of_decodeCursor decoded
    have ascii := isAscii_of_mem_cursor position.createdAt (hexadecimal.isAscii valid)
    have bytes := Utf8Decoding.eq_asciiBytes_of_decode (text ▸ ascii)
    refine ⟨valid, ?_⟩
    rw [encodeCursor, utf8Bytes_ascii ascii, ← text, ← bytes, canonical]
  · rintro ⟨valid, rfl⟩
    exact decodeCursor_of_ascii platform position.createdAt valid (hexadecimal.isAscii valid)

/-! ### Pages -/

abbrev CursorPageSlice (Row : Type) : Type := KeysetWalk.Slice Row

section Pages
variable {Row : Type} [CursorKeyed Row]
open CursorKeyed (key)

/-- The condition of `keysetAfter` in a query; ids are stored as numbers of 128 bits. -/
def keysetAfter (cursor row : CursorKey) : Bool :=
  row.createdAt.val < cursor.createdAt.val ||
    (row.createdAt == cursor.createdAt && Uuid.toNumber row.id < Uuid.toNumber cursor.id)

def takePage (rows : List Row) (limit : Nat) : CursorPageSlice Row where
  items := rows.take limit
  hasMore := limit < rows.length

def lastCursorOf (items : List Row) : Option (List Char) :=
  items.getLast?.map fun last => encodeCursor (key last).createdAt (key last).id

def compareNewestFirst (platform : Platform) (left right : CursorKey) : Int :=
  if right.createdAt.val - left.createdAt.val ≠ 0 then right.createdAt.val - left.createdAt.val
  else platform.localeCompare right.id left.id

def paginateNewestFirst (platform : Platform) (rows : List Row) (startingAfter : Option CursorKey)
    (limit : Nat) : CursorPageSlice Row :=
  let sorted := rows.mergeSort fun left right =>
    compareNewestFirst platform (key left) (key right) ≤ 0
  match startingAfter with
  | some cursor =>
      takePage (sorted.filter fun row => 0 < compareNewestFirst platform (key row) cursor) limit
  | none => takePage sorted limit

/-- `orderBy: [{ createdAt: 'desc' }, { id: 'desc' }]` -/
def orderedBefore (left right : Row) : Bool :=
  (key right).createdAt.val < (key left).createdAt.val ||
    ((key right).createdAt == (key left).createdAt &&
      Uuid.toNumber (key right).id ≤ Uuid.toNumber (key left).id)

/-- The query for a page, among the rows that its other conditions leave. -/
def findAllCursor (rows : List Row) (startingAfter : Option CursorKey) (limit : Nat) :
    CursorPageSlice Row :=
  let matching :=
    match startingAfter with
    | some cursor => rows.filter fun row => keysetAfter cursor (key row)
    | none => rows
  takePage ((matching.mergeSort orderedBefore).take (limit + 1)) limit

/-- The answer to a request for a page, without one for a cursor that is invalid. -/
def listPage (platform : Platform) (rows : List Row) (limit : Nat) :
    Option (List Char) → Option (CursorPageSlice Row)
  | none => some (findAllCursor rows none limit)
  | some raw =>
      if raw.isEmpty then some (findAllCursor rows none limit)
      else (decodeCursor platform raw).map fun cursor => findAllCursor rows (some cursor) limit

/-- The pages, each asked for with the last cursor of the one before. -/
def walkPages (platform : Platform) (rows : List Row) (limit : Nat) :
    Option (List (CursorPageSlice Row)) :=
  KeysetWalk.walk (listPage platform rows limit) lastCursorOf (rows.length + 1) none

/-! ### The order of the rows -/

theorem keysetAfter_iff {cursor row : CursorKey} : keysetAfter cursor row = true ↔
    row.createdAt.val < cursor.createdAt.val ∨
      row.createdAt = cursor.createdAt ∧ Uuid.toNumber row.id < Uuid.toNumber cursor.id := by
  simp only [keysetAfter, Bool.or_eq_true, Bool.and_eq_true, decide_eq_true_eq, beq_iff_eq]

/-- The condition of the query is the comparison with the cursor. -/
theorem keysetAfter_iff_compare {platform : Platform} (collates : platform.CollatesByCodePoint)
    {cursor row : CursorKey} (cursorValid : isUuid7 cursor.id = true)
    (rowValid : isUuid7 row.id = true) :
    keysetAfter cursor row = true ↔ 0 < compareNewestFirst platform row cursor := by
  have apart := collates cursor.id row.id cursorValid rowValid
  rw [keysetAfter_iff, Uuid.toNumber_lt_iff rowValid cursorValid, ← apart, compareNewestFirst,
    ← Subtype.coe_inj]
  split_ifs with sameInstant
  · omega
  · omega

/-- Of keys of one instant the condition looks at the ids only. -/
theorem keysetAfter_same_instant (createdAt : Timestamp) {first second : List Char}
    (firstValid : isUuid7 first = true) (secondValid : isUuid7 second = true) :
    keysetAfter ⟨createdAt, first⟩ ⟨createdAt, second⟩ = true ↔ second < first := by
  rw [keysetAfter_iff, Uuid.toNumber_lt_iff secondValid firstValid]
  simp

theorem not_orderedBefore_iff {left right : Row} : orderedBefore left right = false ↔
    keysetAfter (key right) (key left) = true := by
  rw [keysetAfter_iff, ← Bool.not_eq_true, orderedBefore]
  simp only [Bool.or_eq_true, Bool.and_eq_true, decide_eq_true_eq, beq_iff_eq,
    ← Subtype.coe_inj]
  omega

theorem orderedBefore_total (left right : Row) :
    (orderedBefore left right || orderedBefore right left) = true := by
  by_contra neither
  rw [Bool.not_eq_true, Bool.or_eq_false_iff, not_orderedBefore_iff, not_orderedBefore_iff,
    keysetAfter_iff, keysetAfter_iff, 
    ← Subtype.coe_inj, ← Subtype.coe_inj] at neither
  omega

theorem keysetAfter_asymm (first second : CursorKey) (behind : keysetAfter first second = true) :
    keysetAfter second first = false := by
  rw [← Bool.not_eq_true, keysetAfter_iff]
  rw [keysetAfter_iff] at behind
  simp only [← Subtype.coe_inj] at *
  omega

theorem orderedBefore_trans (first second third : Row) (one : orderedBefore first second = true)
    (two : orderedBefore second third = true) : orderedBefore first third = true := by
  rw [← Bool.not_eq_false, not_orderedBefore_iff, keysetAfter_iff] at *
  simp only [← Subtype.coe_inj] at *
  omega

/-- The comparator sorts as the query does. -/
theorem compare_le_iff_orderedBefore {platform : Platform}
    (collates : platform.CollatesByCodePoint) {left right : Row}
    (leftValid : isUuid7 (key left).id = true) (rightValid : isUuid7 (key right).id = true) :
    decide (compareNewestFirst platform (key left) (key right) ≤ 0) = orderedBefore left right := by
  have behind := keysetAfter_iff_compare collates rightValid leftValid
  rw [← not_orderedBefore_iff] at behind
  rw [Bool.eq_iff_iff, decide_eq_true_iff, ← Bool.not_eq_false, behind]
  omega

section Sorted
variable {rows : List Row} (distinct : (rows.map key).Nodup)
  (ids : ∀ row ∈ rows, isUuid7 (key row).id = true)
include distinct ids

/-- Rows that are ordered both ways are the same row. -/
theorem eq_of_orderedBefore {left right : Row} (leftOwn : left ∈ rows) (rightOwn : right ∈ rows)
    (one : orderedBefore left right = true) (two : orderedBefore right left = true) :
    left = right := by
  refine List.inj_on_of_nodup_map distinct leftOwn rightOwn ?_
  have same : (key left).createdAt = (key right).createdAt ∧
      Uuid.toNumber (key left).id = Uuid.toNumber (key right).id := by
    rw [← Bool.not_eq_false, not_orderedBefore_iff, keysetAfter_iff] at one two
    simp only [← Subtype.coe_inj] at *
    omega
  have id := (Uuid.toNumber_inj (ids left leftOwn) (ids right rightOwn)).mp same.2
  cases leftKey : key left
  cases rightKey : key right
  simp_all

theorem pairwise_keysetAfter : (rows.mergeSort orderedBefore).Pairwise fun first second =>
    keysetAfter (key first) (key second) := by
  have sorted := List.pairwise_mergeSort orderedBefore_trans orderedBefore_total rows
  have nodup : (rows.mergeSort orderedBefore).Nodup :=
    (List.mergeSort_perm rows orderedBefore).nodup_iff.mpr (List.Nodup.of_map key distinct)
  refine (sorted.and nodup).imp_of_mem fun {first second} firstOwn secondOwn both => ?_
  rw [List.mem_mergeSort] at firstOwn secondOwn
  rw [← not_orderedBefore_iff, ← Bool.not_eq_true]
  exact fun back => both.2 (eq_of_orderedBefore distinct ids firstOwn secondOwn both.1 back)

/-- Sorting the rows that match is keeping those among the sorted rows. -/
theorem mergeSort_filter (matching : Row → Bool) :
    (rows.filter matching).mergeSort orderedBefore =
      (rows.mergeSort orderedBefore).filter matching := by
  have perm : ((rows.filter matching).mergeSort orderedBefore).Perm
      ((rows.mergeSort orderedBefore).filter matching) :=
    (List.mergeSort_perm _ _).trans ((List.mergeSort_perm rows orderedBefore).symm.filter matching)
  refine perm.eq_of_pairwise (fun left right leftOwn rightOwn one two => ?_)
    (List.pairwise_mergeSort orderedBefore_trans orderedBefore_total _)
    ((List.pairwise_mergeSort orderedBefore_trans orderedBefore_total rows).filter matching)
  rw [List.mem_mergeSort, List.mem_filter] at leftOwn
  rw [List.mem_filter, List.mem_mergeSort] at rightOwn
  exact eq_of_orderedBefore distinct ids leftOwn.1 rightOwn.1 one two

end Sorted

omit [CursorKeyed Row] in
/-- One row more than the limit is enough to see whether more follow. -/
theorem takePage_take (rows : List Row) (limit : Nat) :
    takePage (rows.take (limit + 1)) limit = KeysetWalk.slice limit rows := by
  have more : limit < (rows.take (limit + 1)).length ↔ limit < rows.length := by
    rw [List.length_take]
    omega
  simp only [takePage, KeysetWalk.slice, List.take_take, more, Nat.min_eq_left (Nat.le_succ limit)]

/-! ### The walk -/

/-- The first key is that of a newer row; rows of one instant go by their ids. -/
def NewestFirst (first second : CursorKey) : Prop :=
  second.createdAt.val < first.createdAt.val ∨
    second.createdAt = first.createdAt ∧ second.id < first.id

theorem newestFirst_iff {first second : CursorKey} (firstValid : isUuid7 first.id = true)
    (secondValid : isUuid7 second.id = true) :
    NewestFirst first second ↔ keysetAfter first second = true := by
  rw [keysetAfter_iff, Uuid.toNumber_lt_iff secondValid firstValid, NewestFirst]

/-- What pagination is for: the pages have every row once, newest first, and only the last says that
nothing follows; the condition of the query is the comparator, and pages cut in memory are those of
the query. -/
structure PaginationComplete (platform : Platform) (rows : List Row) (limit : Nat) : Prop where
  walk : ∃ pages, walkPages platform rows limit = some pages ∧
    (pages.flatMap fun page => page.items).Perm rows ∧
    ((pages.flatMap fun page => page.items).Pairwise fun first second =>
      NewestFirst (key first) (key second)) ∧
    KeysetWalk.EndsOnce pages
  keyset : ∀ cursor row, isUuid7 cursor.id = true → isUuid7 row.id = true →
    (keysetAfter cursor row = true ↔ 0 < compareNewestFirst platform row cursor)
  inMemory : ∀ startingAfter, (∀ cursor ∈ startingAfter, isUuid7 cursor.id = true) →
    paginateNewestFirst platform rows startingAfter limit = findAllCursor rows startingAfter limit

section Complete
variable (platform : Platform) {rows : List Row} (distinct : (rows.map key).Nodup)
  (ids : ∀ row ∈ rows, isUuid7 (key row).id = true) (limit : Nat)
include distinct ids

/-- A page is cut from the sorted rows behind the cursor. -/
theorem findAllCursor_some (cursor : CursorKey) : findAllCursor rows (some cursor) limit =
    KeysetWalk.slice limit
      ((rows.mergeSort orderedBefore).filter fun row => keysetAfter cursor (key row)) := by
  rw [findAllCursor, takePage_take, mergeSort_filter distinct ids]

omit distinct in
theorem paginateNewestFirst_eq (collates : platform.CollatesByCodePoint)
    (startingAfter : Option CursorKey)
    (valid : ∀ cursor ∈ startingAfter, isUuid7 cursor.id = true) :
    paginateNewestFirst platform rows startingAfter limit =
      KeysetWalk.slice limit (match startingAfter with
        | some cursor => (rows.mergeSort orderedBefore).filter fun row => keysetAfter cursor (key row)
        | none => rows.mergeSort orderedBefore) := by
  have sorted : (rows.mergeSort fun left right =>
      decide (compareNewestFirst platform (key left) (key right) ≤ 0)) =
        rows.mergeSort orderedBefore := by
    have mapped := List.map_mergeSort (f := id) (l := rows) (s := orderedBefore)
      fun left leftOwn right rightOwn =>
        compare_le_iff_orderedBefore collates (ids left leftOwn) (ids right rightOwn)
    rwa [List.map_id, List.map_id] at mapped
  unfold paginateNewestFirst
  rw [sorted]
  cases startingAfter with
  | none => rfl
  | some cursor =>
    have kept : ((rows.mergeSort orderedBefore).filter fun row =>
        decide (0 < compareNewestFirst platform (key row) cursor)) =
          (rows.mergeSort orderedBefore).filter fun row => keysetAfter cursor (key row) := by
      refine List.filter_congr fun row own => ?_
      rw [Bool.eq_iff_iff, decide_eq_true_iff]
      exact (keysetAfter_iff_compare collates (valid cursor rfl)
        (ids row (List.mem_mergeSort.mp own))).symm
    exact congrArg (takePage · limit) kept

theorem walkPages_complete (positive : 1 ≤ limit) :
    ∃ pages, walkPages platform rows limit = some pages ∧
      pages.flatMap KeysetWalk.Slice.items = rows.mergeSort orderedBefore ∧
      KeysetWalk.EndsOnce pages := by
  have asymm : ∀ first second : Row, keysetAfter (key first) (key second) = true →
      keysetAfter (key second) (key first) = false := fun first second => keysetAfter_asymm _ _
  have first : listPage platform rows limit none =
      some (KeysetWalk.slice limit (rows.mergeSort orderedBefore)) :=
    congrArg some (takePage_take _ limit)
  have decoded : ∀ row ∈ rows, decodeCursor platform (encodeCursor (key row).createdAt (key row).id) =
      some (key row) := fun row own => decodeCursor_encodeCursor platform _ (ids row own)
  have follows : ∀ row ∈ rows.mergeSort orderedBefore,
      listPage platform rows limit (some (encodeCursor (key row).createdAt (key row).id)) =
        some (KeysetWalk.slice limit
          ((rows.mergeSort orderedBefore).filter fun other => keysetAfter (key row) (key other))) := by
    intro row own
    have read := decoded row (List.mem_mergeSort.mp own)
    have some : (encodeCursor (key row).createdAt (key row).id).isEmpty = false := by
      by_contra empty
      simp [decodeCursor, (Bool.not_eq_false _).mp empty] at read
    simp only [listPage, some, read, Option.map_some, findAllCursor_some distinct ids]
    rfl
  have keyed : ∀ front, ∀ row ∈ rows.mergeSort orderedBefore, lastCursorOf (front ++ [row]) =
      some (encodeCursor (key row).createdAt (key row).id) :=
    fun front row _ => by simp [lastCursorOf]
  have walked := KeysetWalk.walk_complete positive asymm (pairwise_keysetAfter distinct ids) first
    follows keyed
  rwa [List.length_mergeSort] at walked

theorem paginationComplete_iff (positive : 1 ≤ limit) :
    PaginationComplete platform rows limit ↔ platform.CollatesByCodePoint := by
  constructor
  · intro complete first second firstValid secondValid
    have instant : Timestamp := ⟨0, by decide⟩
    have same := complete.keyset ⟨instant, first⟩ ⟨instant, second⟩ firstValid secondValid
    rw [keysetAfter_same_instant instant firstValid secondValid] at same
    rw [same, compareNewestFirst, if_neg (by simp)]
  · intro collates
    constructor
    case walk =>
      obtain ⟨pages, walked, items, ends⟩ := walkPages_complete platform distinct ids limit positive
      refine ⟨pages, walked, items ▸ List.mergeSort_perm rows orderedBefore, ?_, ends⟩
      rw [items]
      refine (pairwise_keysetAfter distinct ids).imp_of_mem fun {first second} one two behind => ?_
      exact (newestFirst_iff (ids first (List.mem_mergeSort.mp one))
        (ids second (List.mem_mergeSort.mp two))).mpr behind
    case keyset =>
      exact fun _ _ cursorValid rowValid => keysetAfter_iff_compare collates cursorValid rowValid
    case inMemory =>
      intro startingAfter valid
      rw [paginateNewestFirst_eq platform ids limit collates startingAfter valid]
      cases startingAfter with
      | none => exact (takePage_take _ limit).symm
      | some cursor => exact (findAllCursor_some distinct ids limit cursor).symm

end Complete
end Pages

/-! ### Collations -/

/-- A platform whose default locale compares texts by the keys of their characters. -/
def platformOf (keys : List Char → List Nat) : Platform where
  isUuid := isUuid7
  uuidVersion _ := 7
  parseOther _ := none
  localeCompare first second :=
    if keys first < keys second then -1 else if keys second < keys first then 1 else 0
  isUuid_of_isUuid7 _ valid := ⟨valid, rfl⟩

/-- A collation by code points, for UUIDs in lower case. -/
def codePointPlatform : Platform := platformOf (List.map Char.toNat)

/-- The Danish letters of a UUID: two letters `a` are the last one of the alphabet. -/
def danishKeys : List Char → List Nat
  | 'a' :: 'a' :: text => 0x110000 :: danishKeys text
  | character :: text => character.toNat :: danishKeys text
  | [] => []

/-- The Danish collation, for UUIDs in lower case. -/
def danishPlatform : Platform := platformOf danishKeys

theorem map_toNat_lt_iff {first second : List Char} :
    first.map Char.toNat < second.map Char.toNat ↔ first < second := by
  induction first generalizing second with
  | nil => cases second <;> simp
  | cons character first ih =>
    cases second with
    | nil => simp
    | cons other second =>
      have less : character.toNat < other.toNat ↔ character < other := Iff.rfl
      have equal : character.toNat = other.toNat ↔ character = other := Char.toNat_inj
      simp only [List.map_cons, List.cons_lt_cons_iff, ih, less, equal]

theorem codePointPlatform_collates : codePointPlatform.CollatesByCodePoint := by
  intro first second _ _
  simp only [codePointPlatform, platformOf, map_toNat_lt_iff]
  split_ifs with before after
  · simp [before.not_gt]
  · simp [after]
  · simp [after]

theorem codePointPlatform_hexadecimal : codePointPlatform.Hexadecimal := by
  intro id valid character member
  rcases Uuid.of_mem_fits Uuid.uniform_shape valid character member with rfl | hex
  · exact .inr (.inr (.inr rfl))
  · rcases Bool.or_eq_true_iff.mp hex with digit | letter
    · exact .inl digit
    · exact .inr (.inl (by simpa using letter))

/-- The text `2026-05-18T09:54:28.000Z:019dd1a5-9235-70db-8d57-54ef901d8185` as a cursor. -/
theorem decodeCursor_example :
    decodeCursor codePointPlatform
        ("MjAyNi0wNS0xOFQwOTo1NDoyOC4wMDBaOjAxOWRkMWE1LTkyMzUtNzBkYi04ZDU3LTU0ZWY5MDFk" ++
          "ODE4NQ").toList =
      some ⟨⟨1779098068000, by decide⟩, "019dd1a5-9235-70db-8d57-54ef901d8185".toList⟩ :=
  (decodeCursor_eq_some_iff codePointPlatform codePointPlatform_hexadecimal _ _).mpr
    ⟨by decide, by decide⟩

instance : CursorKeyed CursorKey where
  key row := row

/-- Three rows, two of them of the same instant. -/
def exampleRows : List CursorKey :=
  [⟨⟨1767225600000, by decide⟩, "01900000-0000-7000-8000-000000000001".toList⟩,
    ⟨⟨1767312000000, by decide⟩, "01900000-0000-7000-8000-000000000003".toList⟩,
    ⟨⟨1767225600000, by decide⟩, "01900000-0000-7000-8000-000000000002".toList⟩]

theorem paginationComplete_example : PaginationComplete codePointPlatform exampleRows 2 :=
  (paginationComplete_iff codePointPlatform (by decide) (by decide) 2 (by decide)).mpr
    codePointPlatform_collates

/-- Two rows of one instant whose ids end in `aa` and in `b0`. -/
def danishRows : List CursorKey :=
  [⟨⟨1767225600000, by decide⟩, "01900000-0000-7000-8000-0000000000aa".toList⟩,
    ⟨⟨1767225600000, by decide⟩, "01900000-0000-7000-8000-0000000000b0".toList⟩]

/-- Behind the row with `b0` the query finds the one with `aa`, which the comparator puts before. -/
theorem danish_order : ¬ PaginationComplete danishPlatform danishRows 1 := by
  intro complete
  have behind := (complete.keyset (danishRows[1]) (danishRows[0]) (by decide) (by decide)).mp
    (by decide)
  exact absurd behind (by decide)

end NestjsFastify.CursorPagination
