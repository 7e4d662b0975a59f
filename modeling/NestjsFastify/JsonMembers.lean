import Mathlib.Data.List.Lex
import Mathlib.Data.List.Perm.Basic
import NestjsFastify.JsonText

/-! # The members of JSON objects

Two values are the same up to the order of the members of their objects, at every depth.  Script
lists the members of an object whose keys are array indices first.
-/
namespace JsonMembers
open QuotedText (Text)
open JsonText

section
variable {Number : Type}

mutual

/-- The keys of every object differ. -/
def Distinct : Value Number → Prop
  | .array items => DistinctItems items
  | .object members => (members.map Prod.fst).Nodup ∧ DistinctMembers members
  | _ => True

def DistinctItems : List (Value Number) → Prop
  | [] => True
  | item :: items => Distinct item ∧ DistinctItems items

def DistinctMembers : List (Text × Value Number) → Prop
  | [] => True
  | (_, value) :: members => Distinct value ∧ DistinctMembers members

end

example : Distinct (.object [([97], .null), ([98], .number 1)]) := by
  simp [Distinct, DistinctMembers]

theorem distinctItems_iff (items : List (Value Number)) :
    DistinctItems items ↔ ∀ item ∈ items, Distinct item := by
  induction items with
  | nil => simp [DistinctItems]
  | cons item items ih => rw [DistinctItems, ih, List.forall_mem_cons]

theorem distinctMembers_iff (members : List (Text × Value Number)) :
    DistinctMembers members ↔ ∀ member ∈ members, Distinct member.2 := by
  induction members with
  | nil => simp [DistinctMembers]
  | cons member members ih => rw [DistinctMembers, ih, List.forall_mem_cons]

mutual

/-- Equal up to the order of the members of objects. -/
inductive Same : Value Number → Value Number → Prop
  | null : Same .null .null
  | bool (value : Bool) : Same (.bool value) (.bool value)
  | number (value : Number) : Same (.number value) (.number value)
  | string (text : Text) : Same (.string text) (.string text)
  | array {items others : List (Value Number)} (same : SameItems items others) :
      Same (.array items) (.array others)
  | object {members reordered others : List (Text × Value Number)}
      (same : SameMembers members reordered) (order : reordered.Perm others) :
      Same (.object members) (.object others)

inductive SameItems : List (Value Number) → List (Value Number) → Prop
  | nil : SameItems [] []
  | cons {item other : Value Number} {items others : List (Value Number)} (first : Same item other)
      (rest : SameItems items others) : SameItems (item :: items) (other :: others)

inductive SameMembers : List (Text × Value Number) → List (Text × Value Number) → Prop
  | nil : SameMembers [] []
  | cons {key : Text} {value other : Value Number} {members others : List (Text × Value Number)}
      (first : Same value other) (rest : SameMembers members others) :
      SameMembers ((key, value) :: members) ((key, other) :: others)

end

theorem same_refl (value : Value Number) : Same value value := by
  induction value using Value.induct with
  | null => exact .null
  | bool value => exact .bool value
  | number value => exact .number value
  | string text => exact .string text
  | array items ih =>
    refine .array ?_
    induction items with
    | nil => exact .nil
    | cons item items rest =>
      obtain ⟨first, ih⟩ := List.forall_mem_cons.mp ih
      exact .cons first (rest ih)
  | object members ih =>
    refine .object ?_ (.refl members)
    induction members with
    | nil => exact .nil
    | cons member members rest =>
      obtain ⟨first, ih⟩ := List.forall_mem_cons.mp ih
      exact .cons first (rest ih)

/-! ## Numbers -/

mutual

/-- Write every number as another value. -/
def withNumbers {Other : Type} (write : Number → Value Other) : Value Number → Value Other
  | .null => .null
  | .bool value => .bool value
  | .number value => write value
  | .string text => .string text
  | .array items => .array (withItems write items)
  | .object members => .object (withMembers write members)

def withItems {Other : Type} (write : Number → Value Other) :
    List (Value Number) → List (Value Other)
  | [] => []
  | item :: items => withNumbers write item :: withItems write items

def withMembers {Other : Type} (write : Number → Value Other) :
    List (Text × Value Number) → List (Text × Value Other)
  | [] => []
  | (key, value) :: members => (key, withNumbers write value) :: withMembers write members

end

example : withNumbers (fun number => .number (number + 1)) (.array [.number 1, .null]) =
    .array [.number 2, .null] := by
  simp [withNumbers, withItems]

section
variable {Other : Type} (write : Number → Value Other)

theorem withItems_eq (items : List (Value Number)) :
    withItems write items = items.map (withNumbers write) := by
  induction items with
  | nil => rw [withItems, List.map_nil]
  | cons item items ih => rw [withItems, ih, List.map_cons]

theorem withMembers_eq (members : List (Text × Value Number)) :
    withMembers write members = members.map (Prod.map id (withNumbers write)) := by
  induction members with
  | nil => rw [withMembers, List.map_nil]
  | cons member members ih => rw [withMembers, ih, List.map_cons, Prod.map, id]

/-- Numbers that can be read back leave the value as it was. -/
theorem withNumbers_withNumbers (read : Other → Value Number)
    (back : ∀ number, withNumbers read (write number) = .number number) (value : Value Number) :
    withNumbers read (withNumbers write value) = value := by
  induction value using Value.induct with
  | null | bool value | string text => rw [withNumbers, withNumbers]
  | number value => rw [withNumbers, back]
  | array items ih =>
    rw [withNumbers, withNumbers, withItems_eq, withItems_eq, List.map_map]
    exact congrArg Value.array ((List.map_congr_left ih).trans (List.map_id items))
  | object members ih =>
    rw [withNumbers, withNumbers, withMembers_eq, withMembers_eq, List.map_map]
    have own : ∀ member ∈ members,
        (Prod.map id (withNumbers read) ∘ Prod.map id (withNumbers write)) member = id member :=
      fun member own => congrArg (Prod.mk member.1) (ih member own)
    exact congrArg Value.object ((List.map_congr_left own).trans (List.map_id members))

/-- Being written in another way keeps a value the same as all those that it is the same as. -/
def Kept (value : Value Number) : Prop :=
  ∀ {other : Value Number}, Same value other →
    Same (withNumbers write value) (withNumbers write other)

theorem sameItems_withItems {items others : List (Value Number)}
    (kept : ∀ item ∈ items, Kept write item) (same : SameItems items others) :
    SameItems (withItems write items) (withItems write others) := by
  induction items generalizing others with
  | nil =>
    cases same
    exact .nil
  | cons item items ih =>
    obtain ⟨first, rest⟩ := List.forall_mem_cons.mp kept
    obtain _ | ⟨here, same⟩ := same
    exact .cons (first here) (ih rest same)

theorem sameMembers_withMembers {members others : List (Text × Value Number)}
    (kept : ∀ member ∈ members, Kept write member.2) (same : SameMembers members others) :
    SameMembers (withMembers write members) (withMembers write others) := by
  induction members generalizing others with
  | nil =>
    cases same
    exact .nil
  | cons member members ih =>
    obtain ⟨key, value⟩ := member
    obtain ⟨first, rest⟩ := List.forall_mem_cons.mp kept
    obtain _ | ⟨here, same⟩ := same
    exact .cons (first here) (ih rest same)

/-- Values that are the same stay so when numbers are written in another way. -/
theorem same_withNumbers (value : Value Number) : Kept write value := by
  induction value using Value.induct with
  | null =>
    rintro other ⟨⟩
    exact .null
  | bool value =>
    rintro other ⟨⟩
    exact .bool value
  | number value =>
    rintro other ⟨⟩
    exact same_refl (write value)
  | string text =>
    rintro other ⟨⟩
    exact .string text
  | array items ih =>
    intro other same
    cases same with
    | array same =>
      rw [withNumbers, withNumbers]
      exact .array (sameItems_withItems write ih same)
  | object members ih =>
    intro other same
    cases same with
    | object same order =>
      have moved := order.map (Prod.map id (withNumbers write))
      rw [← withMembers_eq, ← withMembers_eq] at moved
      rw [withNumbers, withNumbers]
      exact .object (sameMembers_withMembers write ih same) moved

/-- The keys stay distinct when numbers are written in another way. -/
theorem distinct_withNumbers (own : ∀ number, Distinct (write number)) (value : Value Number)
    (distinct : Distinct value) : Distinct (withNumbers write value) := by
  induction value using Value.induct with
  | null => trivial
  | bool value => trivial
  | number value => exact own value
  | string text => trivial
  | array items ih =>
    rw [Distinct, distinctItems_iff] at distinct
    rw [withNumbers, Distinct, distinctItems_iff, withItems_eq, List.forall_mem_map]
    exact fun item member => ih item member (distinct item member)
  | object members ih =>
    rw [Distinct, distinctMembers_iff] at distinct
    rw [withNumbers, Distinct, distinctMembers_iff, withMembers_eq, List.map_map,
      List.forall_mem_map]
    exact ⟨distinct.1, fun member own => ih member own (distinct.2 member own)⟩

end

/-! ## The order of members -/

def keyLe (left right : Text × Value Number) : Bool := decide (left.1 ≤ right.1)

/-- The entries in the order of the code units of their keys. -/
def sortEntries (entries : List (Text × Value Number)) : List (Text × Value Number) :=
  entries.mergeSort keyLe

/-- The number of a key that is an array index: decimal digits without leading zeros, below
`2 ^ 32 - 1`. -/
def arrayIndex (key : Text) : Option Nat :=
  let value := key.foldl (fun number unit => 10 * number + (unit - 48)) 0
  if key ≠ [] ∧ (∀ unit ∈ key, 48 ≤ unit ∧ unit ≤ 57) ∧ (key.head? = some 48 → key = [48]) ∧
      value < 2 ^ 32 - 1 then some value
  else none

def isIndex (entry : Text × Value Number) : Bool := (arrayIndex entry.1).isSome

def indexLe (left right : Text × Value Number) : Bool :=
  decide ((arrayIndex left.1).getD 0 ≤ (arrayIndex right.1).getD 0)

/-- `Object.fromEntries` of entries with different keys, as its members are listed: the array
indices in their order, then the other keys as they were defined. -/
def fromEntries (entries : List (Text × Value Number)) : List (Text × Value Number) :=
  (entries.filter isIndex).mergeSort indexLe ++ entries.filter fun entry => !isIndex entry

theorem sortEntries_perm (entries : List (Text × Value Number)) :
    (sortEntries entries).Perm entries :=
  List.mergeSort_perm entries keyLe

theorem fromEntries_perm (entries : List (Text × Value Number)) :
    (fromEntries entries).Perm entries :=
  ((List.mergeSort_perm _ _).append_right _).trans (List.filter_append_perm _ entries)

/-- Entries with different keys have one sorted order. -/
theorem sortEntries_eq_of_perm {entries others : List (Text × Value Number)}
    (distinct : (entries.map Prod.fst).Nodup) (same : entries.Perm others) :
    sortEntries entries = sortEntries others := by
  have sorted (entries : List (Text × Value Number)) :
      (sortEntries entries).Pairwise fun left right => keyLe left right = true := by
    refine List.pairwise_mergeSort ?_ ?_ entries
    · intro first second third one two
      rw [keyLe, decide_eq_true_eq] at one two ⊢
      exact le_trans one two
    · intro first second
      rw [Bool.or_eq_true, keyLe, keyLe, decide_eq_true_eq, decide_eq_true_eq]
      exact le_total first.1 second.1
  have whole : (sortEntries entries).Perm (sortEntries others) :=
    (sortEntries_perm entries).trans (same.trans (sortEntries_perm others).symm)
  refine List.Perm.eq_of_pairwise ?_ (sorted entries) (sorted others) whole
  intro left right leftOwn rightOwn one two
  rw [keyLe, decide_eq_true_eq] at one two
  have keys : left.1 = right.1 := le_antisymm one two
  have leftEntry : left ∈ entries := (sortEntries_perm entries).mem_iff.mp leftOwn
  have rightEntry : right ∈ entries :=
    same.mem_iff.mpr ((sortEntries_perm others).mem_iff.mp rightOwn)
  exact List.inj_on_of_nodup_map distinct leftEntry rightEntry keys

/-- The listed order depends on the entries only, and determines them. -/
theorem fromEntries_sortEntries_eq_iff {entries others : List (Text × Value Number)}
    (distinct : (entries.map Prod.fst).Nodup) :
    fromEntries (sortEntries entries) = fromEntries (sortEntries others) ↔
      entries.Perm others := by
  have listed (entries : List (Text × Value Number)) :
      (fromEntries (sortEntries entries)).Perm entries :=
    (fromEntries_perm _).trans (sortEntries_perm entries)
  constructor
  · intro same
    exact (listed entries).symm.trans (same ▸ listed others)
  · intro same
    rw [sortEntries_eq_of_perm distinct same]

/-- The order of entries does not depend on their values. -/
theorem fromEntries_sortEntries_map {Other : Type} (write : Value Number → Value Other)
    (entries : List (Text × Value Number)) :
    fromEntries (sortEntries (entries.map (Prod.map id write))) =
      (fromEntries (sortEntries entries)).map (Prod.map id write) := by
  have sorted : sortEntries (entries.map (Prod.map id write)) =
      (sortEntries entries).map (Prod.map id write) :=
    (List.map_mergeSort (s := keyLe) (f := Prod.map id write) fun _ _ _ _ => rfl).symm
  have indices (entries : List (Text × Value Number)) :
      (entries.map (Prod.map id write)).mergeSort indexLe =
        (entries.mergeSort indexLe).map (Prod.map id write) :=
    (List.map_mergeSort (s := indexLe) (f := Prod.map id write) fun _ _ _ _ => rfl).symm
  unfold fromEntries
  rw [sorted, List.map_append, List.filter_map, List.filter_map, indices]
  rfl

end

end JsonMembers
