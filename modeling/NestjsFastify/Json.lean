import Mathlib.Data.Rat.Init

/-! # JSON values -/

inductive Json where
  | null
  | bool (value : Bool)
  | number (value : ℚ)
  | string (value : String)
  | array (items : List Json)
  | object (members : List (String × Json))

namespace Json

/-- The value of a member; members that are absent and values that have none give nothing. -/
def get? (json : Json) (name : String) : Option Json :=
  match json with
  | object members => members.lookup name
  | _ => none

def string? : Json → Option String
  | string value => some value
  | _ => none

/-- An object that maps names to anything. -/
def object? : Json → Option (List (String × Json))
  | object members => some members
  | _ => none

/-- `Object.entries` of an object or an array, whose members are named by their positions. -/
def entries? : Json → Option (List (String × Json))
  | object members => some members
  | array items => some (items.zipIdx.map fun (item, position) => (toString position, item))
  | _ => none

/-- The integers that a double holds exactly. -/
def maxSafeInteger : Int := 9007199254740991

/-- A number without a fraction, in the safe range. -/
def integer? : Json → Option Int
  | number value =>
      if value.den = 1 ∧ -maxSafeInteger ≤ value.num ∧ value.num ≤ maxSafeInteger then
        some value.num
      else none
  | _ => none

end Json
