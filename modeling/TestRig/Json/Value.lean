import TestRig.Binary64.Basic

/-!
# Documents

The value of a document: null, booleans, numbers, strings, arrays and objects. An integer keeps all
its digits if it fits 64 bits, with or without a sign; every other number is a floating-point
number. The members of an object are kept in the order of their keys.
-/

namespace TestRig.Json

/-- A number of a document. -/
inductive Number where
  /-- An integer, at least `-2 ^ 63` and below `2 ^ 64`. -/
  | integer (value : Int)
  /-- Any other number. -/
  | float (value : Binary64)
  deriving Repr, DecidableEq, Inhabited

/-- A document. -/
inductive Value where
  | null
  | boolean (value : Bool)
  | number (value : Number)
  | string (value : String)
  | array (elements : List Value)
  | object (members : List (String × Value))
  deriving Repr, Inhabited

/-- The least integer that is kept exactly, `-2 ^ 63`. -/
def minInteger : Int := -0x8000000000000000

/-- The integers that are kept exactly end below this one, `2 ^ 64`. -/
def integerBound : Int := 0x10000000000000000

namespace Value

/-- The number with an integer value. -/
def ofInt (n : Int) : Value :=
  .number (.integer n)

/-- The number with a natural value. -/
def ofNat (n : Nat) : Value :=
  .ofInt n

/-- Adds a member at the place of its key, unless the key is there already. -/
def insertMember (key : String) (value : Value) : List (String × Value) → List (String × Value)
  | [] => [(key, value)]
  | (other, held) :: rest =>
    if key < other then (key, value) :: (other, held) :: rest
    else if key = other then (other, held) :: rest
    else (other, held) :: insertMember key value rest

/-- The object with the given members; of several with one key the last is kept. -/
def ofMembers (members : List (String × Value)) : Value :=
  .object (members.foldr (fun (key, value) held => insertMember key value held) [])

/-- The value under a key of an object. -/
def member? (key : String) : Value → Option Value
  | object members => (members.find? fun (other, _) => other == key).map (·.2)
  | _ => none

/-- The text of a string. -/
def string? : Value → Option String
  | string value => some value
  | _ => none

/-- The value of an integer with a sign in 64 bits. -/
def int64? : Value → Option Int64
  | number (.integer n) =>
    if Int64.minValue.toInt ≤ n ∧ n ≤ Int64.maxValue.toInt then some (Int64.ofInt n) else none
  | _ => none

end Value

end TestRig.Json
