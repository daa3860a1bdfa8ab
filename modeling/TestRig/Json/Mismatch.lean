import TestRig.Json.Render
import TestRig.Text.Quoted

/-!
# Documents of the wrong shape

Why a document could not be used as what was asked for, and how that is told.
-/

namespace TestRig.Json

/-- What was found in place of the value asked for. -/
inductive Found where
  | null
  | boolean (value : Bool)
  | number (value : Number)
  | string (value : String)
  | array
  | object
  deriving Repr, DecidableEq, Inhabited

/-- The kind of a document, with its value if that is simple. -/
def Value.found : Value → Found
  | .null => .null
  | .boolean value => .boolean value
  | .number value => .number value
  | .string value => .string value
  | .array _ => .array
  | .object _ => .object

/-- The words for what was found. -/
def Found.message : Found → String
  | null => "null"
  | boolean true => "boolean `true`"
  | boolean false => "boolean `false`"
  | number (.integer n) => s!"integer `{n}`"
  | number (.float x) => "floating point `" ++ String.ofList (renderFloat x) ++ "`"
  | string value => "string " ++ Text.quoted value
  | array => "sequence"
  | object => "map"

/-- Why a document is refused. -/
inductive Mismatch where
  /-- The text is not a document, or not one of the shape asked for. -/
  | malformed
  /-- A member is not there. -/
  | missingField (name : String)
  /-- A value is of another kind. -/
  | invalidType (found : Found) (expected : String)
  /-- A value of the right kind is out of range. -/
  | invalidValue (found : Found) (expected : String)
  deriving Repr, DecidableEq, Inhabited

/-- The words for a refusal. -/
def Mismatch.message : Mismatch → String
  | malformed => "malformed document"
  | missingField name => s!"missing field `{name}`"
  | invalidType found expected => "invalid type: " ++ found.message ++ ", expected " ++ expected
  | invalidValue found expected => "invalid value: " ++ found.message ++ ", expected " ++ expected

namespace Value

/-- The words for a natural number below `2 ^ 32`. -/
def word32 : String := "u32"

/-- A document as a natural number below `2 ^ 32`. -/
def asWord32 : Value → Except Mismatch Nat
  | number (.integer n) =>
    if 0 ≤ n ∧ n < 0x100000000 then .ok n.toNat
    else .error (.invalidValue (.number (.integer n)) word32)
  | other => .error (.invalidType other.found word32)

/-- The member of an object that is a natural number below `2 ^ 32`; if it is not there, the value
given for that case. -/
def word32Member (key : String) (absent : Option Nat) (document : Value) : Except Mismatch Nat :=
  match document with
  | object _ =>
    match document.member? key, absent with
    | some value, _ => value.asWord32
    | none, some value => .ok value
    | none, none => .error (.missingField key)
  | other => .error (.invalidType other.found "object")

end Value

end TestRig.Json
