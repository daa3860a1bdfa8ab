import TestRig.Json.Meaning

/-!
# Records

Reading a record with named fields from a written document. An object gives the fields by name;
names that the record does not have are passed over with whatever they hold, and a field given twice
is refused. An array gives the fields by position; it may stop early but must not go on. Fields that
are not given keep the value they start with.
-/

namespace TestRig.Json

/-- A field of a record: its name, and how a written value changes the record. -/
structure RecordField (α : Type) where
  name : String
  /-- The record with the field set; `none` if the value does not suit it. -/
  set : Written → α → Option α

namespace RecordField

variable {α : Type}

/-- A field whose values are read by `value?` and stored by `store`. -/
def of {β : Type} (name : String) (value? : Written → Option β) (store : β → α → α) :
    RecordField α :=
  ⟨name, fun written record => (value? written).map fun value => store value record⟩

/-- Sets the fields that the members name. -/
def setNamed (fields : List (RecordField α)) : List (String × Written) → α → Option α
  | [], record => some record
  | (name, written) :: rest, record =>
    match fields.find? fun field => field.name == name with
    | some field =>
      if rest.any fun (other, _) => other == name then none
      else (field.set written record).bind (setNamed fields rest)
    | none => setNamed fields rest record

/-- Sets fields one by one as long as there are values. -/
def setListed : List (RecordField α) → List Written → α → Option α
  | _, [], record => some record
  | [], _ :: _, _ => none
  | field :: fields, written :: rest, record =>
    (field.set written record).bind (setListed fields rest)

/-- The members with their keys as texts; `none` if one of the keys is not a text. -/
def named? : List (List Symbol × Written) → Option (List (String × Written))
  | [] => some []
  | (key, written) :: rest =>
    match text? key, named? rest with
    | some key, some rest => some ((key, written) :: rest)
    | _, _ => none

/-- Reads a record on top of the one that it starts with. -/
def record? (fields : List (RecordField α)) (start : α) : Written → Option α
  | .object members => (named? members).bind fun members => setNamed fields members start
  | .array elements => setListed fields elements start
  | _ => none

end RecordField

namespace Written

/-- A natural number below `2 ^ 64` in plain digits. -/
def nat64? : Written → Option Nat
  | number ⟨false, whole, none, none⟩ =>
    let n := natOfDigits whole
    if n < Nat.pow 2 64 then some n else none
  | _ => none

/-- A truth value. -/
def boolean? : Written → Option Bool
  | boolean value => some value
  | _ => none

/-- A text. -/
def string? : Written → Option String
  | string symbols => text? symbols
  | _ => none

/-- One of several names: the name itself, or an object with null under the name as its only
member. -/
def choice? {α : Type} (names : List (String × α)) (written : Written) : Option α :=
  let name := match written with
    | string symbols => text? symbols
    | object [(key, null)] => text? key
    | _ => none
  name.bind fun name => (names.find? fun (other, _) => other == name).map (·.2)

end Written

end TestRig.Json
