import TestRig.Binary64.Shortest
import TestRig.Json.Value

/-!
# Text of a document

The compact text of a document: no blanks, object members in the order kept, and only those
characters escaped that must be.

- `Value.render` is the text as characters, `Value.text` as a string and `Value.bytes` in UTF-8.
-/

namespace TestRig.Json

/-- A digit of a code unit below 16. -/
def hexDigit (n : Nat) : Char :=
  Nat.digitChar (n % 16)

/-- A character inside a string. -/
def escapeChar (c : Char) : List Char :=
  match c with
  | '"' => ['\\', '"']
  | '\\' => ['\\', '\\']
  | '\x08' => ['\\', 'b']
  | '\x0c' => ['\\', 'f']
  | '\n' => ['\\', 'n']
  | '\r' => ['\\', 'r']
  | '\t' => ['\\', 't']
  | c =>
    if c.toNat < 0x20 then ['\\', 'u', '0', '0', hexDigit (c.toNat / 16), hexDigit c.toNat] else [c]

/-- A string between its quotes. -/
def renderString (text : String) : List Char :=
  '"' :: (text.toList.flatMap escapeChar ++ ['"'])

/-- An integer in decimal. -/
def renderInt (n : Int) : List Char :=
  if n < 0 then '-' :: Nat.toDigits 10 n.natAbs else Nat.toDigits 10 n.natAbs

/-- Decimal powers of the leading digit from this one on are written positionally. -/
def positionalFrom : Int := -5

/-- Decimal powers of the leading digit from this one on are written scientifically again. -/
def scientificFrom : Int := 16

/-- A floating-point number with its shortest digits: positional near one, scientific elsewhere. -/
def renderFloat (x : Binary64) : List Char :=
  let d := x.shortest
  x.signText ++
    (if positionalFrom ≤ d.leading ∧ d.leading < scientificFrom then d.positional else d.scientific)

/-- A number. -/
def renderNumber : Number → List Char
  | .integer n => renderInt n
  | .float x => renderFloat x

namespace Value

mutual

/-- The text of a document. -/
def render : Value → List Char
  | null => ['n', 'u', 'l', 'l']
  | boolean true => ['t', 'r', 'u', 'e']
  | boolean false => ['f', 'a', 'l', 's', 'e']
  | number value => renderNumber value
  | string value => renderString value
  | array elements => '[' :: (renderElements elements ++ [']'])
  | object members => '\x7b' :: (renderMembers members ++ ['\x7d'])

/-- The elements of an array with commas between them. -/
def renderElements : List Value → List Char
  | [] => []
  | [element] => render element
  | element :: rest => render element ++ ',' :: renderElements rest

/-- The members of an object with commas between them. -/
def renderMembers : List (String × Value) → List Char
  | [] => []
  | [(key, value)] => renderString key ++ ':' :: render value
  | (key, value) :: rest => renderString key ++ ':' :: (render value ++ ',' :: renderMembers rest)

end

/-- The text of a document. -/
def text (value : Value) : String :=
  String.ofList value.render

/-- The text of a document in UTF-8. -/
def bytes (value : Value) : List UInt8 :=
  value.text.toUTF8.data.toList

end Value

end TestRig.Json
