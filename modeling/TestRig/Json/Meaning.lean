import TestRig.Json.Value
import TestRig.Json.Written

/-!
# Meaning of a written document

From the written form to the value. A string must pair its surrogate code units, a number must not
be too large, and of two members with one key the later one counts.

- `Value.parse?` reads a text, `Value.ofBytes?` its encoding in bytes.
-/

namespace TestRig.Json

/-- A leading half of a surrogate pair. -/
def isLeading (code : Nat) : Bool :=
  0xD800 ≤ code && code < 0xDC00

/-- A trailing half of a surrogate pair. -/
def isTrailing (code : Nat) : Bool :=
  0xDC00 ≤ code && code < 0xE000

/-- The character of a surrogate pair. -/
def ofPair (leading trailing : Nat) : Char :=
  Char.ofNat (0x10000 + (leading - 0xD800) * 0x400 + (trailing - 0xDC00))

/-- The characters that the symbols of a string stand for, behind those found so far. -/
def charsLoop (soFar : List Char) : List Symbol → Option (List Char)
  | [] => some soFar.reverse
  | .plain c :: rest => charsLoop (c :: soFar) rest
  | [.unit code] =>
    if isLeading code || isTrailing code then none else some (Char.ofNat code :: soFar).reverse
  | .unit code :: .plain c :: rest =>
    if isLeading code || isTrailing code then none
    else charsLoop (c :: Char.ofNat code :: soFar) rest
  | .unit code :: .unit next :: rest =>
    if isTrailing code then none
    else if isLeading code then
      if isTrailing next then charsLoop (ofPair code next :: soFar) rest else none
    else charsLoop (Char.ofNat code :: soFar) (.unit next :: rest)

/-- The text that the symbols of a string stand for; `none` if a surrogate has no partner. -/
def text? (symbols : List Symbol) : Option String :=
  (charsLoop [] symbols).map String.ofList

/-- The natural number with the given decimal digits. -/
def natOfDigits (digits : List Char) : Nat :=
  digits.foldl (fun n c => 10 * n + (c.toNat - '0'.toNat)) 0

/-- The value of a power of ten. -/
def Power.toInt (power : Power) : Int :=
  if power.negative then -(natOfDigits power.digits : Int) else natOfDigits power.digits

namespace Numeral

/-- The nearest floating-point number; `none` if that is not finite. The rounding is exact. A reader
that scales the digits by a power of ten in floating-point arithmetic rounds twice: it comes to a
neighbour of this number for some texts, and refuses some that are just below the largest one. -/
def float? (n : Numeral) : Option Number :=
  let fraction := n.fraction.getD []
  let digits := (n.whole ++ fraction).dropWhile (· == '0')
  let power := (n.power.map Power.toInt).getD 0 - fraction.length
  (Binary64.ofDecimal? n.negative (natOfDigits digits) digits.length power).map .float

/-- The value of a number. Without point and power of ten it is an integer if that fits; the
negative zero does not. -/
def number? (n : Numeral) : Option Number :=
  if n.fraction.isSome || n.power.isSome then
    n.float?
  else
    let magnitude : Int := natOfDigits n.whole
    if n.negative then
      if magnitude = 0 ∨ -magnitude < minInteger then n.float? else some (.integer (-magnitude))
    else
      if integerBound ≤ magnitude then n.float? else some (.integer magnitude)

end Numeral

namespace Value

mutual

/-- The value of a written document. -/
def ofWritten? : Written → Option Value
  | .null => some .null
  | .boolean value => some (.boolean value)
  | .number numeral => numeral.number?.map .number
  | .string symbols => (text? symbols).map .string
  | .array elements => ofElements? [] elements
  | .object members => ofWrittenMembers? [] members

/-- The array of the elements found so far, last first, and those still written. -/
def ofElements? (soFar : List Value) : List Written → Option Value
  | [] => some (.array soFar.reverse)
  | written :: rest =>
    match ofWritten? written with
    | some element => ofElements? (element :: soFar) rest
    | none => none

/-- The object of the members found so far, last first, and those still written. -/
def ofWrittenMembers? (soFar : List (String × Value)) :
    List (List Symbol × Written) → Option Value
  | [] => some (ofMembers soFar.reverse)
  | (key, written) :: rest =>
    match text? key, ofWritten? written with
    | some key, some value => ofWrittenMembers? ((key, value) :: soFar) rest
    | _, _ => none

end

/-- The number of arrays and objects that a document may have around each other. -/
def maxDepth : Nat := 127

/-- The document that a text holds. -/
def parse? (text : List Char) : Option Value :=
  (Written.parse? maxDepth text).bind ofWritten?

/-- The document that a byte string holds, in UTF-8. -/
def ofBytes? (data : List UInt8) : Option Value :=
  (String.fromUTF8? ⟨data.toArray⟩).bind fun text => parse? text.toList

end Value

end TestRig.Json
