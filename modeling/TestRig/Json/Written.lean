/-!
# Written form of a document

What the text of a document says before it is given a meaning: the members of an object in the order
written, repeats included, and numbers and strings as their symbols. Reading is total; nesting is
bounded by an argument.

- `Written.parse?` reads a whole text.
- `Reader` is the shape of all readers here: what was read, and the text behind it.
-/

namespace TestRig.Json

/-- A symbol of a string: a character, or a code unit given by number. -/
inductive Symbol where
  /-- A character written as itself or by a short escape. -/
  | plain (c : Char)
  /-- A 16-bit code unit written with four hexadecimal digits. -/
  | unit (code : Nat)
  deriving Repr, DecidableEq, Inhabited

/-- The power of ten that a number ends with. -/
structure Power where
  /-- It carries a minus sign. -/
  negative : Bool
  digits : List Char
  deriving Repr, DecidableEq, Inhabited

/-- A number as it is written. -/
structure Numeral where
  /-- It carries a minus sign. -/
  negative : Bool
  /-- Digits before the point. -/
  whole : List Char
  /-- Digits behind the point, if there is one. -/
  fraction : Option (List Char)
  /-- The power of ten, if there is one. -/
  power : Option Power
  deriving Repr, DecidableEq, Inhabited

/-- A document as it is written. -/
inductive Written where
  | null
  | boolean (value : Bool)
  | number (numeral : Numeral)
  | string (symbols : List Symbol)
  | array (elements : List Written)
  | object (members : List (List Symbol × Written))
  deriving Repr, Inhabited

/-- Reads from the front of a text; the answer comes with the text behind what was read. -/
abbrev Reader (α : Type) := List Char → Option (α × List Char)

/-! ## Characters -/

/-- Space, tab, line feed or carriage return. -/
def isBlank (c : Char) : Bool :=
  c == ' ' || c == '\t' || c == '\n' || c == '\r'

/-- The text behind its leading blanks. -/
def skipBlank (text : List Char) : List Char :=
  text.dropWhile isBlank

/-- The value of a hexadecimal digit of either case. -/
def hexValue? (c : Char) : Option Nat :=
  if '0' ≤ c ∧ c ≤ '9' then some (c.toNat - '0'.toNat)
  else if 'a' ≤ c ∧ c ≤ 'f' then some (c.toNat - 'a'.toNat + 10)
  else if 'A' ≤ c ∧ c ≤ 'F' then some (c.toNat - 'A'.toNat + 10)
  else none

/-- The code unit with four hexadecimal digits. -/
def unit? (a b c d : Char) : Option Nat := do
  let a ← hexValue? a
  let b ← hexValue? b
  let c ← hexValue? c
  let d ← hexValue? d
  return ((a * 16 + b) * 16 + c) * 16 + d

/-- The character that a backslash and a letter stand for. -/
def shortEscape? (c : Char) : Option Char :=
  match c with
  | '"' => some '"'
  | '\\' => some '\\'
  | '/' => some '/'
  | 'b' => some '\x08'
  | 'f' => some '\x0c'
  | 'n' => some '\n'
  | 'r' => some '\r'
  | 't' => some '\t'
  | _ => none

/-! ## Strings and numbers -/

/-- Reads the rest of a string behind its opening quote. The symbols read so far come last first. -/
def readSymbols (soFar : List Symbol) : Reader (List Symbol)
  | [] => none
  | '"' :: rest => some (soFar.reverse, rest)
  | '\\' :: 'u' :: a :: b :: c :: d :: rest =>
    match unit? a b c d with
    | some code => readSymbols (.unit code :: soFar) rest
    | none => none
  | ['\\'] => none
  | '\\' :: e :: rest =>
    match shortEscape? e with
    | some c => readSymbols (.plain c :: soFar) rest
    | none => none
  | c :: rest => if c.toNat < 0x20 then none else readSymbols (.plain c :: soFar) rest

/-- Reads one digit or more. -/
def readDigits : Reader (List Char) := fun text =>
  match text.takeWhile Char.isDigit with
  | [] => none
  | digits => some (digits, text.dropWhile Char.isDigit)

/-- Reads the digits before the point; a leading zero stands alone. -/
def readWhole : Reader (List Char) := fun text =>
  match readDigits text with
  | some ('0' :: _ :: _, _) => none
  | other => other

/-- Reads a point and digits, if a point comes next. -/
def readFraction : Reader (Option (List Char))
  | '.' :: rest => (readDigits rest).map fun (digits, rest) => (some digits, rest)
  | text => some (none, text)

/-- Reads a power of ten behind its letter. -/
def readSignedPower : Reader Power
  | '-' :: rest => (readDigits rest).map fun (digits, rest) => (⟨true, digits⟩, rest)
  | '+' :: rest => (readDigits rest).map fun (digits, rest) => (⟨false, digits⟩, rest)
  | text => (readDigits text).map fun (digits, rest) => (⟨false, digits⟩, rest)

/-- Reads a power of ten, if its letter comes next. -/
def readPower : Reader (Option Power)
  | 'e' :: rest | 'E' :: rest => (readSignedPower rest).map fun (power, rest) => (some power, rest)
  | text => some (none, text)

/-- Reads a number without its sign. -/
def readMagnitude (negative : Bool) : Reader Written := fun text => do
  let (whole, rest) ← readWhole text
  let (fraction, rest) ← readFraction rest
  let (power, rest) ← readPower rest
  return (.number ⟨negative, whole, fraction, power⟩, rest)

/-! ## Values -/

/-- Reads a value that is neither an array nor an object. -/
def readScalar : Reader Written
  | 'n' :: 'u' :: 'l' :: 'l' :: rest => some (.null, rest)
  | 't' :: 'r' :: 'u' :: 'e' :: rest => some (.boolean true, rest)
  | 'f' :: 'a' :: 'l' :: 's' :: 'e' :: rest => some (.boolean false, rest)
  | '"' :: rest => (readSymbols [] rest).map fun (symbols, rest) => (.string symbols, rest)
  | '-' :: rest => readMagnitude true rest
  | text => readMagnitude false text

/-- Reads the elements of an array up to its closing bracket, at least one. -/
def readElements (item : Reader Written) : Nat → List Written → Reader (List Written)
  | 0, _ => fun _ => none
  | fuel + 1, soFar => fun text => do
    let (element, rest) ← item text
    match skipBlank rest with
    | ',' :: rest => readElements item fuel (element :: soFar) rest
    | ']' :: rest => some ((element :: soFar).reverse, rest)
    | _ => none

/-- Reads the key of a member and the colon behind it. -/
def readKey : Reader (List Symbol) := fun text =>
  match skipBlank text with
  | '"' :: rest => do
    let (key, rest) ← readSymbols [] rest
    match skipBlank rest with
    | ':' :: rest => some (key, rest)
    | _ => none
  | _ => none

/-- Reads the members of an object up to its closing brace, at least one. -/
def readMembers (item : Reader Written) :
    Nat → List (List Symbol × Written) → Reader (List (List Symbol × Written))
  | 0, _ => fun _ => none
  | fuel + 1, soFar => fun text => do
    let (key, rest) ← readKey text
    let (value, rest) ← item rest
    match skipBlank rest with
    | ',' :: rest => readMembers item fuel ((key, value) :: soFar) rest
    | '\x7d' :: rest => some (((key, value) :: soFar).reverse, rest)
    | _ => none

/-- Reads one value with at most `depth` arrays and objects around each other. The fuel bounds the
number of elements of each. -/
def readValue (fuel : Nat) : Nat → Reader Written
  | 0 => fun text => readScalar (skipBlank text)
  | depth + 1 => fun text =>
    match skipBlank text with
    | '[' :: rest =>
      match skipBlank rest with
      | ']' :: rest => some (.array [], rest)
      | rest => (readElements (readValue fuel depth) fuel [] rest).map
          fun (elements, rest) => (.array elements, rest)
    | '\x7b' :: rest =>
      match skipBlank rest with
      | '\x7d' :: rest => some (.object [], rest)
      | rest => (readMembers (readValue fuel depth) fuel [] rest).map
          fun (members, rest) => (.object members, rest)
    | text => readScalar text

/-- Reads a text that is one value between blanks. -/
def Written.parse? (depth : Nat) (text : List Char) : Option Written :=
  match readValue (text.length + 1) depth text with
  | some (written, rest) => if (skipBlank rest).isEmpty then some written else none
  | none => none

end TestRig.Json
