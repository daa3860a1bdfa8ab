import TestRig.Binary64.Basic
import TestRig.Decimal

/-!
# Shortest decimal of a floating-point number

The decimal with the fewest digits among those that are read back as the given number, and of these
the nearest one. With one digit, then two, up to seventeen, the two neighbours of the number on that
decimal grid are tried in exact arithmetic; the first grid with a neighbour inside the interval of
numbers that round to the given one settles it.
-/

namespace TestRig.Binary64

/-- The magnitude of a number and the ends of its rounding interval, all over one denominator. -/
structure Interval where
  /-- Numerator of the lower end. -/
  lower : Nat
  /-- Numerator of the number. -/
  value : Nat
  /-- Numerator of the upper end. -/
  upper : Nat
  /-- The common denominator. -/
  den : Nat
  /-- The ends themselves round to the number. -/
  closed : Bool

/-- The rounding interval of a number. The gap below a power of two is half the gap above it. -/
def interval (x : Binary64) : Interval :=
  let m := 4 * x.mantissa
  let below := if x.mantissa = Nat.pow 2 52 ∧ minExponent < x.exponent then 1 else 2
  let e := x.exponent - 2
  let factor := if e < 0 then 1 else Nat.pow 2 e.toNat
  ⟨(m - below) * factor, m * factor, (m + 2) * factor,
    if e < 0 then Nat.pow 2 (-e).toNat else 1, x.mantissa % 2 == 0⟩

/-- The power of ten of the leading digit of a positive quotient. -/
def leadingPower (num den : Nat) : Int :=
  if den ≤ num then
    (Nat.toDigits 10 (num / den)).length - 1
  else
    let shift := (Nat.toDigits 10 den).length - (Nat.toDigits 10 num).length
    if den ≤ num * Nat.pow 10 shift then -shift else -(shift + 1)

/-- The point `coefficient * 10 ^ power` lies in the interval. -/
def Interval.contains (i : Interval) (coefficient : Nat) (power : Int) : Bool :=
  let scaled := coefficient * i.den * Nat.pow 10 power.toNat
  let unit := Nat.pow 10 (-power).toNat
  if i.closed then i.lower * unit ≤ scaled && scaled ≤ i.upper * unit
  else i.lower * unit < scaled && scaled < i.upper * unit

/-- The neighbour of the number on the grid of multiples of `10 ^ power` that lies in the interval;
the nearer one if both do, and the even one at equal distance. -/
def Interval.onGrid? (i : Interval) (power : Int) : Option Nat :=
  let num := i.value * Nat.pow 10 (-power).toNat
  let den := i.den * Nat.pow 10 power.toNat
  let floor := num / den
  match i.contains floor power, i.contains (floor + 1) power with
  | true, true => some (divNearest num den)
  | true, false => some floor
  | false, true => some (floor + 1)
  | false, false => none

/-- Tries grids from coarse to fine. -/
def Interval.search (i : Interval) (leading : Int) : List Nat → Option Decimal
  | [] => none
  | places :: finer =>
    let power := leading - places
    match i.onGrid? power with
    | some coefficient => some ⟨coefficient, power⟩
    | none => i.search leading finer

/-- The shortest decimal that is read back as the magnitude of a number. -/
def shortest (x : Binary64) : Decimal :=
  if x.mantissa = 0 then ⟨0, 0⟩
  else
    let i := x.interval
    ((i.search (leadingPower i.value i.den) (List.range 17)).getD ⟨i.value / i.den, 0⟩).trim

/-- The sign in front of a number. -/
def signText (x : Binary64) : List Char :=
  if x.negative then ['-'] else []

end TestRig.Binary64
