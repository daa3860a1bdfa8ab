/-!
# Finite binary floating-point numbers

The finite numbers of the 64-bit binary format, as a sign, a mantissa below `2 ^ 53` and a power of
two. `ofDecimal?` rounds a decimal to the nearest of them, a tie to the even mantissa.
-/

namespace TestRig

/-- The number `± mantissa * 2 ^ exponent`. The mantissa is at least `2 ^ 52` unless the exponent is
the least one, `-1074`. -/
structure Binary64 where
  /-- The number carries a minus sign; zero may carry one too. -/
  negative : Bool
  /-- The significant bits. -/
  mantissa : Nat
  exponent : Int
  deriving Repr, DecidableEq, Inhabited

namespace Binary64

/-- The least exponent, which zero and the subnormal numbers have. -/
def minExponent : Int := -1074

/-- The greatest exponent of a finite number. -/
def maxExponent : Int := 971

/-- Zero with a sign. -/
def zero (negative : Bool) : Binary64 :=
  ⟨negative, 0, minExponent⟩

/-- The quotient rounded to the nearest natural number, a tie to the even one. -/
def divNearest (num den : Nat) : Nat :=
  let q := num / den
  let twice := 2 * (num % den)
  if twice < den then q
  else if den < twice then q + 1
  else q + q % 2

/-- `num / den` divided by `2 ^ exponent`, as a new quotient. -/
def scale (num den : Nat) (exponent : Int) : Nat × Nat :=
  if exponent < 0 then (num * Nat.pow 2 (-exponent).toNat, den)
  else (num, den * Nat.pow 2 exponent.toNat)

/-- The exponent that leaves 53 bits before the point of `num / den`, or the least one if that is
greater. -/
def fitExponent (num den : Nat) : Int :=
  let guess : Int := Nat.log2 num - Nat.log2 den - 52
  let (n, d) := scale num den guess
  max minExponent (if n / d < Nat.pow 2 52 then guess - 1 else guess)

/-- The number nearest to `num / den`; `none` if that is too large to be finite. -/
def ofRatio? (negative : Bool) (num den : Nat) : Option Binary64 :=
  let exponent := fitExponent num den
  let (n, d) := scale num den exponent
  let mantissa := divNearest n d
  let rounded : Binary64 :=
    if mantissa = Nat.pow 2 53 then ⟨negative, Nat.pow 2 52, exponent + 1⟩
    else ⟨negative, mantissa, exponent⟩
  if rounded.exponent ≤ maxExponent then some rounded else none

/-- The number nearest to `coefficient * 10 ^ power`, where `size` is the number of decimal digits
of the coefficient; `none` if it is too large to be finite. Powers far outside the range are settled
without computing them. -/
def ofDecimal? (negative : Bool) (coefficient size : Nat) (power : Int) : Option Binary64 :=
  if coefficient = 0 then some (zero negative)
  else if 400 < power + size then none
  else if power + size < -400 then some (zero negative)
  else if power < 0 then ofRatio? negative coefficient (Nat.pow 10 (-power).toNat)
  else ofRatio? negative (coefficient * Nat.pow 10 power.toNat) 1

end Binary64

end TestRig
