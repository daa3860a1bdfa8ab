/-!
# Decimal numbers

A finite decimal is a coefficient times a power of ten. This file writes one out in positional and
in scientific notation; it knows nothing of how the number came about.
-/

namespace TestRig

/-- The number `coefficient * 10 ^ exponent`. -/
structure Decimal where
  /-- The digits, read as one natural number. -/
  coefficient : Nat
  /-- The power of ten that they are multiplied by. -/
  exponent : Int
  deriving Repr, DecidableEq, Inhabited

namespace Decimal

/-- The digits of the coefficient, most significant first. -/
def digits (d : Decimal) : List Char :=
  Nat.toDigits 10 d.coefficient

/-- The power of ten of the leading digit. -/
def leading (d : Decimal) : Int :=
  d.exponent + d.digits.length - 1

/-- Drops trailing zeros of the coefficient; the fuel bounds their number. -/
def trimLoop : Nat → Decimal → Decimal
  | 0, d => d
  | fuel + 1, d =>
    if d.coefficient % 10 = 0 ∧ d.coefficient ≠ 0 then
      trimLoop fuel ⟨d.coefficient / 10, d.exponent + 1⟩
    else
      d

/-- The same number with no trailing zero in its coefficient. -/
def trim (d : Decimal) : Decimal :=
  trimLoop d.digits.length d

/-- All digits written out around a point, with at least one digit on each side of it. -/
def positional (d : Decimal) : List Char :=
  let ds := d.digits
  if 0 ≤ d.exponent then
    ds ++ List.replicate d.exponent.toNat '0' ++ ['.', '0']
  else
    let fraction := (-d.exponent).toNat
    if fraction < ds.length then
      ds.take (ds.length - fraction) ++ '.' :: ds.drop (ds.length - fraction)
    else
      '0' :: '.' :: (List.replicate (fraction - ds.length) '0' ++ ds)

/-- One digit, the others behind a point if there are any, and the signed power of ten. -/
def scientific (d : Decimal) : List Char :=
  let e := d.leading
  let power := (if e < 0 then '-' else '+') :: Nat.toDigits 10 e.natAbs
  match d.digits with
  | [] => 'e' :: power
  | [first] => first :: 'e' :: power
  | first :: rest => first :: '.' :: (rest ++ 'e' :: power)

end Decimal

end TestRig
