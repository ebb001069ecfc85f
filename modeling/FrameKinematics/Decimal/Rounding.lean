import FrameKinematics.Scalar.Binary64

/-!
# Decimal rounding

Exact rounding of a dyadic number to a multiple of a power of ten, or to a number of
significant digits. Everything is computed on natural numbers: a quotient is rounded to the
nearest natural number, and a half goes to the even neighbour.
-/

namespace FrameKinematics.Decimal

/-- The natural number nearest to `top / bottom`; a half goes to the even neighbour. -/
def roundDiv (top bottom : Nat) : Nat :=
  let quotient := top / bottom
  let twice := 2 * (top % bottom)
  if twice < bottom then quotient
  else if bottom < twice then quotient + 1
  else quotient + quotient % 2

/-- How many decimal digits a natural number has; zero has none. -/
def digitCount (n : Nat) : Nat :=
  if n = 0 then 0 else digitCount (n / 10) + 1

/-- The exponent of the leading digit of the positive quotient `top / bottom`: the only `e`
with `10 ^ e ≤ top / bottom < 10 ^ (e + 1)`. -/
def leadingExponent (top bottom : Nat) : Int :=
  let e : Int := (digitCount top : Int) - digitCount bottom
  if top * Nat.pow 10 (-e).toNat < bottom * Nat.pow 10 e.toNat then e - 1 else e

/-- The natural number nearest to `top / bottom / 10 ^ exponent`. -/
def scaledRound (top bottom : Nat) (exponent : Int) : Nat :=
  roundDiv (top * Nat.pow 10 (-exponent).toNat) (bottom * Nat.pow 10 exponent.toNat)

/-- A positive quotient rounded to `digits` significant digits: the digits as one natural
number, and the exponent of the leading digit after rounding. -/
def significant (digits : Nat) (top bottom : Nat) : Nat × Int :=
  let e := leadingExponent top bottom
  let n := scaledRound top bottom (e - ((digits : Int) - 1))
  if n = Nat.pow 10 digits then (Nat.pow 10 (digits - 1), e + 1) else (n, e)

end FrameKinematics.Decimal
