/-!
# Scalars

Every formula of the library is written once, over a type of scalars. Doubles run it
(`FrameKinematics.Scalar.Binary64`); any other type with the same operations, such as the
real numbers, gives the same formulas another arithmetic.

A scalar may be a double, so nothing here assumes an ordered field: comparisons need not be
total, and a scalar may have no whole part.
-/

namespace FrameKinematics

/-- Why a scalar has no whole part. -/
inductive Unbounded where
  | notANumber
  | infinite
deriving DecidableEq, Repr

/-- A type of scalars: arithmetic, decimal literals, comparisons, and the few functions that
the formulas of kinematics need. `pow` is a power with a natural exponent, `rem` the remainder of
the division that truncates toward zero, and `floor` the greatest whole number not above its
argument. -/
class Scalar (K : Type) extends Add K, Sub K, Mul K, Div K, Neg K, OfScientific K, LT K, LE K,
    BEq K where
  decidableLT : DecidableLT K
  decidableLE : DecidableLE K
  sqrt : K → K
  sin : K → K
  cos : K → K
  atan2 : K → K → K
  pi : K
  pow : K → Nat → K
  rem : K → K → K
  floor : K → Except Unbounded Int

namespace Scalar

variable {K : Type} [Scalar K]

instance instDecidableLT : DecidableLT K := decidableLT

instance instDecidableLE : DecidableLE K := decidableLE

/-- The absolute value; the difference from zero drops the sign of a negative zero too. -/
def abs (x : K) : K :=
  if x ≤ 0.0 then 0.0 - x else x

/-- The larger of two scalars, and a scalar that is no number if there is one. -/
def larger (x y : K) : K :=
  if y ≤ x then x else if x == x then y else x

/-- The largest scalar of a list, zero for the empty list. -/
def maximum : List K → K
  | [] => 0.0
  | x :: xs => xs.foldl larger x

/-- The scalar nearest to a natural number. -/
def ofNat (n : Nat) : K :=
  OfScientific.ofScientific n false 0

/-- Whether a scalar lies beyond every whole number. -/
def isInfinite (x : K) : Bool :=
  match floor x with
  | .error .infinite => true
  | _ => false

/-- The scalar nearest to a whole number, if the scalars reach that far. -/
def ofInt? (n : Int) : Option K :=
  let magnitude : K := ofNat n.natAbs
  if isInfinite magnitude then none
  else some (if n < 0 then -magnitude else magnitude)

/-- The exponent of a power of two that a positive scalar is within a factor of two of. A scalar
whose inverse is beyond the scalars counts as the smallest that has one, and a scalar without a
whole part as one. -/
def binaryOrder (x : K) : Int :=
  match floor x with
  | .error _ => 0
  | .ok n =>
    if 0 < n then n.toNat.log2
    else
      match floor (1.0 / x) with
      | .error _ => -1022
      | .ok m => -(m.toNat.log2 : Int)

/-- A scalar times a power of two. -/
def timesPower (x : K) (n : Int) : K :=
  if n < 0 then x / pow 2.0 n.natAbs else x * pow 2.0 n.natAbs

/-- The whole number next to a scalar in the direction of zero. -/
def truncate (x : K) : Except Unbounded Int :=
  if x < 0.0 then (fun n => -n) <$> floor (-x) else floor x

/-- The remainder that has the sign of the divisor. -/
def modulo (x y : K) : K :=
  let r := rem x y
  if r == 0.0 then 0.0
  else if (decide (y < 0.0)) == (decide (r < 0.0)) then r
  else r + y

end Scalar

end FrameKinematics
