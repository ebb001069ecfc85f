import FrameKinematics.Decimal.Rounding

/-!
# Groups of numbers

Numbers that belong together, such as the coordinates of a vector, are rounded at the same
decimal place. The largest of them gets a number of significant digits, unless a least place
comes first, and each one is written as a whole number and a power of ten.
-/

namespace FrameKinematics.Decimal

/-- How groups are rounded: the digits of the largest number, and the least place as a power of
ten. -/
structure Precision where
  digits : Nat := 10
  least : Int := -20

namespace Precision

/-- The finite ones of several doubles. -/
def finiteOnes (xs : List Float) : List Dyadic :=
  xs.filterMap fun x =>
    match Binary64.read x with
    | .finite d => some d
    | _ => none

/-- The exponent of the leading digit of a number after rounding; zero has none. -/
def leading? (p : Precision) (d : Dyadic) : Option Int :=
  if d.mantissa = 0 then none
  else some (significant p.digits d.numerator d.denominator).2

/-- The place at which a group is rounded. -/
def place (p : Precision) (group : List Float) : Int :=
  ((finiteOnes group).filterMap p.leading?).foldl (fun k e => max k (e - (p.digits - 1))) p.least

end Precision

/-- A double rounded at a place, as a whole number times a power of ten. Zero has no sign. -/
def roundedText (place : Int) (x : Float) : String :=
  match Binary64.read x with
  | .notANumber => "nan"
  | .infinite negative => if negative then "-inf" else "inf"
  | .finite d =>
    let n := scaledRound d.numerator d.denominator place
    if n = 0 then "0"
    else (if d.negative then "-" else "") ++ toString n ++ "e" ++ toString place

end FrameKinematics.Decimal
