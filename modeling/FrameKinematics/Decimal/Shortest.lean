import FrameKinematics.Decimal.Rounding
import FrameKinematics.Text.Padding

/-!
# Shortest decimal text of a double

A double stands for all the reals that round to it, an interval whose ends belong to it when
its mantissa is even. The text of a double has the fewest digits that name a point of that
interval, and of those the point nearest to the double. `numberText` lays the digits out
positionally or with an exponent, as one fixed style says.
-/

namespace FrameKinematics.Decimal

/-- Whether `point * 10 ^ k` rounds to the double `d`. A double whose fraction bits are all
zero has a neighbour below at half the usual distance, unless it is the smallest of its kind. -/
def namesDouble (d : Dyadic) (point : Nat) (k : Int) : Bool :=
  let above := 4 * d.mantissa + 2
  let below :=
    if d.mantissa = Nat.pow 2 52 ∧ -1074 < d.exponent then 4 * d.mantissa - 1
    else 4 * d.mantissa - 2
  let q := d.exponent - 2
  let decimal := point * Nat.pow 10 k.toNat * Nat.pow 2 (-q).toNat
  let binary (n : Nat) := n * Nat.pow 2 q.toNat * Nat.pow 10 (-k).toNat
  if d.mantissa % 2 = 0 then binary below ≤ decimal && decimal ≤ binary above
  else binary below < decimal && decimal < binary above

/-- The point of the grid of multiples of `10 ^ k` that is nearest to a double, among the two
next to it that name the double. -/
def onGrid? (d : Dyadic) (k : Int) : Option Nat :=
  let top := d.numerator * Nat.pow 10 (-k).toNat
  let bottom := d.denominator * Nat.pow 10 k.toNat
  let low := top / bottom
  let nearest := roundDiv top bottom
  let other := if nearest = low then low + 1 else low
  if namesDouble d nearest k then some nearest
  else if namesDouble d other k then some other
  else none

/-- Takes trailing zeros of a positive number into its exponent. -/
def strip (point : Nat) (k : Int) : Nat × Int :=
  if 0 < point ∧ point % 10 = 0 then strip (point / 10) (k + 1) else (point, k)
termination_by point
decreasing_by omega

/-- The first grid, of at most `count` further ones, that names a double. Each is ten times as
fine as the one before; the grid of seventeen digits names every double. -/
def searchGrid (d : Dyadic) (k : Int) : Nat → Nat × Int
  | 0 => (roundDiv (d.numerator * Nat.pow 10 (-k).toNat) (d.denominator * Nat.pow 10 k.toNat), k)
  | count + 1 =>
    match onGrid? d k with
    | some point => (point, k)
    | none => searchGrid d (k - 1) count

/-- The shortest decimal that names a positive double, as a number without trailing zeros and
a power of ten. -/
def shortest (d : Dyadic) : Nat × Int :=
  let (point, k) := searchGrid d (leadingExponent d.numerator d.denominator) 16
  strip point k

/-- How digits are laid out: the exponents of the leading digit that are written positionally,
and the least number of digits of a written exponent. -/
structure Style where
  leastPositional : Int
  mostPositional : Int
  exponentDigits : Nat

/-- From a ten thousandth up to ten to the sixteenth numbers are positional, and a written
exponent has two digits at least. -/
def plainStyle : Style := ⟨-4, 15, 2⟩

/-- The exponent mark: a sign always, and as many digits as the style asks for. -/
def exponentText (style : Style) (e : Int) : String :=
  (if e < 0 then "e-" else "e+") ++ Text.zeroFilled style.exponentDigits (toString e.natAbs)

/-- Digits with a point after the first `whole` of them, and none after the last. -/
def pointed (digits : String) (whole : Nat) : String :=
  if digits.length ≤ whole then digits
  else String.ofList (digits.toList.take whole) ++ "." ++ String.ofList (digits.toList.drop whole)

/-- Lays out `point * 10 ^ k`. A whole number that is written positionally gets the ending
`.0`, so that its text names a scalar and not a whole number. -/
def Style.layout (style : Style) (point : Nat) (k : Int) : String :=
  let digits := toString point
  let e := (digits.length : Int) - 1 + k
  if e < style.leastPositional ∨ style.mostPositional < e then
    pointed digits 1 ++ exponentText style e
  else if 0 ≤ k then digits ++ "".pushn '0' k.toNat ++ ".0"
  else if 0 ≤ e then pointed digits (e.toNat + 1)
  else "0." ++ "".pushn '0' (-e - 1).toNat ++ digits

/-- The text of a double: the shortest decimal that names it. -/
def numberText (x : Float) : String :=
  match Binary64.read x with
  | .notANumber => "nan"
  | .infinite negative => if negative then "-inf" else "inf"
  | .finite d =>
    let sign := if d.negative then "-" else ""
    if d.mantissa = 0 then sign ++ "0.0"
    else
      let (point, k) := shortest d
      sign ++ plainStyle.layout point k

/-- The text of a double with `places` digits after the leading one and an exponent. -/
def scientificText (places : Nat) (x : Float) : String :=
  match Binary64.read x with
  | .notANumber => "nan"
  | .infinite negative => if negative then "-inf" else "inf"
  | .finite d =>
    let sign := if d.negative then "-" else ""
    let (point, e) :=
      if d.mantissa = 0 then (0, 0) else significant (places + 1) d.numerator d.denominator
    sign ++ pointed (Text.zeroFilled (places + 1) (toString point)) 1 ++ exponentText plainStyle e

end FrameKinematics.Decimal
