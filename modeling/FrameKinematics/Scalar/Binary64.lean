import FrameKinematics.Scalar

/-!
# Doubles as scalars

A finite double is read exactly as a sign and a dyadic number `mantissa * 2 ^ exponent`. Whole
parts and remainders are computed on that reading with natural numbers, so they are exact for
doubles of any size.
-/

namespace FrameKinematics

/-- The number `mantissa * 2 ^ exponent` with a sign. -/
structure Dyadic where
  negative : Bool
  mantissa : Nat
  exponent : Int
deriving DecidableEq, Repr

namespace Dyadic

/-- The numerator of a dyadic number over `denominator`, without its sign. -/
def numerator (d : Dyadic) : Nat :=
  d.mantissa * Nat.pow 2 d.exponent.toNat

/-- The power of two under a dyadic number that is not whole; one for a whole number. -/
def denominator (d : Dyadic) : Nat :=
  Nat.pow 2 (-d.exponent).toNat

/-- The greatest whole number that is not above a dyadic number. -/
def floor (d : Dyadic) : Int :=
  let n : Int := d.numerator
  (if d.negative then -n else n) / (d.denominator : Int)

end Dyadic

namespace Binary64

/-- What the 64 bits of a double stand for. -/
inductive Reading where
  | notANumber
  | infinite (negative : Bool)
  | finite (value : Dyadic)
deriving DecidableEq, Repr

/-- Reads the sign bit, the eleven exponent bits and the fifty-two fraction bits. -/
def read (x : Float) : Reading :=
  let bits : Nat := x.toBits.toNat
  let negative := bits / Nat.pow 2 63 == 1
  let field : Nat := bits / Nat.pow 2 52 % 2048
  let fraction : Nat := bits % Nat.pow 2 52
  if field = 2047 then
    if fraction = 0 then .infinite negative else .notANumber
  else if field = 0 then .finite ⟨negative, fraction, -1074⟩
  else .finite ⟨negative, fraction + Nat.pow 2 52, (field : Int) - 1075⟩

/-- The double `mantissa * 2 ^ exponent`, exact when at most fifty-three bits of the mantissa
count. The bits above those are moved into the exponent first. -/
def ofDyadic (d : Dyadic) : Float :=
  let extra := d.mantissa.log2 - 52
  let kept := Float.ofScientific (d.mantissa / Nat.pow 2 extra) false 0
  let magnitude := Float.scaleB kept (d.exponent + extra)
  if d.negative then -magnitude else magnitude

/-- The greatest whole number not above a double. -/
def floor (x : Float) : Except Unbounded Int :=
  match read x with
  | .notANumber => .error .notANumber
  | .infinite _ => .error .infinite
  | .finite d => .ok d.floor

/-- The remainder of the truncated division of two doubles, which is always a double. It has
the sign of the dividend. -/
def rem (x y : Float) : Float :=
  match read x, read y with
  | .finite a, .finite b =>
    if b.mantissa = 0 then 0.0 / 0.0
    else
      let shared := min a.exponent b.exponent
      let top := a.mantissa * Nat.pow 2 (a.exponent - shared).toNat
      let bottom := b.mantissa * Nat.pow 2 (b.exponent - shared).toNat
      ofDyadic ⟨a.negative, top % bottom, shared⟩
  | .finite _, .infinite _ => x
  | _, _ => 0.0 / 0.0

end Binary64

instance : Scalar Float where
  decidableLT := inferInstance
  decidableLE := inferInstance
  sqrt := Float.sqrt
  sin := Float.sin
  cos := Float.cos
  atan2 := Float.atan2
  pi := 3.141592653589793
  pow := fun x n => Float.pow x (Float.ofNat n)
  rem := Binary64.rem
  floor := Binary64.floor

end FrameKinematics
