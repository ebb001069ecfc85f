import FrameKinematics.Fault

/-!
# Operations with bounds

Operations on scalars that are faults where they have no result: whole numbers beyond the
scalars, whole parts of scalars that have none, powers that grow beyond the scalars, and
division by zero.
-/

namespace FrameKinematics.Scalar

variable {K : Type} [Scalar K]

/-- The scalar nearest to a whole number, or the fault that there is none. -/
def ofInt (n : Int) : Except (Fault K) K :=
  match ofInt? n with
  | some x => .ok x
  | none => .error .tooLarge

/-- The greatest whole number not above a scalar, or the fault that there is none. -/
def wholePart (x : K) : Except (Fault K) Int :=
  (floor x).mapError Fault.ofUnbounded

/-- The whole number next to a scalar in the direction of zero, or the fault that there is
none. -/
def truncated (x : K) : Except (Fault K) Int :=
  (truncate x).mapError Fault.ofUnbounded

/-- A power of a scalar. One that is infinite though its base is not is a fault. -/
def boundedPower (base : K) (n : Nat) : Except (Fault K) K :=
  let power := pow base n
  if isInfinite power && !isInfinite base then throw .powerTooLarge
  else return power

/-- The quotient of two scalars, where a divisor of zero is a fault. -/
def quotient (x y : K) : Except (Fault K) K :=
  if y == 0.0 then throw .divisionByZero else return x / y

end FrameKinematics.Scalar
