import FrameKinematics.Document.Quantity
import FrameKinematics.Motion

/-!
# Operands

Instants and motions can be added to, subtracted from and scaled by values of several kinds.
An operation on a value of a kind that it does not apply to is a fault.
-/

namespace FrameKinematics

/-- The right-hand side of an operation. -/
inductive Operand (K : Type) where
  | instant (t : Instant K)
  | motion (m : Motion K)
  | number (q : Quantity K)
  /-- A value of another kind. -/
  | other

/-- The result of a subtraction from an instant: another instant or a duration. -/
inductive Difference (K : Type) where
  | instant (t : Instant K)
  | duration (seconds : K)

namespace Instant

variable {K : Type} [Scalar K]

/-- An instant and a number of seconds. -/
def plus (t : Instant K) : Operand K → Except (Fault K) (Instant K)
  | .number q => do t.shift (← q.toScalar)
  | _ => throw .wrongKind

/-- The seconds since another instant, or the instant a number of seconds earlier. -/
def minus (t : Instant K) : Operand K → Except (Fault K) (Difference K)
  | .instant origin => do return .duration (← t.since origin)
  | .number q => do return .instant (← t.shift (-(← q.toScalar)))
  | _ => throw .wrongKind

end Instant

namespace Motion

variable {K : Type} [Scalar K]

/-- The sum of two motions. -/
def plus (m : Motion K) : Operand K → Except (Fault K) (Motion K)
  | .motion n => return m + n
  | _ => throw .wrongKind

/-- The difference of two motions. -/
def minus (m : Motion K) : Operand K → Except (Fault K) (Motion K)
  | .motion n => return m - n
  | _ => throw .wrongKind

/-- A motion scaled by a number. -/
def scaled (m : Motion K) : Operand K → Except (Fault K) (Motion K)
  | .number q => do return (← q.toScalar) • m
  | _ => throw .wrongKind

/-- Whether a value is a motion with equal coordinates. -/
def equals (m : Motion K) : Operand K → Bool
  | .motion n => m.same n
  | _ => false

end Motion

end FrameKinematics
