import FrameKinematics.Interpolation.Motion
import FrameKinematics.Transform

/-!
# Interpolation of transforms

The translations and the rotations of a sample of transforms are interpolated apart, at the
instants of the transforms, the translations first.
-/

namespace FrameKinematics.Transform

variable {K : Type} [Scalar K]
variable {m : Type → Type} [Monad m] [Journal K m] [MonadExceptOf (Fault K) m]

/-- The transform at an instant that goes through a sample, given in any order. -/
def interpolate (date : Instant K) (sample : List (Transform K)) (cartesian angular : Choice) :
    m (Transform K) := do
  let c ← Motion.interpolate date (← ofExcept cartesian.selection)
    (sample.map fun t => (t.date, t.cartesian))
  let a ← AngularMotion.interpolate date (← ofExcept angular.selection)
    (sample.map fun t => (t.date, t.angular))
  return dated date c a

end FrameKinematics.Transform
