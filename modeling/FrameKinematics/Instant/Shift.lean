import FrameKinematics.Instant
import FrameKinematics.Scalar.Bounded

/-!
# Shifting instants

A duration is split into its whole seconds and the rest, and the two are added to the two parts
of an instant. The sum of the fractions is split again, so the fraction stays in `[0, 1)`.
-/

namespace FrameKinematics

namespace Instant

variable {K : Type} [Scalar K]

/-- Splits a duration into whole seconds and the rest. A tiny negative duration has a rest that
rounds up to a full second, which is carried over. -/
def split (duration : K) : Except (Fault K) (Int × K) := do
  let whole ← Scalar.wholePart duration
  let rest := duration - (← Scalar.ofInt whole)
  if 1.0 ≤ rest then return (whole + 1, 0.0) else return (whole, rest)

/-- The instant `seconds + offset` seconds after J2000.0. -/
def make (seconds : Int) (offset : K) : Except (Fault K) (Instant K) := do
  let (carry, fraction) ← split offset
  return ⟨seconds + carry, fraction⟩

/-- The instant `duration` seconds later. -/
def shift (t : Instant K) (duration : K) : Except (Fault K) (Instant K) := do
  let (whole, rest) ← split duration
  make (t.seconds + whole) (t.fraction + rest)

/-- The seconds from one instant to another. -/
def since (t origin : Instant K) : Except (Fault K) K := do
  return (← Scalar.ofInt (t.seconds - origin.seconds)) + (t.fraction - origin.fraction)

/-- The seconds since J2000.0. -/
def sinceJ2000 (t : Instant K) : Except (Fault K) K :=
  t.since j2000

end Instant

end FrameKinematics
