import FrameKinematics.Standards
import FrameKinematics.Transform

/-!
# Earth rotation

Greenwich mean sidereal time by the expression of the year 1982, with TT in the place of UT1,
and the rotation of the Earth by that angle about the third axis.
-/

namespace FrameKinematics.Earth

variable {K : Type} [Scalar K]

/-- Greenwich mean sidereal time in seconds, not yet reduced to one day, from the seconds since
J2000.0. The term of 876600 hours in a century advances by a second each second, so only the
seconds within a day count for it. -/
def siderealSeconds (elapsed : K) : Except (Fault K) K := do
  let t := elapsed / Standards.secondsPerCentury K
  let square ← Scalar.boundedPower t 2
  let cube ← Scalar.boundedPower t 3
  return 67310.54841 + Scalar.rem elapsed (Standards.secondsPerDay K) + 8640184.812866 * t +
    0.093104 * square - 6.2e-6 * cube

/-- Greenwich mean sidereal time in radians, from zero to a full turn, from the seconds since
J2000.0. -/
def siderealAngle (elapsed : K) : Except (Fault K) K := do
  let seconds ← siderealSeconds elapsed
  return Scalar.modulo (seconds / Standards.secondsPerDay K * 2.0 * Scalar.pi) (2.0 * Scalar.pi)

/-- Greenwich mean sidereal time in radians at a Julian date. -/
def siderealAngleAt (julianDate : K) : Except (Fault K) K :=
  siderealAngle ((julianDate - Standards.julianJ2000 K) * Standards.secondsPerDay K)

/-- The transform from the inertial frame to the one that takes part in the daily rotation. -/
def rotation (date : Instant K) : Except (Fault K) (Transform K) := do
  let angle ← siderealAngle (← date.sinceJ2000)
  let turned ← Rotation.ofAxisAngle .unitZ angle .frameTransform
  return .ofRotation date ⟨turned, ⟨0.0, 0.0, Standards.earthRate K⟩, .zero⟩

end FrameKinematics.Earth
