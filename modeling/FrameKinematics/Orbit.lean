import FrameKinematics.Transform

/-!
# Orbits

The motion of a spacecraft as a function of time, and the axes that go along with it. The third
axis is along the orbital momentum, and the first one along the position or the velocity.
-/

namespace FrameKinematics

/-- The axes that go along with a spacecraft. -/
inductive OrbitalAxes where
  /-- The first axis is along the position. -/
  | qsw
  /-- The first axis is along the velocity. -/
  | tnw
deriving DecidableEq, Repr

namespace OrbitalAxes

variable {K : Type} [Scalar K]

/-- The velocity with its derivative; the third derivative of the position counts as zero. -/
def velocityOf (m : Motion K) : Motion K := ⟨m.velocity, m.acceleration, .zero⟩

/-- The rotation from the parent frame to the axes that go along with a motion. -/
def angular (axes : OrbitalAxes) (m : Motion K) : Except (Fault K) (AngularMotion K) := do
  let w ← (m.cross (velocityOf m)).normalize
  let x ← match axes with
    | qsw => m.normalize
    | tnw => (velocityOf m).normalize
  AngularMotion.ofAxes x (w.cross x) w

/-- The transform from the parent frame to the frame of a spacecraft. -/
def transform (axes : OrbitalAxes) (date : Instant K) (m : Motion K) :
    Except (Fault K) (Transform K) := do
  return .dated date (-m) (← axes.angular m)

end OrbitalAxes

/-- The motion of a spacecraft as a function of the instant. -/
def Orbit (K : Type) : Type := Instant K → Except (Fault K) (Motion K)

namespace Orbit

variable {K : Type} [Scalar K]

/-- The motion that goes on from J2000.0 with a constant acceleration. -/
def drifting (m : Motion K) : Orbit K := fun date => do
  return m.shift (← date.sinceJ2000)

/-- The motion on a circle around a centre of attraction, from the ascending node at J2000.0. The
circle has to have a size. -/
def circular (mu radius inclination node : K) : Except (Fault K) (Orbit K) := do
  let rate := Scalar.sqrt (← Scalar.quotient mu (← Scalar.boundedPower radius 3))
  let plane ← (← Rotation.ofAxisAngle .unitZ node).compose (← Rotation.ofAxisAngle .unitX inclination)
  return fun date => do
    let u := rate * (← date.sinceJ2000)
    let p := plane.apply (radius • (⟨Scalar.cos u, Scalar.sin u, 0.0⟩ : Vec3 K))
    let v := plane.apply ((radius * rate) • (⟨-Scalar.sin u, Scalar.cos u, 0.0⟩ : Vec3 K))
    return ⟨p, v, -(rate * rate) • p⟩

end Orbit

end FrameKinematics
