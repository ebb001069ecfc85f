import FrameKinematics.Motion.Angular

/-!
# Modified Rodrigues parameters

A rotation by less than a full turn is given by three parameters, the vector part of its
quaternion over one plus the scalar part. Angular motions and parameters with two derivatives
are turned into one another, which makes an angular motion an ordinary moving vector.
-/

namespace FrameKinematics

/-- A value that changes in time, with its first two derivatives. -/
@[ext]
structure Jet (V : Type) where
  value : V
  first : V
  second : V

namespace AngularMotion

variable {K : Type} [Scalar K]

/-- The parameters of an angular motion. Of the two quaternions of the rotation the one whose
scalar part is not negative is taken, and `dq/dt = -1/2 (0, w) q`. -/
def toRodrigues (a : AngularMotion K) : Jet (Vec3 K) :=
  let q := if a.rotation.quaternion.w < 0.0 then -a.rotation.quaternion else a.rotation.quaternion
  let w := q.w
  let x := q.vector
  let w' := 0.5 * a.rate.dot x
  let x' := (-0.5 : K) • (w • a.rate + a.rate.cross x)
  let w'' := 0.5 * (a.acceleration.dot x + a.rate.dot x')
  let x'' := (-0.5 : K) •
    (w' • a.rate + w • a.acceleration + a.acceleration.cross x + a.rate.cross x')
  let inverse := 1.0 / (1.0 + w)
  let p := inverse • x
  let p' := inverse • (x' - w' • p)
  ⟨p, p', inverse • (x'' - (2.0 * w') • p' - w'' • p)⟩

/-- The angular motion of parameters, whose quaternion is `((1 - p²), 2 p) / (1 + p²)`. -/
def ofRodrigues (parameters : Jet (Vec3 K)) : Except (Fault K) (AngularMotion K) := do
  let ⟨p, p', p''⟩ := parameters
  let s := p.dot p
  let s' := 2.0 * p.dot p'
  let s'' := 2.0 * (p'.dot p' + p.dot p'')
  let k := 1.0 / (1.0 + s)
  let k' := -s' * k * k
  let k'' := -s'' * k * k + 2.0 * s' * s' * k * k * k
  let w := 2.0 * k - 1.0
  let x := (2.0 * k) • p
  let w' := 2.0 * k'
  let x' := (2.0 : K) • (k' • p + k • p')
  let w'' := 2.0 * k''
  let x'' := (2.0 : K) • (k'' • p + (2.0 * k') • p' + k • p'')
  let rotation ← Rotation.normalized ⟨w, x.x, x.y, x.z⟩
  return ⟨rotation, (-2.0 : K) • (w • x' - w' • x - x'.cross x),
    (-2.0 : K) • (w • x'' - w'' • x - x''.cross x)⟩

end AngularMotion

end FrameKinematics
