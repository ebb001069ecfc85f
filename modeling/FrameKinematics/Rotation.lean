import FrameKinematics.Rotation.Quaternion
import FrameKinematics.Fault

/-!
# Rotations

A rotation of space is held as a quaternion. `r.compose s` applies `s` first and `r` second, so
its matrix is the product of the two matrices. Building a rotation fails where there is no
direction to turn about, and for a matrix that is not a rotation.
-/

namespace FrameKinematics

/-- What the angle of a rotation about an axis turns. -/
inductive RotationConvention where
  /-- The vector turns by the angle. -/
  | vectorOperator
  /-- The frame turns by the angle, so the coordinates of a fixed vector turn by its opposite. -/
  | frameTransform
deriving DecidableEq, Repr

/-- A rotation, given by a quaternion that is meant to have unit norm. -/
@[ext]
structure Rotation (K : Type) where
  quaternion : Quaternion K

namespace Rotation

variable {K : Type} [Scalar K]

/-- The rotation that turns nothing. -/
def identity : Rotation K := ⟨.one⟩

/-- The rotation of a quaternion after normalisation. -/
def normalized (q : Quaternion K) : Except (Fault K) (Rotation K) :=
  if q.isZero then throw .zeroQuaternion else return ⟨q.normalize⟩

/-- The rotation about an axis, which need not be a unit vector. -/
def ofAxisAngle (axis : Vec3 K) (angle : K)
    (convention : RotationConvention := .vectorOperator) : Except (Fault K) (Rotation K) :=
  let norm := axis.norm
  if norm == 0.0 then throw (.zeroAxis axis)
  else
    let turned :=
      match convention with
      | .vectorOperator => angle
      | .frameTransform => -angle
    let half := 0.5 * turned
    let scale := Scalar.sin half / norm
    return ⟨⟨Scalar.cos half, scale * axis.x, scale * axis.y, scale * axis.z⟩⟩

/-- How far the product of a matrix and its transpose is from the identity. -/
def deviation (m : Mat3 K) : K := (m.mulTranspose m - .one).largestEntry

/-- The rotation of a matrix whose deviation is not above a threshold. -/
def ofMatrix (m : Mat3 K) (threshold : K := 1e-10) : Except (Fault K) (Rotation K) :=
  if threshold < deviation m then throw (.notOrthogonal (deviation m))
  else if m.reverses then throw .reflection
  else return ⟨.ofMatrix m⟩

/-- The rotation about a vector by its length. -/
def ofVector (v : Vec3 K) : Except (Fault K) (Rotation K) :=
  let angle := v.norm
  if angle == 0.0 then return identity else ofAxisAngle v angle

/-- The matrix of a rotation. -/
def matrix (r : Rotation K) : Mat3 K := r.quaternion.matrix

/-- The angle of a rotation, from zero to a half-turn. -/
def angle (r : Rotation K) : K :=
  2.0 * Scalar.atan2 r.quaternion.vector.norm (Scalar.abs r.quaternion.w)

/-- The unit vector that a rotation turns about by its angle. The rotation that turns nothing
has none, and the first axis stands for it. -/
def axis (r : Rotation K) : Vec3 K :=
  let q := if (0.0 : K) ≤ r.quaternion.w then r.quaternion else -r.quaternion
  let norm := q.vector.norm
  if norm == 0.0 then .unitX else q.vector / norm

/-- The axis of a rotation under a convention. -/
def axisIn (r : Rotation K) : RotationConvention → Vec3 K
  | .vectorOperator => r.axis
  | .frameTransform => -r.axis

/-- The axis scaled by the angle. -/
def toVector (r : Rotation K) : Vec3 K := r.angle • r.axis

/-- Rotates a vector. -/
def apply (r : Rotation K) (v : Vec3 K) : Vec3 K := r.quaternion.rotate v

/-- Rotates a vector with the inverse rotation. -/
def applyInverse (r : Rotation K) (v : Vec3 K) : Vec3 K := r.quaternion.rotateInverse v

/-- The rotation that applies `s` first and then `r`. -/
def compose (r s : Rotation K) : Except (Fault K) (Rotation K) :=
  normalized (r.quaternion.mul s.quaternion)

/-- The rotation that applies `s` first and then the inverse of `r`. -/
def composeInverse (r s : Rotation K) : Except (Fault K) (Rotation K) :=
  normalized (r.quaternion.conjugate.mul s.quaternion)

/-- The inverse rotation. -/
def revert (r : Rotation K) : Rotation K := ⟨r.quaternion.conjugate⟩

/-- The angle between two rotations. -/
def distance (r s : Rotation K) : Except (Fault K) K := do
  return (← r.composeInverse s).angle

/-- Whether two rotations are the same: a quaternion and its opposite rotate alike. -/
def same (r s : Rotation K) : Bool :=
  r.quaternion.same s.quaternion || r.quaternion.same (-s.quaternion)

end Rotation

end FrameKinematics
