import FrameKinematics.Linear.Matrix

/-!
# Quaternions

Quaternions with the scalar part first and the Hamilton product. A unit quaternion `q` rotates
a vector `v` to the vector part of `q v q*`, so products of quaternions are products of
rotation matrices.
-/

namespace FrameKinematics

/-- A quaternion `w + x i + y j + z k`. -/
@[ext]
structure Quaternion (K : Type) where
  w : K
  x : K
  y : K
  z : K

namespace Quaternion

variable {K : Type} [Scalar K]

/-- The quaternion that rotates nothing. -/
def one : Quaternion K := ⟨1.0, 0.0, 0.0, 0.0⟩

/-- The four components in order. -/
def toList {K : Type} (q : Quaternion K) : List K := [q.w, q.x, q.y, q.z]

/-- The vector part. -/
def vector {K : Type} (q : Quaternion K) : Vec3 K := ⟨q.x, q.y, q.z⟩

instance : Neg (Quaternion K) := ⟨fun q => ⟨-q.w, -q.x, -q.y, -q.z⟩⟩

/-- Whether two quaternions have equal components. -/
def same (p q : Quaternion K) : Bool := p.w == q.w && p.x == q.x && p.y == q.y && p.z == q.z

/-- Whether all components are zero. -/
def isZero (q : Quaternion K) : Bool := q.w == 0.0 && q.x == 0.0 && q.y == 0.0 && q.z == 0.0

/-- The Hamilton product. -/
def mul (p q : Quaternion K) : Quaternion K :=
  ⟨p.w * q.w - p.x * q.x - p.y * q.y - p.z * q.z,
   p.w * q.x + p.x * q.w + p.y * q.z - p.z * q.y,
   p.w * q.y - p.x * q.z + p.y * q.w + p.z * q.x,
   p.w * q.z + p.x * q.y - p.y * q.x + p.z * q.w⟩

/-- The conjugate, the inverse of a unit quaternion. -/
def conjugate (q : Quaternion K) : Quaternion K := ⟨q.w, -q.x, -q.y, -q.z⟩

/-- The sum of the squares of the components. -/
def normSq (q : Quaternion K) : K := q.w * q.w + q.x * q.x + q.y * q.y + q.z * q.z

/-- A quaternion divided by its norm; one of norm zero is left as it is. -/
def normalize (q : Quaternion K) : Quaternion K :=
  let n := Scalar.sqrt q.normSq
  if n == 0.0 then q else ⟨q.w / n, q.x / n, q.y / n, q.z / n⟩

/-- Rotates a vector with a unit quaternion: `v + w t + u × t` with `t = 2 (u × v)`, where `u`
is the vector part. -/
def rotate (q : Quaternion K) (v : Vec3 K) : Vec3 K :=
  let u := q.vector
  let t := (2.0 : K) • u.cross v
  ⟨v.x + q.w * t.x + (u.y * t.z - u.z * t.y),
   v.y + q.w * t.y + (u.z * t.x - u.x * t.z),
   v.z + q.w * t.z + (u.x * t.y - u.y * t.x)⟩

/-- Rotates a vector with the inverse of a unit quaternion. -/
def rotateInverse (q : Quaternion K) (v : Vec3 K) : Vec3 K := q.conjugate.rotate v

/-- The matrix of the rotation of a unit quaternion. -/
def matrix (q : Quaternion K) : Mat3 K :=
  let ⟨w, x, y, z⟩ := q
  ⟨⟨w * w + x * x - y * y - z * z, 2.0 * (x * y - w * z), 2.0 * (w * y + x * z)⟩,
   ⟨2.0 * (w * z + x * y), w * w - x * x + y * y - z * z, 2.0 * (y * z - w * x)⟩,
   ⟨2.0 * (x * z - w * y), 2.0 * (y * z + w * x), w * w - x * x - y * y + z * z⟩⟩

/-- A quaternion of a rotation matrix, not yet of unit norm nor of a chosen sign. It is computed
from the largest of the trace and the diagonal entries, which keeps the divisor from zero. -/
def rawOfMatrix (m : Mat3 K) : Quaternion K :=
  let ⟨⟨xx, xy, xz⟩, ⟨yx, yy, yz⟩, ⟨zx, zy, zz⟩⟩ := m
  let trace := xx + yy + zz
  if (0.0 : K) < trace then
    let s := 0.5 / Scalar.sqrt (trace + 1.0)
    ⟨0.25 / s, (zy - yz) * s, (xz - zx) * s, (yx - xy) * s⟩
  else if yy < xx ∧ zz < xx then
    let s := 2.0 * Scalar.sqrt (1.0 + xx - yy - zz)
    ⟨(zy - yz) / s, 0.25 * s, (xy + yx) / s, (xz + zx) / s⟩
  else if zz < yy then
    let s := 2.0 * Scalar.sqrt (1.0 + yy - xx - zz)
    ⟨(xz - zx) / s, (xy + yx) / s, 0.25 * s, (yz + zy) / s⟩
  else
    let s := 2.0 * Scalar.sqrt (1.0 + zz - xx - yy)
    ⟨(yx - xy) / s, (xz + zx) / s, (yz + zy) / s, 0.25 * s⟩

/-- The unit quaternion of a rotation matrix whose scalar part is not negative. -/
def ofMatrix (m : Mat3 K) : Quaternion K :=
  let q := rawOfMatrix m
  (if q.w < 0.0 then -q else q).normalize

end Quaternion

end FrameKinematics
