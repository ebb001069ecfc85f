import FrameKinematics.Linear.Vector

/-!
# Three by three matrices

Matrices as three rows, with products that sum along a row in order.
-/

namespace FrameKinematics

/-- A three by three matrix, by rows. -/
@[ext]
structure Mat3 (K : Type) where
  top : Vec3 K
  middle : Vec3 K
  bottom : Vec3 K

namespace Mat3

variable {K : Type} [Scalar K]

instance : Add (Mat3 K) := ⟨fun a b => ⟨a.top + b.top, a.middle + b.middle, a.bottom + b.bottom⟩⟩
instance : Sub (Mat3 K) := ⟨fun a b => ⟨a.top - b.top, a.middle - b.middle, a.bottom - b.bottom⟩⟩
instance : Neg (Mat3 K) := ⟨fun a => ⟨-a.top, -a.middle, -a.bottom⟩⟩

/-- The rows in order. -/
def rows {K : Type} (a : Mat3 K) : List (Vec3 K) := [a.top, a.middle, a.bottom]

/-- The nine entries row by row. -/
def toList {K : Type} (a : Mat3 K) : List K := a.rows.flatMap Vec3.toList

/-- The identity matrix. -/
def one : Mat3 K := ⟨.unitX, .unitY, .unitZ⟩

/-- The matrix with rows and columns exchanged. -/
def transpose {K : Type} (a : Mat3 K) : Mat3 K :=
  ⟨⟨a.top.x, a.middle.x, a.bottom.x⟩, ⟨a.top.y, a.middle.y, a.bottom.y⟩,
   ⟨a.top.z, a.middle.z, a.bottom.z⟩⟩

/-- A matrix applied to a vector. -/
def apply (a : Mat3 K) (v : Vec3 K) : Vec3 K :=
  ⟨a.top.dot v, a.middle.dot v, a.bottom.dot v⟩

/-- The product of a matrix with the transpose of another: the scalar products of their rows. -/
def mulTranspose (a b : Mat3 K) : Mat3 K :=
  ⟨b.apply a.top, b.apply a.middle, b.apply a.bottom⟩

/-- The product of two matrices. -/
def mul (a b : Mat3 K) : Mat3 K := a.mulTranspose b.transpose

/-- The largest absolute value of an entry. -/
def largestEntry (a : Mat3 K) : K := Scalar.maximum (a.toList.map Scalar.abs)

/-- The skew symmetric matrix whose product with a vector is the vector product with `v`. -/
def skew (v : Vec3 K) : Mat3 K :=
  ⟨⟨0.0, -v.z, v.y⟩, ⟨v.z, 0.0, -v.x⟩, ⟨-v.y, v.x, 0.0⟩⟩

/-- The vector of the antisymmetric part of a matrix. -/
def deskew (a : Mat3 K) : Vec3 K :=
  ⟨0.5 * (a.bottom.y - a.middle.z), 0.5 * (a.top.z - a.bottom.x), 0.5 * (a.middle.x - a.top.y)⟩

/-- The skew symmetric matrix of `v` times a matrix: the vector product of `v` with each of its
columns. -/
def skewProduct (v : Vec3 K) (a : Mat3 K) : Mat3 K :=
  ⟨v.y • a.bottom - v.z • a.middle, v.z • a.top - v.x • a.bottom, v.x • a.middle - v.y • a.top⟩

/-- The determinant, expanded along the first row. -/
def det (a : Mat3 K) : K := a.top.dot (a.middle.cross a.bottom)

/-- The order of magnitude of a vector: the exponent of a power of two near its largest absolute
entry. -/
def order (u : Vec3 K) : Int := Scalar.binaryOrder (Scalar.maximum (u.toList.map Scalar.abs))

/-- A vector times a power of two. -/
def shifted (u : Vec3 K) (n : Int) : Vec3 K := u.map (Scalar.timesPower · n)

/-- Whether the determinant is negative. The rows are first brought to one order of magnitude, so
that their products keep their signs. The determinant is brought back in two steps, and one that
is too small for the scalars counts as zero. -/
def reverses (a : Mat3 K) : Bool :=
  let x := order a.top
  let y := order a.middle
  let z := order a.bottom
  let n := x + y + z
  let scaled := det ⟨shifted a.top (-x), shifted a.middle (-y), shifted a.bottom (-z)⟩
  decide (Scalar.timesPower (Scalar.timesPower scaled (n / 2)) (n - n / 2) < 0.0)

end Mat3

end FrameKinematics
