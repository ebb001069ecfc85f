import FrameKinematics.Scalar

/-!
# Vectors of space

Vectors of three scalars with the operations of kinematics. Sums run over the coordinates in
order, so that scalars that round always round the same way.
-/

namespace FrameKinematics

/-- A vector of space. -/
@[ext]
structure Vec3 (K : Type) where
  x : K
  y : K
  z : K

namespace Vec3

variable {K : Type} [Scalar K]

instance : Add (Vec3 K) := ⟨fun u v => ⟨u.x + v.x, u.y + v.y, u.z + v.z⟩⟩
instance : Sub (Vec3 K) := ⟨fun u v => ⟨u.x - v.x, u.y - v.y, u.z - v.z⟩⟩
instance : Neg (Vec3 K) := ⟨fun u => ⟨-u.x, -u.y, -u.z⟩⟩
instance : SMul K (Vec3 K) := ⟨fun s u => ⟨s * u.x, s * u.y, s * u.z⟩⟩
instance : HDiv (Vec3 K) K (Vec3 K) := ⟨fun u s => ⟨u.x / s, u.y / s, u.z / s⟩⟩

/-- The vector of three zeros. -/
def zero : Vec3 K := ⟨0.0, 0.0, 0.0⟩

/-- The unit vectors along the three axes. -/
def unitX : Vec3 K := ⟨1.0, 0.0, 0.0⟩

@[inherit_doc unitX]
def unitY : Vec3 K := ⟨0.0, 1.0, 0.0⟩

@[inherit_doc unitX]
def unitZ : Vec3 K := ⟨0.0, 0.0, 1.0⟩

/-- The scalar product. -/
def dot (u v : Vec3 K) : K := u.x * v.x + u.y * v.y + u.z * v.z

/-- The vector product. -/
def cross (u v : Vec3 K) : Vec3 K :=
  ⟨u.y * v.z - u.z * v.y, u.z * v.x - u.x * v.z, u.x * v.y - u.y * v.x⟩

/-- The length of a vector. -/
def norm (u : Vec3 K) : K := Scalar.sqrt (dot u u)

/-- Whether two vectors have equal coordinates. -/
def same (u v : Vec3 K) : Bool := u.x == v.x && u.y == v.y && u.z == v.z

/-- The three coordinates in order. -/
def toList {K : Type} (u : Vec3 K) : List K := [u.x, u.y, u.z]

/-- Applies a function to each coordinate. -/
def map {K L : Type} (f : K → L) (u : Vec3 K) : Vec3 L := ⟨f u.x, f u.y, f u.z⟩

/-- The mean of several vectors. -/
def mean : List (Vec3 K) → Vec3 K
  | [] => zero
  | v :: vs => vs.foldl (· + ·) v / (Scalar.ofNat (vs.length + 1) : K)

end Vec3

end FrameKinematics
