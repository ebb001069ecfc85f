import FrameKinematics.Document.Block

/-!
# Lines

An infinite line with an orientation is held as its point closest to the coordinate origin and
a unit vector along it.
-/

namespace FrameKinematics

/-- An oriented line. The tolerance is the distance below which points count as one. -/
@[ext]
structure Line (K : Type) where
  origin : Vec3 K
  direction : Vec3 K
  tolerance : K

namespace Line

variable {K : Type} [Scalar K]

/-- The tolerance of a line that is given without one. -/
def defaultTolerance : K := 1e-10

/-- The line from `p` to `q`, which have to be further apart than the tolerance. -/
def through (p q : Vec3 K) (tolerance : K) : Except (Fault K) (Line K) :=
  let delta := q - p
  let norm := delta.norm
  if norm ≤ tolerance then throw (.coincidentPoints p q)
  else
    let direction := delta / norm
    return ⟨p - p.dot direction • direction, direction, tolerance⟩

/-- The point at a signed distance from the origin of a line along its direction. -/
def pointAt (l : Line K) (abscissa : K) : Vec3 K := l.origin + abscissa • l.direction

/-- The points at signed distances from the origin of a line. Several distances have to fit the
three coordinates. -/
def pointsAt (l : Line K) (abscissae : Document K) : Except (Fault K) (Block K) := do
  let along? := (← abscissae.factor [3]).zipWith? (· * ·) (.ofList l.direction.toList)
  match along?.bind (Block.zipWith? (· + ·) (.ofList l.origin.toList)) with
  | some points => return points
  | none => throw .wrongShape

/-- The signed distance of the foot of a point on a line from the origin of the line. -/
def abscissa (l : Line K) (point : Vec3 K) : K := (point - l.origin).dot l.direction

/-- The distance of a point from a line. -/
def distance (l : Line K) (point : Vec3 K) : K :=
  let d := point - l.origin
  (d - d.dot l.direction • l.direction).norm

/-- Whether a point is on a line, to the tolerance of the line. -/
def contains (l : Line K) (point : Vec3 K) : Bool := decide (l.distance point < l.tolerance)

/-- The same line with the opposite orientation. -/
def revert (l : Line K) : Except (Fault K) (Line K) :=
  through l.origin (l.origin - l.direction) l.tolerance

end Line

end FrameKinematics
