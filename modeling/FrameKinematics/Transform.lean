import FrameKinematics.Line
import FrameKinematics.Instant.Shift
import FrameKinematics.Motion.Angular

/-!
# Transforms

A transform takes coordinates of one frame to coordinates of another at an instant. It is a
translation followed by a rotation, both with two derivatives in time:

    P = R (p + t)
    V = R (v + dt) - w × P
    A = R (a + d²t) - 2 w × V - w × (w × P) - dw × P

The neutral transform leaves everything as it is, and composition with it leaves the other
transform as it is but for the instant.
-/

namespace FrameKinematics

/-- A transform between two frames. -/
inductive Transform (K : Type) where
  /-- The neutral element of composition. -/
  | neutral
  /-- A translation followed by a rotation, valid at an instant. -/
  | dated (date : Instant K) (cartesian : Motion K) (angular : AngularMotion K)

namespace Transform

variable {K : Type} [Scalar K]

/-- The instant of a transform; the neutral one is stamped with J2000.0. -/
def date : Transform K → Instant K
  | neutral => .j2000
  | dated t _ _ => t

/-- The translation with its derivatives. -/
def cartesian : Transform K → Motion K
  | neutral => .zero
  | dated _ c _ => c

/-- The rotation with its derivatives. -/
def angular : Transform K → AngularMotion K
  | neutral => .identity
  | dated _ _ a => a

/-- Whether a transform is the neutral one itself. -/
def isNeutral {K : Type} : Transform K → Bool
  | neutral => true
  | dated .. => false

/-- A translation alone; the new origin is at its opposite in the old frame. -/
def ofTranslation (date : Instant K) (translation : Motion K) : Transform K :=
  dated date translation .identity

/-- A rotation alone. -/
def ofRotation (date : Instant K) (rotation : AngularMotion K) : Transform K :=
  dated date .zero rotation

/-- Whether two transforms have the same instant, translation and rotation. -/
def same (s t : Transform K) : Bool :=
  s.date == t.date && s.cartesian.same t.cartesian && s.angular.same t.angular

/-- `first` followed by `second`, stamped with an instant. The second translation is taken back
into the frame before the first rotation. -/
def compose (date : Instant K) (first second : Transform K) : Except (Fault K) (Transform K) :=
  match first, second with
  | neutral, _ => return dated date second.cartesian second.angular
  | _, neutral => return dated date first.cartesian first.angular
  | dated _ c₁ a₁, dated _ c₂ a₂ => do
    return dated date (c₁ + a₁.revert.applyTo c₂) (← a₁.compose a₂)

/-- The inverse transform. -/
def inverse : Transform K → Transform K
  | neutral => neutral
  | dated date c a => dated date (-a.applyTo c) a.revert

/-- The same translation and rotation, which no longer change. -/
def freeze : Transform K → Transform K
  | neutral => neutral
  | dated date c a => dated date (.atRest c.position) (.fixed a.rotation)

/-- The transform `dt` seconds later, extrapolated from its derivatives. -/
def shift (dt : K) : Transform K → Except (Fault K) (Transform K)
  | neutral => return neutral
  | dated date c a => do return dated (← date.shift dt) (c.shift dt) (← a.shift dt)

/-- A point in the new frame. -/
def mapPosition : Transform K → Vec3 K → Vec3 K
  | neutral, p => p
  | dated _ c a, p => a.apply (p + c.position)

/-- A free vector in the new frame: translations do not move it. -/
def mapVector : Transform K → Vec3 K → Vec3 K
  | neutral, v => v
  | dated _ _ a, v => a.apply v

/-- A line in the new frame. -/
def mapLine (t : Transform K) (l : Line K) : Except (Fault K) (Line K) :=
  match t with
  | neutral => return l
  | dated .. =>
    Line.through (t.mapPosition l.origin) (t.mapPosition (l.origin + l.direction)) l.tolerance

/-- A moving point in the new frame. -/
def mapMotion : Transform K → Motion K → Motion K
  | neutral, m => m
  | dated _ c a, m => a.applyTo (m + c)

/-- The rotation and its derivative, the blocks of the Jacobian of position and velocity. -/
def jacobianBlocks : Transform K → Mat3 K × Mat3 K
  | neutral => (.one, ⟨.zero, .zero, .zero⟩)
  | dated _ _ a => (a.rotation.matrix, Mat3.skewProduct (-a.rate) a.rotation.matrix)

/-- The rows of the Jacobian of position and velocity: the rotation above and below, and its
derivative in the lower left. -/
def jacobian (t : Transform K) : List (List K) :=
  let (rotation, derivative) := t.jacobianBlocks
  rotation.rows.map (fun r => r.toList ++ [0.0, 0.0, 0.0]) ++
    (derivative.rows.zip rotation.rows).map fun (d, r) => d.toList ++ r.toList

/-- Writes the Jacobian into the upper left corner of a table of numbers, which needs six rows
and columns and keeps its other entries. What is returned is what the table holds afterwards. -/
def jacobianInto (t : Transform K) (rows : List (List K)) : Except (Fault K) (List (List K)) :=
  if rows.length < 6 ∨ (rows.any fun row => decide (row.length < 6)) then throw .wrongShape
  else
    return (t.jacobian.zip rows).map (fun (j, row) => j ++ row.drop 6) ++ rows.drop 6

/-- Writes the Jacobian over a table that is full of a number. A table full of a flag keeps of
each number whether it is zero. -/
def jacobianOver (t : Transform K) (shape : List Nat) (full : Document K) :
    Except (Fault K) (List (List K)) := do
  let fill ← full.block
  if Block.commonShape? shape fill.shape ≠ some shape then throw .wrongShape
  let width := shape.getD 1 0
  let entries := fill.spread shape
  let rows := (List.range (shape.headD 0)).map fun i => (entries.drop (i * width)).take width
  let written ← t.jacobianInto rows
  match full with
  | .flag _ => return written.map fun row => row.map fun x => if x == 0.0 then 0.0 else 1.0
  | _ => return written

end Transform

end FrameKinematics
