import FrameKinematics.Decimal.Shortest
import FrameKinematics.Frame
import FrameKinematics.Text.Quoted

/-!
# Descriptions

The texts that describe values in full: the name of the kind of value and its parts in round
brackets, with every double in the shortest form that names it.
-/

namespace FrameKinematics

open Decimal (numberText)

/-- Doubles in square brackets. -/
def numberList (xs : List Float) : String :=
  "[" ++ ", ".intercalate (xs.map numberText) ++ "]"

/-- The description of an instant. -/
def Instant.describe (t : Instant Float) : String :=
  "AbsoluteDate(" ++ toString t.seconds ++ ", " ++ numberText t.fraction ++ ")"

/-- The description of a motion. -/
def Motion.describe (m : Motion Float) : String :=
  "PVCoordinates(position=" ++ numberList m.position.toList ++ ", velocity=" ++
    numberList m.velocity.toList ++ ", acceleration=" ++ numberList m.acceleration.toList ++ ")"

/-- The description of a rotation. Its components are shown with their type. -/
def Rotation.describe (r : Rotation Float) : String :=
  let component (x : Float) := "np.float64(" ++ numberText x ++ ")"
  "Rotation([" ++ ", ".intercalate (r.quaternion.toList.map component) ++ "])"

/-- The description of an angular motion. -/
def AngularMotion.describe (a : AngularMotion Float) : String :=
  "AngularCoordinates(rotation=" ++ a.rotation.describe ++ ", rotation_rate=" ++
    numberList a.rate.toList ++ ", rotation_acceleration=" ++ numberList a.acceleration.toList ++ ")"

/-- The description of a line. -/
def Line.describe (l : Line Float) : String :=
  "Line(origin=" ++ numberList l.origin.toList ++ ", direction=" ++
    numberList l.direction.toList ++ ")"

/-- The description of a transform. -/
def Transform.describe : Transform Float → String
  | neutral => "Transform.IDENTITY"
  | dated t c a =>
    "Transform(" ++ t.describe ++ ", " ++ c.describe ++ ", " ++ a.describe ++ ")"

/-- The description of a frame. -/
def Frame.describe {S : Type} (f : Frame S) : String :=
  "Frame(" ++ Text.quoted f.name ++ ", depth=" ++ toString f.depth ++ ")"

end FrameKinematics
