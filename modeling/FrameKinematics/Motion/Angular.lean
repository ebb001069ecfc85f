import FrameKinematics.Document.Block
import FrameKinematics.Motion

/-!
# Angular motions

A rotation `R` from an old frame to a new one with its first two derivatives. The rate `w` is
seen in the new frame, where `dR/dt = -[w ×] R`: a vector that is fixed in the old frame moves
in the new one with the velocity `-w × R u`.
-/

namespace FrameKinematics

/-- A rotation with its rate and the derivative of the rate. -/
@[ext]
structure AngularMotion (K : Type) where
  rotation : Rotation K
  rate : Vec3 K
  acceleration : Vec3 K

namespace AngularMotion

variable {K : Type} [Scalar K]

/-- Nothing turns. -/
def identity : AngularMotion K := ⟨.identity, .zero, .zero⟩

/-- A rotation that does not change. -/
def fixed (rotation : Rotation K) : AngularMotion K := ⟨rotation, .zero, .zero⟩

/-- Whether two angular motions have the same rotation and equal rates and accelerations. -/
def same (a b : AngularMotion K) : Bool :=
  a.rotation.same b.rotation && a.rate.same b.rate && a.acceleration.same b.acceleration

/-- The inverse: the rate and the acceleration are turned back and reversed. -/
def revert (a : AngularMotion K) : AngularMotion K :=
  ⟨a.rotation.revert, -a.rotation.applyInverse a.rate, -a.rotation.applyInverse a.acceleration⟩

/-- A vector seen in the new frame. -/
def apply (a : AngularMotion K) (v : Vec3 K) : Vec3 K := a.rotation.apply v

/-- A motion seen in the new frame: `P = R p`, `V = R v - w × P` and
`A = R a - 2 w × V - w × (w × P) - dw/dt × P`. -/
def applyTo (a : AngularMotion K) (m : Motion K) : Motion K :=
  let p := a.rotation.apply m.position
  let v := a.rotation.apply m.velocity - a.rate.cross p
  ⟨p, v,
   a.rotation.apply m.acceleration - (2.0 : K) • a.rate.cross v - a.rate.cross (a.rate.cross p) -
     a.acceleration.cross p⟩

/-- `first` followed by `second`. -/
def compose (first second : AngularMotion K) : Except (Fault K) (AngularMotion K) := do
  let turned := second.rotation.apply first.rate
  return ⟨← second.rotation.compose first.rotation, second.rate + turned,
    second.acceleration + second.rotation.apply first.acceleration - second.rate.cross turned⟩

/-- The angular motion `dt` seconds later: the rotation goes on about the rate by `|w| dt`, then
about the acceleration by half of `|dw/dt| dt²`. -/
def shift (a : AngularMotion K) (dt : K) : Except (Fault K) (AngularMotion K) := do
  let speed := a.rate.norm
  let revolution ←
    if speed == 0.0 then pure Rotation.identity
    else Rotation.ofAxisAngle a.rate (speed * dt) .frameTransform
  let linear : AngularMotion K := ⟨← revolution.compose a.rotation, a.rate, .zero⟩
  let change := a.acceleration.norm
  if change == 0.0 then return linear
  else
    let bend ← Rotation.ofAxisAngle a.acceleration (0.5 * change * dt * dt) .frameTransform
    compose linear ⟨bend, dt • a.acceleration, a.acceleration⟩

/-- Whether an angular motion neither rotates nor starts to. -/
def isAtRest (a : AngularMotion K) : Bool := a.rate.norm == 0.0 && a.acceleration.norm == 0.0

/-- The angular motion after a duration, which nobody looks at where nothing rotates. -/
def shiftBy (a : AngularMotion K) (duration : Document K) : Except (Fault K) (AngularMotion K) := do
  if a.isAtRest then a.shift 0.0 else a.shift (← duration.soleFactor)

/-- The constant rate that turns `start` into `finish` within `dt` seconds. -/
def estimateRate (start finish : Rotation K) (dt : K) : Except (Fault K) (Vec3 K) := do
  let evolution ← finish.compose start.revert
  return (-evolution.toVector) / dt

/-- The rates that turn `start` into `finish` within a duration. Several durations have to fit the
three coordinates. -/
def estimateRates (start finish : Rotation K) (duration : Document K) :
    Except (Fault K) (Block K) := do
  let evolution ← finish.compose start.revert
  match (Block.ofList (-evolution.toVector).toList).zipWith? (· / ·) (← duration.factor [3]) with
  | some rates => return rates
  | none => throw .wrongShape

/-- The angular motion of a frame whose axes are given, with their derivatives, in the old
frame. The axes are the rows of its matrix. -/
def ofAxes (x y z : Motion K) : Except (Fault K) (AngularMotion K) := do
  let m : Mat3 K := ⟨x.position, y.position, z.position⟩
  let first : Mat3 K := ⟨x.velocity, y.velocity, z.velocity⟩
  let second : Mat3 K := ⟨x.acceleration, y.acceleration, z.acceleration⟩
  let rotation ← Rotation.ofMatrix m
  let rate := ((-first).mulTranspose m).deskew
  return ⟨rotation, rate, ((-(second + Mat3.skewProduct rate first)).mulTranspose m).deskew⟩

end AngularMotion

end FrameKinematics
