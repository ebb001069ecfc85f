import FrameKinematics.Fault

/-!
# Motions of points

A position with its velocity and acceleration. Every operation carries the two derivatives along
by the product and quotient rules.
-/

namespace FrameKinematics

/-- The position of a point with its first two derivatives in time. -/
@[ext]
structure Motion (K : Type) where
  position : Vec3 K
  velocity : Vec3 K
  acceleration : Vec3 K

namespace Motion

variable {K : Type} [Scalar K]

/-- A point at rest in the origin. -/
def zero : Motion K := ⟨.zero, .zero, .zero⟩

/-- A point at rest. -/
def atRest (position : Vec3 K) : Motion K := ⟨position, .zero, .zero⟩

instance : Add (Motion K) :=
  ⟨fun a b => ⟨a.position + b.position, a.velocity + b.velocity, a.acceleration + b.acceleration⟩⟩

instance : Sub (Motion K) :=
  ⟨fun a b => ⟨a.position - b.position, a.velocity - b.velocity, a.acceleration - b.acceleration⟩⟩

instance : Neg (Motion K) := ⟨fun a => ⟨-a.position, -a.velocity, -a.acceleration⟩⟩

instance : SMul K (Motion K) :=
  ⟨fun s a => ⟨s • a.position, s • a.velocity, s • a.acceleration⟩⟩

/-- Whether two motions have equal coordinates. -/
def same (a b : Motion K) : Bool :=
  a.position.same b.position && a.velocity.same b.velocity && a.acceleration.same b.acceleration

/-- The motion `dt` seconds later if the acceleration stays. -/
def shift (m : Motion K) (dt : K) : Motion K :=
  ⟨m.position + dt • (m.velocity + (0.5 * dt) • m.acceleration),
   m.velocity + dt • m.acceleration, m.acceleration⟩

/-- The direction of the position, with its derivatives. -/
def normalize (m : Motion K) : Except (Fault K) (Motion K) :=
  let norm := m.position.norm
  if norm == 0.0 then throw .zeroPosition
  else
    let inverse := 1.0 / norm
    let u := inverse • m.position
    let v := inverse • m.velocity
    let w := inverse • m.acceleration
    let uv := u.dot v
    return ⟨u, v - uv • u,
      w - (2.0 * uv) • v + (3.0 * uv * uv - v.dot v - u.dot w) • u⟩

/-- The vector product of two motions, with its derivatives. -/
def cross (a b : Motion K) : Motion K :=
  ⟨a.position.cross b.position,
   a.velocity.cross b.position + a.position.cross b.velocity,
   a.acceleration.cross b.position + (2.0 : K) • a.velocity.cross b.velocity +
     a.position.cross b.acceleration⟩

/-- The angular momentum of a unit mass. -/
def momentum (m : Motion K) : Vec3 K := m.position.cross m.velocity

end Motion

end FrameKinematics
