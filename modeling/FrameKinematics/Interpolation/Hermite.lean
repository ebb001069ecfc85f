import FrameKinematics.Interpolation.Newton
import FrameKinematics.Journal
import FrameKinematics.Motion.Rodrigues

/-!
# Hermite interpolation

The polynomial that takes given values, and given derivatives, at given abscissae. Abscissae
are scaled to the interval from minus one to one around the point of evaluation before the
polynomial is built, and the derivatives found are scaled back.
-/

namespace FrameKinematics.Hermite

variable {K : Type} [Scalar K]

/-- The least number of abscissae of an interpolation. -/
def minimumSize : Nat := 2

/-- More conditions than this make a polynomial oscillate. -/
def manyConditions : Nat := 30

/-- Whether a scalar occurs in a list, where scalars that are no numbers count as equal. -/
def occurs (x : K) (xs : List K) : Bool :=
  xs.any fun y => x == y || (!(x == x) && !(y == y))

/-- Whether a scalar comes twice in a list. -/
def repeats : List K → Bool
  | [] => false
  | x :: xs => occurs x xs || repeats xs

/-- Refuses samples that are too short or have an abscissa twice. -/
def checkAbscissae (xs : List K) : Except (Fault K) Unit :=
  if xs.length < minimumSize then throw (.tooFewPoints xs.length minimumSize)
  else if repeats xs then throw (.repeatedAbscissae (.ofList xs))
  else return ()

/-- The largest distance of an abscissa from `x`, and one if there is none. -/
def scaleAround (xs : List K) (x : K) : K :=
  let scale := Scalar.maximum (xs.map fun a => Scalar.abs (a - x))
  if scale == 0.0 then 1.0 else scale

/-- The conditions on one coordinate: for each abscissa its value and derivatives, the `i`-th
scaled by the `i`-th power of the scale. -/
def conditions (scale x : K) (xs : List K) (samples : List (List K)) : List (K × K) :=
  (xs.zip samples).flatMap fun (a, values) =>
    values.zipIdx.map fun (value, i) => ((a - x) / scale, value * Scalar.pow scale i)

/-- Interpolates one coordinate: its value and first two derivatives at `x`. -/
def coordinate (scale x : K) (xs : List K) (samples : List (List K)) :
    Except (Fault K) (Jet K) := do
  let polynomial ← Newton.ofConditions (conditions scale x xs samples)
  let (value, first, second) := polynomial.evaluate 0.0
  return ⟨value / Scalar.pow scale 0, first / Scalar.pow scale 1, second / Scalar.pow scale 2⟩

/-- Interpolates coordinates one by one. Each is a list with, for each abscissa, its value and
`count - 1` derivatives. -/
def coordinates (xs : List K) (columns : List (List (List K))) (x : K) :
    Except (Fault K) (List (Jet K)) :=
  columns.mapM (coordinate (scaleAround xs x) x xs)

section Effects

variable {m : Type → Type} [Monad m] [Journal K m]

/-- Reports a number of conditions that is too large for comfort. -/
def warn (count : Nat) : m Unit :=
  if manyConditions < count then Journal.note (.manyConditions count) else pure ()

variable [MonadExceptOf (Fault K) m]

/-- Interpolates vectors: for each abscissa a value and `order` of its derivatives. -/
def vectors (order : Nat) (xs : List K) (samples : List (List (Vec3 K))) (x : K) :
    m (Jet (Vec3 K)) := do
  ofExcept (checkAbscissae xs)
  warn (xs.length * (order + 1))
  let column (f : Vec3 K → K) := samples.map fun sample => sample.map f
  let scale := scaleAround xs x
  let a ← ofExcept (coordinate scale x xs (column Vec3.x))
  let b ← ofExcept (coordinate scale x xs (column Vec3.y))
  let c ← ofExcept (coordinate scale x xs (column Vec3.z))
  return ⟨⟨a.value, b.value, c.value⟩, ⟨a.first, b.first, c.first⟩,
    ⟨a.second, b.second, c.second⟩⟩

end Effects

end FrameKinematics.Hermite
