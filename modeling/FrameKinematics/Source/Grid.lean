import FrameKinematics.Interpolation.Transform
import FrameKinematics.Source.Guard
import FrameKinematics.Source.SampleStore
import FrameKinematics.Source.Settings
import FrameKinematics.Source.Slot

/-!
# Interpolation on a time grid

The grid has a point at each whole multiple of the step from J2000.0. A request takes the grid
points around its instant, gets the raw transforms there, from a sample store where it has
them, and interpolates.
-/

namespace FrameKinematics.Grid

variable {K : Type} [Scalar K]

/-- The grid points around an instant: the last one not after it, and about half of the others
before that one. -/
def indices (settings : GridSettings K) (date : Instant K) : Except (Fault K) (List Int) := do
  let last ← Scalar.wholePart ((← date.sinceJ2000) / (← settings.step.toScalar))
  match settings.points.whole? with
  | none => throw (.wrongKind "'float' object cannot be interpreted as an integer")
  | some points =>
    let first := last - (points - 1) / 2
    return (List.range points.toNat).map fun (i : Nat) => first + i

/-- The instant of a grid point. With a whole step and a whole index it is exact. -/
def date (step index : Quantity K) : Except (Fault K) (Instant K) :=
  match step.whole?, index.whole? with
  | some seconds, some i => Instant.make (i * seconds) 0.0
  | _, _ => do Instant.j2000.shift ((← index.toScalar) * (← step.toScalar))

section Effects

variable {m : Type → Type} [Monad m] [Journal K m] [MonadExceptOf (Fault K) m] {α : Type}

/-- Reports that a raw transform is asked for. The report cannot be written if its instant has no
label, which matters to a strict journal only. -/
def announce (index : Int) (date : Instant K) : m Unit := do
  match date.text with
  | .ok label => Journal.note (.gridPointFetched index label)
  | .error fault => if ← Journal.isStrict then throw fault

/-- The sample at a grid point, which lies at the instant that `place` gives for its index. One that
is in the store counts as used; another one is asked for and stored, which may push out others. -/
def sample (cell : Cell m (SampleStore α)) (capacity : Quantity K)
    (place : Int → Except (Fault K) (Instant K)) (source : String) (raw : Instant K → m α)
    (index : Int) : m α := do
  let store ← cell.get
  match store.find? index with
  | some value =>
    cell.set (store.put index value)
    return value
  | none =>
    let t ← ofExcept (place index)
    announce index t
    let value ← guarded source raw t
    cell.set (((← cell.get).put index value).trim capacity)
    return value

/-- The transform at an instant, joined from the samples at the grid points around it. -/
def requestBy (place : Int → Except (Fault K) (Instant K))
    (join : Instant K → List (Transform K) → m (Transform K))
    (cell : Cell m (SampleStore (Transform K))) (settings : GridSettings K) (source : String)
    (raw : Instant K → m (Transform K)) (t : Instant K) : m (Transform K) := do
  let points ← ofExcept (indices settings t)
  let samples ← points.mapM (sample cell settings.capacity place source raw)
  join t samples

/-- The transform at an instant, interpolated between the grid points around it. -/
def request (cell : Cell m (SampleStore (Transform K))) (settings : GridSettings K)
    (source : String) (raw : Instant K → m (Transform K)) (t : Instant K) : m (Transform K) :=
  requestBy (fun index => date settings.step (.whole index))
    (fun t samples => Transform.interpolate t samples settings.cartesian settings.angular)
    cell settings source raw t

end Effects

end FrameKinematics.Grid
