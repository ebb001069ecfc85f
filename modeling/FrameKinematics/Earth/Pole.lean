import FrameKinematics.Calendar.TimeScale
import FrameKinematics.Document.Quantity
import FrameKinematics.Transform

/-!
# Motion of the pole

The pole of the Earth moves by a few tenths of an arc second. Its coordinates come from a table
with one record for each of several instants, and are interpolated linearly between records;
outside its instants a table has no coordinates. The motion of the pole and the slow drift of
the origin of longitudes take the rotating frame to the Earth-fixed one.
-/

namespace FrameKinematics

/-- The coordinates of the pole in radians. -/
@[ext]
structure PoleCorrection (K : Type) where
  xp : K
  yp : K

/-- A record of a pole table, with the seconds of its instant since J2000.0. -/
structure PoleRecord (K : Type) where
  date : Instant K
  time : K
  pole : PoleCorrection K

/-- The records of a pole table in order, with at least one. -/
structure PoleTable (K : Type) where
  first : PoleRecord K
  rest : List (PoleRecord K)

namespace PoleTable

variable {K : Type} [Scalar K]

/-- All records in order. -/
def records {K : Type} (table : PoleTable K) : List (PoleRecord K) := table.first :: table.rest

/-- The last record. -/
def last {K : Type} (table : PoleTable K) : PoleRecord K := table.rest.getLastD table.first

/-- Whether some time is not after the one before it. -/
def stalls : List K → Bool
  | s :: t :: rest => decide (t - s ≤ 0.0) || stalls (t :: rest)
  | _ => false

/-- The table of three columns: instants, which have to increase, and the coordinates of the
pole. -/
def ofColumns (dates : List (Instant K)) (xp yp : List K) : Except (Fault K) (PoleTable K) := do
  let times ← dates.mapM Instant.sinceJ2000
  let records := ((dates.zip times).zip (xp.zip yp)).map fun ((date, time), (x, y)) =>
    (⟨date, time, ⟨x, y⟩⟩ : PoleRecord K)
  if times.isEmpty then throw .emptyPoleTable
  if times.length ≠ xp.length ∨ xp.length ≠ yp.length then throw .unequalPoleColumns
  if stalls times then throw .unorderedPoleDates
  match records with
  | [] => throw .emptyPoleTable
  | first :: rest => return ⟨first, rest⟩

/-- Refuses a column of coordinates that is not as long as it should be. -/
def checkColumn (length : Nat) (column : Block K) : Except (Fault K) Unit :=
  match column.shape with
  | [] => throw .wrongKind
  | extent :: _ => if extent = length then return () else throw .unequalPoleColumns

/-- The table of instants and of two blocks of coordinates, which have to be columns. -/
def ofBlocks (dates : List (Instant K)) (xp yp : Block K) : Except (Fault K) (PoleTable K) := do
  if dates.isEmpty then throw .emptyPoleTable
  checkColumn dates.length xp
  checkColumn dates.length yp
  let table ← ofColumns dates (xp.entries.take dates.length) (yp.entries.take dates.length)
  if xp.shape.length = 1 ∧ yp.shape.length = 1 then return table else throw .wrongShape

/-- The table of records in any order, with coordinates in arc seconds. -/
def ofArcseconds (records : List (Instant K × K × K)) : Except (Fault K) (PoleTable K) :=
  let sorted := Instant.sortOn Prod.fst records
  let radians (x : K) := x * Standards.radiansPerArcsecond K
  ofColumns (sorted.map Prod.fst) (sorted.map fun r => radians r.2.1)
    (sorted.map fun r => radians r.2.2)

/-- The value at `t` on the line through `(t₀, y₀)` and `(t₁, y₁)`. It is measured from the
first point, or from the second one if that gives no number; and where the two values are equal
it is that value. -/
def onLine (t t₀ y₀ t₁ y₁ : K) : K :=
  let slope := (y₁ - y₀) / (t₁ - t₀)
  let fromFirst := slope * (t - t₀) + y₀
  if fromFirst == fromFirst then fromFirst
  else
    let fromSecond := slope * (t - t₁) + y₁
    if fromSecond == fromSecond then fromSecond
    else if y₀ == y₁ then y₀
    else fromSecond

/-- The values of a column at `t`: at a record the one of the record, and between two records
the one on the line through them. -/
def interpolate (column : PoleRecord K → K) (t : K) : PoleRecord K → List (PoleRecord K) → K
  | r, [] => column r
  | r, s :: rest =>
    if s.time ≤ t then interpolate column t s rest
    else if r.time == t then column r
    else onLine t r.time (column r) s.time (column s)

/-- The coordinates of the pole at an instant. -/
def correction (table : PoleTable K) (date : Instant K) : Except (Fault K) (PoleCorrection K) := do
  let t ← date.sinceJ2000
  if t < table.first.time ∨ table.last.time < t then
    let label ← date.text
    let first ← table.first.date.text
    let last ← table.last.date.text
    throw (.noPoleCorrection date label first last)
  return ⟨interpolate (fun r => r.pole.xp) t table.first table.rest,
    interpolate (fun r => r.pole.yp) t table.first table.rest⟩

end PoleTable

/-- Where the coordinates of the pole come from. -/
inductive PoleData (K : Type) where
  /-- There are none, and the pole does not move. -/
  | none
  | table (table : PoleTable K)
  /-- A value that is no table, which is seen when it is asked. -/
  | other (value : Document K)

namespace PoleData

variable {K : Type}

/-- Whether there is something to ask. -/
def isSome : PoleData K → Bool
  | none => false
  | _ => true

/-- Whether two are the same. A table is the same as itself only, so two tables differ. -/
def same [Scalar K] : PoleData K → PoleData K → Bool
  | none, none => true
  | other d, other e => d.same e
  | _, _ => false

end PoleData

namespace Earth

variable {K : Type} [Scalar K]

/-- The coordinates of the pole at an instant; without a table they are zero. -/
def poleCorrection (data : PoleData K) (date : Instant K) : Except (Fault K) (PoleCorrection K) :=
  match data with
  | .none => return ⟨0.0, 0.0⟩
  | .table table => table.correction date
  | .other value =>
    throw (.noMember ("'" ++ value.kindName ++ "' object has no attribute 'get_pole_correction'"))

/-- The transform from the rotating frame to the Earth-fixed one: the inverse of the rotations
by `-yp` about the first axis, `-xp` about the second and the drift about the third. -/
def poleMotion (data : PoleData K) (date : Instant K) : Except (Fault K) (Transform K) := do
  let centuries := (← date.sinceJ2000) / Standards.secondsPerCentury K
  let pole ← poleCorrection data date
  let r₁ ← Rotation.ofAxisAngle .unitX (-pole.yp)
  let r₂ ← Rotation.ofAxisAngle .unitY (-pole.xp)
  let r₃ ← Rotation.ofAxisAngle .unitZ (Standards.originDrift K * centuries)
  let w ← r₃.compose (← r₂.compose r₁)
  return .ofRotation date (.fixed w.revert)

end Earth

end FrameKinematics
