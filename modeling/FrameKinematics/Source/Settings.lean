import FrameKinematics.Standards
import FrameKinematics.Document.Quantity
import FrameKinematics.Interpolation.Selection

/-!
# Settings of interpolation

What an interpolating source needs to know: how many points of a regular time grid it
interpolates, the step of the grid, how many raw transforms it keeps, and which derivatives it
uses. Settings are checked when a source is built and when they are read from a document; a
document may leave entries out, which then have their default values.
-/

namespace FrameKinematics

/-- The settings of interpolation on a time grid. -/
structure GridSettings (K : Type) where
  points : Quantity K
  step : Quantity K
  capacity : Quantity K
  cartesian : Choice
  angular : Choice

namespace GridSettings

variable {K : Type} [Scalar K]

/-- Five points a minute apart, fifty samples, and all derivatives. -/
def standard : GridSettings K where
  points := .whole Standards.gridPoints
  step := .real (Standards.gridStep K)
  capacity := .whole Standards.cacheSize
  cartesian := .of .withSecond
  angular := .of .withSecond

/-- Refuses fewer than two grid points. -/
def checkPoints (points : Quantity K) : Except (Fault K) Unit :=
  if points.less (.whole 2) then throw (.tooFewGridPoints points) else return ()

/-- Refuses a step that is not positive. -/
def checkStep (step : Quantity K) : Except (Fault K) Unit :=
  if step.isPositive then return () else throw (.nonPositiveStep step)

/-- Refuses room for fewer samples than grid points. -/
def checkCapacity (capacity points : Quantity K) : Except (Fault K) Unit :=
  if capacity.less points then throw (.cacheTooSmall capacity points) else return ()

/-- Refuses settings that a source cannot work with. -/
def check (s : GridSettings K) : Except (Fault K) Unit := do
  checkPoints s.points
  checkStep s.step
  checkCapacity s.capacity s.points

/-- Whether two settings are the same. -/
def same (s t : GridSettings K) : Bool :=
  s.points.same t.points && s.step.same t.step && s.capacity.same t.capacity &&
    s.cartesian == t.cartesian && s.angular == t.angular

/-- The selection of derivatives that a document names. -/
def selectionOf (part : Part) (value : Document K) : Except (Fault K) Selection :=
  let found? :=
    match value with
    | .text name => Selection.ofName? part name
    | _ => none
  match found? with
  | some selection => return selection
  | none => throw (.unknownFilter part value)

/-- The selection that a document names if there is one; all derivatives if not. -/
def selectionOr (part : Part) : Option (Document K) → Except (Fault K) Selection
  | none => return .withSecond
  | some value => selectionOf part value

/-- The quantity of a document that is a number. -/
def quantityOf (value : Document K) : Except (Fault K) (Quantity K) :=
  match Quantity.ofDocument? value with
  | some q => return q
  | none => throw .wrongKind

/-- The quantity of a document that may be left out. -/
def quantityOr (fallback : Quantity K) : Option (Document K) → Except (Fault K) (Quantity K)
  | none => return fallback
  | some value => quantityOf value

/-- The settings of three numbers and two selections. Numbers may be left out, and each one is
checked before the next one is read. -/
def ofNumbers (points? step? capacity? : Option (Document K)) (cartesian angular : Choice) :
    Except (Fault K) (GridSettings K) := do
  let points ← quantityOr standard.points points?
  checkPoints points
  let step ← quantityOr standard.step step?
  checkStep step
  let capacity ← quantityOr standard.capacity capacity?
  checkCapacity capacity points
  return ⟨points, step, capacity, cartesian, angular⟩

/-- The keys of the entries of a settings table. -/
def keys : List String := ["grid_points", "step", "cache_size", "cartesian_filter", "angular_filter"]

/-- The settings of the entries of a table. The selections are read first. Entries under other
keys do not matter. -/
def ofEntries (entries : List (String × Document K)) : Except (Fault K) (GridSettings K) := do
  let cartesian ← selectionOr .cartesian (Document.entry? entries "cartesian_filter")
  let angular ← selectionOr .angular (Document.entry? entries "angular_filter")
  ofNumbers (Document.entry? entries "grid_points") (Document.entry? entries "step")
    (Document.entry? entries "cache_size") cartesian angular

/-- The settings of a document, which has to be a table. -/
def ofDocument (d : Document K) : Except (Fault K) (GridSettings K) :=
  match d with
  | .table entries => ofEntries entries
  | _ => throw .noMember

/-- The settings of a table that has entries under known keys only. -/
def ofKnownEntries (d : Document K) : Except (Fault K) (GridSettings K) :=
  match d with
  | .table entries =>
    if entries.all fun entry => keys.contains entry.1 then ofEntries entries
    else throw .wrongKind
  | _ => throw .wrongKind

end GridSettings

end FrameKinematics
