import FrameKinematics.Document.Literal
import FrameKinematics.Fault
import FrameKinematics.Calendar.LeapSeconds

/-!
# Messages of faults

The wording of each fault. Faults of operations outside their domain are given no message when
they are reported themselves; when a source fails with one of them, its wording is quoted in
the message of the failure of the source.
-/

namespace FrameKinematics.Fault

open Decimal (numberText)

/-- The name of a kind of selection. -/
def partName : Part → String
  | .cartesian => "CartesianDerivativesFilter"
  | .angular => "AngularDerivativesFilter"

/-- A label with a blank between date and time. -/
def spacedLabel (l : Label) : String :=
  l.text.map fun c => if c = 'T' then ' ' else c

/-- Whether a fault is a look-up that found nothing. The words of such a fault are quoted when
another message tells them. -/
def isLookup {K : Type} : Fault K → Bool
  | unknownFrame _ => true
  | reported .key _ => true
  | _ => false

/-- The words of a fault. Those of an operation outside its domain say what could not be done. -/
def wording : Fault Float → String
  | zeroQuaternion => "zero norm quaternion"
  | zeroAxis _ => "zero norm rotation axis"
  | notOrthogonal deviation =>
    "matrix is not orthogonal (deviation " ++ Decimal.scientificText 3 deviation ++ ")"
  | reflection => "matrix is a reflection, not a rotation"
  | zeroPosition => "cannot normalize a zero-length position"
  | coincidentPoints _ _ => "line points are coincident"
  | repeatedAbscissae _ => "duplicated abscissae in interpolation sample"
  | tooFewPoints actual required =>
    "too few points for interpolation: " ++ toString actual ++ " < " ++ toString required
  | sourceFailed source _ label cause =>
    source ++ " failed at " ++ label ++ ": " ++
      if cause.isLookup then Text.quoted (wording cause) else wording cause
  | noPoleCorrection _ label first last =>
    "no pole correction data at " ++ label ++ " (table covers " ++ first ++ " to " ++ last ++ ")"
  | disconnected source target =>
    "frames " ++ source ++ " and " ++ target ++ " do not share a common ancestor"
  | noAncestor frame generations depth =>
    "frame " ++ frame ++ " has no ancestor " ++ generations.text ++
      " generations up (depth " ++ toString depth ++ ")"
  | unpairedLink frame => "frame " ++ frame ++ ": parent and provider must be given together"
  | alreadyRegistered name => "frame " ++ name ++ " already registered"
  | unknownFrame name => "unknown frame " ++ Text.quoted name
  | beforeLeapTable => "Time must be after GPS epoch " ++ spacedLabel (.midnight 1980 1 6)
  | unknownScale name => "Unknown time scale: " ++ name
  | immutableInstant => "AbsoluteDate is immutable"
  | emptyPoleTable => "empty pole correction table"
  | unequalPoleColumns => "pole correction arrays have different lengths"
  | unorderedPoleDates => "pole correction dates must be strictly increasing"
  | tooFewGridPoints points => "grid_points must be at least 2, got " ++ points.text
  | nonPositiveStep step => "step must be positive, got " ++ step.text
  | cacheTooSmall size points =>
    "cache_size (" ++ size.text ++ ") must hold at least grid_points (" ++ points.text ++ ")"
  | unknownFilter part value => "unknown " ++ partName part ++ ": " ++ value.literal
  | unknownLogLevel name => "unknown log level: " ++ Text.quoted name
  | reported _ words => words
  | notANumber => "cannot convert float NaN to integer"
  | infinite => "cannot convert float infinity to integer"
  | tooLarge => "int too large to convert to float"
  | powerTooLarge => "(34, 'Numerical result out of range')"
  | outsideCalendar => "date value out of range"
  | inseparableAbscissae => "Elements of `xi` can't be equal."
  | divisionByZero => "float division by zero"
  | wrongShape words => words
  | wrongKind words => words
  | noMember words => words
  | fileNotOpened _ => ""
  | invalidLabel => ""
  | missingEntry => ""
  | invalidPattern => ""
  | unknownKey => ""

/-- The words of a fault inside those of another one. -/
def inserted (fault : Fault Float) : String :=
  if fault.isLookup then Text.quoted fault.wording else fault.wording

/-- Whether a fault is an operation outside its domain. -/
def isOutsideDomain {K : Type} : Fault K → Bool
  | notANumber => true
  | infinite => true
  | tooLarge => true
  | powerTooLarge => true
  | outsideCalendar => true
  | invalidLabel => true
  | divisionByZero => true
  | wrongShape _ => true
  | inseparableAbscissae => true
  | missingEntry => true
  | wrongKind _ => true
  | fileNotOpened _ => true
  | noMember _ => true
  | invalidPattern => true
  | unknownKey => true
  | _ => false

/-- The message with which a fault is reported, if it is reported with one. -/
def message? (fault : Fault Float) : Option String :=
  if fault.isOutsideDomain then none else some fault.wording

end FrameKinematics.Fault
