import FrameKinematics.Document
import FrameKinematics.Instant
import FrameKinematics.Linear.Block
import FrameKinematics.Linear.Vector

/-!
# Faults

All the ways in which a request can fail, by cause. A fault carries what its cause involves and
nothing else; the wording is in `FrameKinematics.Fault.Message`. In the last group an operation
was asked for something outside its domain. Some of these faults carry words for those who are
told of them as the cause of another fault.
-/

namespace FrameKinematics

/-- The two parts of a transform, whose derivatives are chosen separately in interpolation. -/
inductive Part where
  | cartesian
  | angular
deriving DecidableEq, Repr

/-- The kinds of failure that a source of transforms outside the library may report. -/
inductive ReportKind where
  | value
  | arithmetic
  | key
  | runtime
  | computation
  | geometry
  | tree
deriving DecidableEq, Repr

/-- Why a request failed. -/
inductive Fault (K : Type) where
  /-- All four components of a quaternion to normalise are zero. -/
  | zeroQuaternion
  /-- The axis of a rotation has no length. -/
  | zeroAxis (axis : Vec3 K)
  /-- A matrix times its transpose is too far from the identity. -/
  | notOrthogonal (deviation : K)
  /-- An orthogonal matrix reverses the orientation of space. -/
  | reflection
  /-- A position of zero length has no direction. -/
  | zeroPosition
  /-- Two points are too close to define a line. -/
  | coincidentPoints (first second : Vec3 K)
  /-- Two abscissae of an interpolation sample are equal. -/
  | repeatedAbscissae (abscissae : Block K)
  /-- An interpolation sample is too short. -/
  | tooFewPoints (actual required : Nat)
  /-- A source of transforms failed at an instant, which `label` shows. -/
  | sourceFailed (source : String) (date : Instant K) (label : String) (cause : Fault K)
  /-- An instant is outside a pole table, which covers the instants `first` to `last`. -/
  | noPoleCorrection (date : Instant K) (label first last : String)
  /-- Two frames belong to different trees. -/
  | disconnected (source target : String)
  /-- A frame has no ancestor so many generations up. -/
  | noAncestor (frame : String) (generations : Quantity K) (depth : Nat)
  /-- Only one of the parent of a frame and the source of its transform was given. -/
  | unpairedLink (frame : String)
  /-- A frame of this name is registered already. -/
  | alreadyRegistered (name : String)
  /-- No frame of this name is registered. -/
  | unknownFrame (name : String)
  /-- A label precedes the table of leap seconds. -/
  | beforeLeapTable
  /-- No time scale has this name. -/
  | unknownScale (name : String)
  /-- An instant cannot be changed. -/
  | immutableInstant
  /-- A pole table has no records. -/
  | emptyPoleTable
  /-- The columns of a pole table have different lengths. -/
  | unequalPoleColumns
  /-- The instants of a pole table do not increase. -/
  | unorderedPoleDates
  /-- An interpolation needs two grid points at least. -/
  | tooFewGridPoints (points : Quantity K)
  /-- A grid step has to be positive. -/
  | nonPositiveStep (step : Quantity K)
  /-- A cache cannot hold the grid points of one interpolation. -/
  | cacheTooSmall (size points : Quantity K)
  /-- A document names no selection of derivatives. -/
  | unknownFilter (part : Part) (value : Document K)
  /-- A text names no log level. -/
  | unknownLogLevel (name : String)
  /-- A log file cannot be opened. -/
  | fileNotOpened (path : String)
  /-- A failure reported from outside, in its own words. -/
  | reported (kind : ReportKind) (words : String)
  /-- A whole part was asked of something that is no number. -/
  | notANumber
  /-- A whole part was asked of an infinite scalar. -/
  | infinite
  /-- A whole number is beyond the scalars. -/
  | tooLarge
  /-- A power is beyond the scalars though its base is not. -/
  | powerTooLarge
  /-- An instant is outside the years of the calendar. -/
  | outsideCalendar
  /-- The fields of a calendar label do not name a day and a time. -/
  | invalidLabel
  /-- A division by zero. -/
  | divisionByZero
  /-- A nested list of numbers has the wrong shape, or an entry that is no number. -/
  | wrongShape (words : String := "")
  /-- Abscissae cannot be told apart by the interpolation. -/
  | inseparableAbscissae
  /-- A list is too short for an entry that is needed. -/
  | missingEntry
  /-- An operation does not apply to a value of this kind. -/
  | wrongKind (words : String := "")
  /-- A value lacks a member that is needed, such as entries or letters. -/
  | noMember (words : String := "")
  /-- The pattern of a log line is malformed or names no field of a record. -/
  | invalidPattern
  /-- There is nothing under a key or a name. -/
  | unknownKey

namespace Fault

variable {K : Type}

/-- The fault behind a missing whole part. -/
def ofUnbounded : Unbounded → Fault K
  | .notANumber => .notANumber
  | .infinite => .infinite

/-- Whether a fault already says that a source of transforms failed. -/
def isSourceFailure : Fault K → Bool
  | .sourceFailed .. => true
  | .noPoleCorrection .. => true
  | .reported .computation _ => true
  | _ => false

end Fault

end FrameKinematics
