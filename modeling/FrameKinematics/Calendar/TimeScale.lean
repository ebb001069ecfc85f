import FrameKinematics.Calendar.LeapSeconds
import FrameKinematics.Instant.Shift

/-!
# Time scales

Calendar labels of the time scales TAI, TT, GPS time and UTC, and the instants they name. An
instant counts from the TT label 2000-01-01T12:00:00, so each scale is given by how far it is
behind TT. For UTC that depends on the label itself: the label of an instant is first taken
too late, with the leap seconds of the TT label, and then once more with the leap seconds of
the label found.
-/

namespace FrameKinematics

/-- A time scale of calendar labels. -/
inductive TimeScale where
  | tai
  | tt
  | gps
  | utc
  /-- A name that no time scale has. -/
  | unknown (name : String)
deriving DecidableEq, Repr

namespace TimeScale

/-- The scale of a name. -/
def ofName : String → TimeScale
  | "TAI" => tai
  | "TT" => tt
  | "GPS" => gps
  | "UTC" => utc
  | name => unknown name

variable {K : Type} [Scalar K]

/-- How many seconds a scale is behind TT, where `taiMinusUtc` tells it for UTC. -/
def behindTT (scale : TimeScale) (taiMinusUtc : Except (Fault K) Int) : Except (Fault K) K :=
  match scale with
  | tt => return 0.0
  | tai => return Standards.ttMinusTai K
  | gps => return Standards.ttMinusTai K + Standards.taiMinusGps K
  | utc => do return Standards.ttMinusTai K + (← Scalar.ofInt (← taiMinusUtc))
  | unknown name => throw (.unknownScale name)

end TimeScale

namespace Label

/-- The TT label of J2000.0. -/
def j2000 : Label := ofFields ⟨2000, 1, 1, 12, 0, 0, 0⟩

variable {K : Type}

/-- The label that fields name. A field beyond 32 bits is too large for a calendar. -/
def make (year month day hour minute second micro : Int) : Except (Fault K) Label :=
  let given := [year, month, day, hour, minute, second, micro]
  if given.any fun n => decide (n < -2147483648) || decide (2147483647 < n) then
    throw .outsideCalendar
  else if given.any fun n => decide (n < 0) then throw .invalidLabel
  else
    let f : Fields := ⟨year.toNat, month.toNat, day.toNat, hour.toNat, minute.toNat,
      second.toNat, micro.toNat⟩
    if f.valid then return ofFields f else throw .invalidLabel

/-- A label later by some microseconds. -/
def later (l : Label) (micros : Int) : Except (Fault K) Label :=
  match l.add? micros with
  | some l => .ok l
  | none => .error .outsideCalendar

/-- The longest duration that a calendar knows, in days. -/
def longestDays : Int := 999999999

/-- The UTC label of a label that is some microseconds east of UTC, less than a day. -/
def westward (l : Label) (micros : Int) : Except (Fault K) Label :=
  if micros < -(longestDays * perDay) ∨ (longestDays + 1) * perDay ≤ micros then
    throw .outsideCalendar
  else if micros.natAbs < perDay.natAbs then l.later (-micros)
  else throw .invalidLabel

/-- TAI minus UTC in seconds at a UTC label. -/
def taiMinusUtc (l : Label) : Except (Fault K) Int :=
  match LeapSeconds.taiMinusUtc? l with
  | some n => .ok n
  | none => .error .beforeLeapTable

end Label

namespace Scalar

variable {K : Type} [Scalar K]

/-- The whole number nearest to a scalar; a half goes to the even neighbour. -/
def nearest (x : K) : Except (Fault K) Int := do
  let whole ← wholePart x
  let rest := x - (← ofInt whole)
  if rest < 0.5 then return whole
  else if 0.5 < rest then return whole + 1
  else return whole + whole % 2

/-- The microseconds nearest to a duration in units of some microseconds. The whole units are
taken apart first, so that only the rest is scaled. -/
def microsecondsOf (unit : Nat) (duration : K) : Except (Fault K) Int := do
  let whole ← truncated duration
  let rest := duration - (← ofInt whole)
  return whole * unit + (← nearest (ofNat unit * rest))

/-- The microseconds nearest to a duration in seconds. -/
def microseconds (duration : K) : Except (Fault K) Int := microsecondsOf 1000000 duration

end Scalar

namespace Instant

variable {K : Type} [Scalar K]

/-- The instant that a label of a scale names. -/
def ofLabel (label : Label) (scale : TimeScale) : Except (Fault K) (Instant K) := do
  let elapsed := label.micros - Label.j2000.micros
  let seconds := elapsed / Label.perSecond
  let fraction : K := Scalar.ofNat (elapsed % Label.perSecond).toNat * 1e-6
  let (whole, rest) ← split (← scale.behindTT label.taiMinusUtc)
  make (seconds + whole) (fraction + rest)

/-- The instant that calendar fields name, with seconds that need not be whole. -/
def ofFields (year month day hour minute : Int) (second : K) (scale : TimeScale) :
    Except (Fault K) (Instant K) := do
  let (whole, rest) ← split second
  let label ← Label.make year month day hour minute whole 0
  (← ofLabel label scale).shift rest

/-- TAI minus UTC in seconds at an instant. -/
def taiMinusUtc (t : Instant K) : Except (Fault K) Int := do
  let elapsed ← t.sinceJ2000
  let tooLate ← Label.j2000.later (← Scalar.microseconds elapsed)
  let guess := Standards.ttMinusTai K + (← Scalar.ofInt (← tooLate.taiMinusUtc))
  let refined ← Label.j2000.later (← Scalar.microseconds (elapsed - guess))
  refined.taiMinusUtc

/-- How many seconds a scale is behind TT at an instant. -/
def behindTT (t : Instant K) (scale : TimeScale) : Except (Fault K) K :=
  scale.behindTT t.taiMinusUtc

/-- The label of an instant in a scale, to the microsecond. Whole seconds and the rest are added
in two steps, and both have to stay in range. -/
def toLabel (t : Instant K) (scale : TimeScale) : Except (Fault K) Label := do
  let (whole, rest) ← split (← t.behindTT scale)
  let label ← Label.j2000.later ((t.seconds - whole) * Label.perSecond)
  label.later (← Scalar.microseconds (t.fraction - rest))

/-- The Julian date of an instant in a scale. -/
def julianDate (t : Instant K) (scale : TimeScale) : Except (Fault K) K := do
  let behind ← t.behindTT scale
  let seconds := (← Scalar.ofInt t.seconds) - behind + t.fraction
  return Standards.julianJ2000 K + seconds / Standards.secondsPerDay K

/-- The text of an instant, its TAI label. -/
def text (t : Instant K) : Except (Fault K) String := do
  return (← t.toLabel .tai).text ++ " TAI"

/-- The epoch of GPS time. -/
def gpsEpoch : Except (Fault K) (Instant K) :=
  ofLabel (.midnight 1980 1 6) .gps

/-- The epoch of Galileo time. -/
def galileoEpoch : Except (Fault K) (Instant K) :=
  ofLabel (.midnight 1999 8 22) .gps

end Instant

end FrameKinematics
