import FrameKinematics.Calendar.Label
import FrameKinematics.Standards

/-!
# Leap seconds

UTC falls behind TAI by one more second at each entry of a table that starts at the GPS epoch.
-/

namespace FrameKinematics.LeapSeconds

/-- The UTC labels from which UTC is a second further behind TAI, the latest first. The last one
is the GPS epoch, from which the difference is known. -/
def table : List Label :=
  [.midnight 2017 1 1, .midnight 2015 7 1, .midnight 2012 7 1, .midnight 2009 1 1,
   .midnight 2006 1 1, .midnight 1999 1 1, .midnight 1997 7 1, .midnight 1996 1 1,
   .midnight 1994 7 1, .midnight 1993 7 1, .midnight 1992 7 1, .midnight 1991 1 1,
   .midnight 1990 1 1, .midnight 1988 1 1, .midnight 1985 7 1, .midnight 1983 7 1,
   .midnight 1982 7 1, .midnight 1981 7 1, .midnight 1980 1 6]

/-- TAI minus UTC in seconds at a UTC label: the value at the GPS epoch, and one more for each
later entry of the table that the label has reached. Before the GPS epoch there is none. -/
def taiMinusUtc? (utc : Label) : Option Int :=
  match table.countP fun entry => entry.micros ≤ utc.micros with
  | 0 => none
  | reached + 1 => some (Standards.taiMinusUtcAtGpsEpoch + reached)

end FrameKinematics.LeapSeconds
