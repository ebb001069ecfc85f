import FrameKinematics.Text.Padding

/-!
# Calendar labels

A label of the proleptic Gregorian calendar with a resolution of a microsecond. It is kept as
the number of microseconds since midnight of the first of January of year one, so order and
arithmetic are those of the integers; its fields are computed from that number. Labels of the
years 1 to 9999 are in range.
-/

namespace FrameKinematics

/-- A calendar label: microseconds since 0001-01-01T00:00:00. -/
@[ext]
structure Label where
  micros : Int
deriving DecidableEq, Repr

namespace Label

/-- Whether a year has a twenty-ninth of February. -/
def isLeap (year : Nat) : Bool :=
  year % 4 == 0 && (year % 100 != 0 || year % 400 == 0)

/-- The lengths of the months of a year in order. -/
def monthLengths (year : Nat) : List Nat :=
  [31, if isLeap year then 29 else 28, 31, 30, 31, 30, 31, 31, 30, 31, 30, 31]

/-- The number of days from the beginning of year one to the beginning of a year. -/
def daysBeforeYear (year : Nat) : Nat :=
  let past := year - 1
  past * 365 + past / 4 - past / 100 + past / 400

/-- Microseconds in a second. -/
def perSecond : Int := 1000000

/-- Microseconds in a day. -/
def perDay : Int := 86400 * perSecond

/-- A calendar date and a time of day. -/
structure Fields where
  year : Nat
  month : Nat
  day : Nat
  hour : Nat := 0
  minute : Nat := 0
  second : Nat := 0
  micro : Nat := 0
deriving DecidableEq, Repr

/-- Whether the fields name a day of the years 1 to 9999 and a time of that day. -/
def Fields.valid (f : Fields) : Bool :=
  1 ≤ f.year && f.year ≤ 9999 && 1 ≤ f.month && f.month ≤ 12 && 1 ≤ f.day &&
    f.day ≤ (monthLengths f.year).getD (f.month - 1) 0 &&
    f.hour < 24 && f.minute < 60 && f.second < 60 && f.micro < 1000000

/-- The label that valid fields name. -/
def ofFields (f : Fields) : Label :=
  let inYear := ((monthLengths f.year).take (f.month - 1)).foldl (· + ·) 0 + (f.day - 1)
  let days := daysBeforeYear f.year + inYear
  let seconds := ((days * 24 + f.hour) * 60 + f.minute) * 60 + f.second
  ⟨(seconds : Int) * perSecond + f.micro⟩

/-- Midnight of a day. -/
def midnight (year month day : Nat) : Label :=
  ofFields ⟨year, month, day, 0, 0, 0, 0⟩

/-- Whether a label lies in the years 1 to 9999. -/
def inRange (l : Label) : Bool :=
  0 ≤ l.micros && l.micros < (daysBeforeYear 10000 : Int) * perDay

/-- The year of a day, which is counted from the beginning of year one, and the days of that
year before it. Four hundred years, a century, four years and a year are taken out in turn;
the last day of a leap period would start a fifth century or year and is kept in the fourth. -/
def yearOfDay (day : Nat) : Nat × Nat :=
  let cycles := day / 146097
  let inCycle := day % 146097
  let centuries := min (inCycle / 36524) 3
  let inCentury := inCycle - centuries * 36524
  let fours := inCentury / 1461
  let inFour := inCentury % 1461
  let years := min (inFour / 365) 3
  (cycles * 400 + centuries * 100 + fours * 4 + years + 1, inFour - years * 365)

/-- The month, from one, and the day of the month, from one, of a day of the year, from zero. -/
def monthOfDay (month : Nat) : List Nat → Nat → Nat × Nat
  | [], day => (month, day + 1)
  | length :: lengths, day =>
    if day < length then (month, day + 1) else monthOfDay (month + 1) lengths (day - length)

/-- The fields of a label that is not before year one. -/
def fields (l : Label) : Fields :=
  let micro := (l.micros % perSecond).toNat
  let seconds := (l.micros / perSecond).toNat
  let (year, inYear) := yearOfDay (seconds / 86400)
  let (month, day) := monthOfDay 1 (monthLengths year) inYear
  ⟨year, month, day, seconds / 3600 % 24, seconds / 60 % 60, seconds % 60, micro⟩

/-- A label later by some microseconds, if it is in range. -/
def add? (l : Label) (micros : Int) : Option Label :=
  let later : Label := ⟨l.micros + micros⟩
  if later.inRange then some later else none

/-- The text of a label: date and time with a T between them, and the microseconds if there
are any. -/
def text (l : Label) : String :=
  let f := l.fields
  let digits (width n : Nat) := Text.zeroFilled width (toString n)
  digits 4 f.year ++ "-" ++ digits 2 f.month ++ "-" ++ digits 2 f.day ++ "T" ++
    digits 2 f.hour ++ ":" ++ digits 2 f.minute ++ ":" ++ digits 2 f.second ++
    (if f.micro = 0 then "" else "." ++ digits 6 f.micro)

end Label

end FrameKinematics
