/-!
# Padding

Texts filled up to a width.
-/

namespace FrameKinematics.Text

/-- A text with zeros in front up to a width. -/
def zeroFilled (width : Nat) (s : String) : String :=
  "".pushn '0' (width - s.length) ++ s

/-- A text with blanks in front up to a width. -/
def rightAligned (width : Nat) (s : String) : String :=
  "".pushn ' ' (width - s.length) ++ s

/-- A text with blanks behind up to a width. -/
def leftAligned (width : Nat) (s : String) : String :=
  s.pushn ' ' (width - s.length)

end FrameKinematics.Text
