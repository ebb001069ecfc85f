/-!
# Lines

Where a text breaks into lines: at a line feed, at a carriage return, which may have a line feed
after it, at tabulations and page breaks in the vertical, at the separators of ASCII, and at the
line ends of Unicode. The end of the last line may be left out.
-/

namespace FrameKinematics.Text

/-- Whether a character ends a line. -/
def endsLine (c : Char) : Bool :=
  [0x0a, 0x0b, 0x0c, 0x0d, 0x1c, 0x1d, 0x1e, 0x85, 0x2028, 0x2029].contains c.toNat

/-- The lines of a text, where `line` are the characters of the first one so far in reverse. -/
def linesFrom (line : List Char) : List Char → List String
  | [] => if line.isEmpty then [] else [String.ofList line.reverse]
  | '\r' :: '\n' :: rest => String.ofList line.reverse :: linesFrom [] rest
  | c :: rest =>
    if endsLine c then String.ofList line.reverse :: linesFrom [] rest
    else linesFrom (c :: line) rest

/-- The lines of a text. -/
def lines (s : String) : List String := linesFrom [] s.toList

end FrameKinematics.Text
