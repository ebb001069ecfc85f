/-!
# Blanks

The characters that count as blanks around a number in a text: the six of ASCII and the spaces
and line ends of Unicode 14 outside ASCII.
-/

namespace FrameKinematics.Text

/-- The code points of the blanks outside ASCII. -/
def wideBlanks : List Nat :=
  [0x85, 0xa0, 0x1680, 0x2000, 0x2001, 0x2002, 0x2003, 0x2004, 0x2005, 0x2006, 0x2007, 0x2008,
   0x2009, 0x200a, 0x2028, 0x2029, 0x202f, 0x205f, 0x3000]

/-- Whether a character is a blank. -/
def isBlank (c : Char) : Bool :=
  c = ' ' || (9 ≤ c.toNat && c.toNat ≤ 13) || wideBlanks.contains c.toNat

/-- The characters of a text without the blanks at both of its ends. -/
def trimmed (s : String) : List Char :=
  ((s.toList.dropWhile isBlank).reverse.dropWhile isBlank).reverse

end FrameKinematics.Text
