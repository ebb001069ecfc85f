/-!
# Capital letters

Names of settings are compared in capital letters. All such names are written in ASCII, so only
the letters whose capital is an ASCII letter count: the twenty-six small ones, the dotless i
and the long s. Every other character stands for itself, and no name contains it.
-/

namespace FrameKinematics.Text

/-- The ASCII capital of a letter that has one. -/
def capital (c : Char) : Char :=
  if c = 'ı' then 'I' else if c = 'ſ' then 'S' else c.toUpper

/-- A text with each letter in its ASCII capital. -/
def capitals (s : String) : String :=
  String.ofList (s.toList.map capital)

end FrameKinematics.Text
