import FrameKinematics.Text.Padding
import FrameKinematics.Text.Printable

/-!
# Quoted text

A text inside a message stands between quotes: single ones, or double ones when it holds a
single quote and no double quote. The quote in use, the backslash and all characters that are
not printable are escaped.
-/

namespace FrameKinematics.Text

/-- The lower-case hexadecimal digits of a number, with zeros in front up to a width. -/
def hexDigits (width n : Nat) : String :=
  zeroFilled width (String.ofList (Nat.toDigits 16 n))

/-- How one character is written between the quotes `quote`. -/
def escaped (quote c : Char) : String :=
  if c = quote ∨ c = '\\' then String.ofList ['\\', c]
  else if c = '\n' then "\\n"
  else if c = '\r' then "\\r"
  else if c = '\t' then "\\t"
  else if isPrintable c then String.singleton c
  else if c.toNat < 0x100 then "\\x" ++ hexDigits 2 c.toNat
  else if c.toNat < 0x10000 then "\\u" ++ hexDigits 4 c.toNat
  else "\\U" ++ hexDigits 8 c.toNat

/-- A text between quotes. -/
def quoted (s : String) : String :=
  let characters := s.toList
  let quote := if characters.contains '\'' && !characters.contains '"' then '"' else '\''
  String.singleton quote ++ String.join (characters.map (escaped quote)) ++ String.singleton quote

end FrameKinematics.Text
