import FrameKinematics.Decimal.Shortest
import FrameKinematics.Document
import FrameKinematics.Text.Quoted

/-!
# Literals

How messages show the value of a setting: texts are quoted, lists and tables bracketed, flags
and nothing have capital initials, and a scalar always shows a point, an exponent or a word.
-/

namespace FrameKinematics

/-- The text of a quantity over doubles. -/
def Quantity.text : Quantity Float → String
  | whole n => toString n
  | flag b => if b then "True" else "False"
  | real x => Decimal.numberText x

namespace Document

mutual

/-- The literal of a document. -/
def literal : Document Float → String
  | .null => "None"
  | .flag b => (Quantity.flag b).text
  | .whole n => (Quantity.whole n).text
  | .real x => Decimal.numberText x
  | .text s => Text.quoted s
  | .list items => "[" ++ ", ".intercalate (literals items) ++ "]"
  | .table entries => "\x7b" ++ ", ".intercalate (entryLiterals entries) ++ "\x7d"

/-- The literals of several documents. -/
def literals : List (Document Float) → List String
  | [] => []
  | item :: items => literal item :: literals items

/-- The literals of the entries of a table, with their keys. -/
def entryLiterals : List (String × Document Float) → List String
  | [] => []
  | (key, value) :: entries => (Text.quoted key ++ ": " ++ literal value) :: entryLiterals entries

end

/-- A document as plain text: a text stands for itself. -/
def plainText : Document Float → String
  | .text s => s
  | d => d.literal

end Document

end FrameKinematics
