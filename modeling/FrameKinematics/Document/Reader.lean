import FrameKinematics.Document
import FrameKinematics.Text.Numeral

/-!
# Reading documents

Documents are written in JSON. A number without a point and an exponent is a whole number of any
size, and every other number the nearest double; three words name the doubles that are no finite
numbers. A table keeps its entries in the order in
which their keys first appear, with the last value given for a key.
-/

namespace FrameKinematics.Document.Reader

/-- Drops blanks between the parts of a document. -/
def skipBlanks (cs : List Char) : List Char :=
  cs.dropWhile fun c => c = ' ' || c = '\n' || c = '\t' || c = '\r'

/-- The value of a hexadecimal digit. -/
def hexValue (c : Char) : Nat :=
  if c.isDigit then c.toNat - '0'.toNat
  else if 'a' ≤ c && c ≤ 'f' then c.toNat - 'a'.toNat + 10
  else if 'A' ≤ c && c ≤ 'F' then c.toNat - 'A'.toNat + 10
  else 0

/-- The number of four hexadecimal digits. -/
def unit (a b c d : Char) : Nat :=
  ((hexValue a * 16 + hexValue b) * 16 + hexValue c) * 16 + hexValue d

/-- The character of a two-part escape. -/
def paired? (high low : Nat) : Option Char :=
  if 0xD800 ≤ high && high < 0xDC00 && 0xDC00 ≤ low && low < 0xE000 then
    some (Char.ofNat (0x10000 + (high - 0xD800) * 0x400 + (low - 0xDC00)))
  else none

/-- The character that an escape with one letter stands for. -/
def escaped : Char → Char
  | 'n' => '\n'
  | 't' => '\t'
  | 'r' => '\r'
  | 'b' => Char.ofNat 8
  | 'f' => Char.ofNat 12
  | c => c

/-- Reads a text after its opening quote, in at most `fuel` steps. -/
def text : Nat → List Char → List Char → Option (String × List Char)
  | 0, _, _ => none
  | fuel + 1, acc, cs =>
    match cs with
    | [] => none
    | '"' :: rest => some (String.ofList acc.reverse, rest)
    | '\\' :: 'u' :: a :: b :: c :: d :: rest =>
      match rest with
      | '\\' :: 'u' :: e :: f :: g :: h :: rest' =>
        match paired? (unit a b c d) (unit e f g h) with
        | some character => text fuel (character :: acc) rest'
        | none => text fuel (Char.ofNat (unit a b c d) :: acc) rest
      | _ => text fuel (Char.ofNat (unit a b c d) :: acc) rest
    | '\\' :: c :: rest => text fuel (escaped c :: acc) rest
    | c :: rest => text fuel (c :: acc) rest

/-- Reads a number. -/
def number (cs : List Char) : Document Float × List Char :=
  let (parts, rest) := Decimal.Parts.take cs
  (if parts.isWhole then .whole parts.toInt else .real parts.toScalar, rest)

mutual

/-- Reads a document, in at most `fuel` steps. -/
def value : Nat → List Char → Option (Document Float × List Char)
  | 0, _ => none
  | fuel + 1, cs =>
    match skipBlanks cs with
    | '\x7b' :: rest => entries fuel [] (skipBlanks rest)
    | '[' :: rest => items fuel [] (skipBlanks rest)
    | '"' :: rest => (text (rest.length + 1) [] rest).map fun (s, rest) => (.text s, rest)
    | 't' :: 'r' :: 'u' :: 'e' :: rest => some (.flag true, rest)
    | 'f' :: 'a' :: 'l' :: 's' :: 'e' :: rest => some (.flag false, rest)
    | 'n' :: 'u' :: 'l' :: 'l' :: rest => some (.null, rest)
    | 'N' :: 'a' :: 'N' :: rest => some (.real (0.0 / 0.0), rest)
    | 'I' :: 'n' :: 'f' :: 'i' :: 'n' :: 'i' :: 't' :: 'y' :: rest => some (.real (1.0 / 0.0), rest)
    | '-' :: 'I' :: 'n' :: 'f' :: 'i' :: 'n' :: 'i' :: 't' :: 'y' :: rest =>
      some (.real (-(1.0 / 0.0)), rest)
    | c :: rest => if c = '-' || c.isDigit then some (number (c :: rest)) else none
    | [] => none

/-- Reads the rest of a list after the items `acc`. -/
def items : Nat → List (Document Float) → List Char → Option (Document Float × List Char)
  | 0, _, _ => none
  | fuel + 1, acc, cs =>
    match cs with
    | ']' :: rest => some (.list acc.reverse, rest)
    | _ => do
      let (item, rest) ← value fuel cs
      match skipBlanks rest with
      | ',' :: rest => items fuel (item :: acc) (skipBlanks rest)
      | ']' :: rest => some (.list (item :: acc).reverse, rest)
      | _ => none

/-- Reads the rest of a table after the entries `acc`. -/
def entries : Nat → List (String × Document Float) → List Char →
    Option (Document Float × List Char)
  | 0, _, _ => none
  | fuel + 1, acc, cs =>
    match cs with
    | '\x7d' :: rest => some (.table acc, rest)
    | '"' :: rest => do
      let (key, rest) ← text (rest.length + 1) [] rest
      match skipBlanks rest with
      | ':' :: rest =>
        let (item, rest) ← value fuel rest
        match skipBlanks rest with
        | ',' :: rest => entries fuel (putEntry acc key item) (skipBlanks rest)
        | '\x7d' :: rest => some (.table (putEntry acc key item), rest)
        | _ => none
      | _ => none
    | _ => none

end

end FrameKinematics.Document.Reader

namespace FrameKinematics.Document

/-- The document that a text begins with, if it begins with one. Every step of the reader is
paid for by a character. -/
def read? (source : String) : Option (Document Float) :=
  (Reader.value (2 * source.length + 2) source.toList).map Prod.fst

end FrameKinematics.Document
