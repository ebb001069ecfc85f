import FrameKinematics.Scalar
import FrameKinematics.Text.Blank
import FrameKinematics.Text.Digit

/-!
# Numerals

Numbers that are written as texts. A numeral may have blanks around it and a sign in front, its
digits may be those of any script, and single low lines may stand between them. A decimal numeral
may also have a fraction and an exponent, or be one of the words for the scalars that are no
finite numbers, in small or capital letters.
-/

namespace FrameKinematics

namespace Decimal

/-- Exponents beyond this bound are cut back to it, which no double can tell. -/
def exponentBound : Nat := 100000

/-- The scalar nearest to `digits * 10 ^ exponent`. -/
def nearest {K : Type} [OfScientific K] (digits : Nat) (exponent : Int) : K :=
  OfScientific.ofScientific digits (decide (exponent < 0)) (min exponent.natAbs exponentBound)

/-- The natural number that some ASCII digits make. -/
def natural (digits : List Char) : Nat :=
  digits.foldl (fun n c => 10 * n + (c.toNat - '0'.toNat)) 0

/-- Takes a sign from the front: whether it is a minus sign, and the rest. -/
def takeSign : List Char → Bool × List Char
  | '-' :: rest => (true, rest)
  | '+' :: rest => (false, rest)
  | cs => (false, cs)

/-- Takes the part of a number from its front that follows a mark. -/
def after? (mark : Char → Bool) : List Char → Option (List Char)
  | c :: rest => if mark c then some rest else none
  | [] => none

/-- A decimal number in parts: the digits before and after its point, if it has one, and the sign
and the digits of its exponent, if it has one. -/
structure Parts where
  negative : Bool
  whole : List Char
  fraction? : Option (List Char)
  exponent? : Option (Bool × List Char)

namespace Parts

/-- Takes a number from the front of a text, and gives the rest too. -/
def take (cs : List Char) : Parts × List Char :=
  let (negative, cs) := takeSign cs
  let whole := cs.takeWhile Char.isDigit
  let cs := cs.dropWhile Char.isDigit
  let (fraction?, cs) :=
    match after? (· = '.') cs with
    | some rest => (some (rest.takeWhile Char.isDigit), rest.dropWhile Char.isDigit)
    | none => (none, cs)
  let (exponent?, cs) :=
    match after? (fun c => c = 'e' || c = 'E') cs with
    | some rest =>
      let (down, rest) := takeSign rest
      (some (down, rest.takeWhile Char.isDigit), rest.dropWhile Char.isDigit)
    | none => (none, cs)
  (⟨negative, whole, fraction?, exponent?⟩, cs)

/-- Whether a number has neither a point nor an exponent. -/
def isWhole (p : Parts) : Bool := p.fraction?.isNone && p.exponent?.isNone

/-- Whether a number has digits, and so has its exponent. -/
def isComplete (p : Parts) : Bool :=
  !(p.whole ++ p.fraction?.getD []).isEmpty && p.exponent?.all fun e => !e.2.isEmpty

/-- The whole number before the point. -/
def toInt (p : Parts) : Int :=
  let n : Int := natural p.whole
  if p.negative then -n else n

/-- The scalar nearest to a number. -/
def toScalar {K : Type} [OfScientific K] [Neg K] (p : Parts) : K :=
  let fraction := p.fraction?.getD []
  let exponent : Int :=
    match p.exponent? with
    | some (true, digits) => -(natural digits : Int)
    | some (false, digits) => natural digits
    | none => 0
  let magnitude : K := nearest (natural (p.whole ++ fraction)) (exponent - fraction.length)
  if p.negative then -magnitude else magnitude

end Parts

end Decimal

namespace Text

/-- Drops the low lines of a number after the character `previous`. Each has to stand between two
digits. -/
def withoutLowLines (previous : Char) : List Char → Option (List Char)
  | [] => if previous = '_' then none else some []
  | c :: rest =>
    if c = '_' then if previous.isDigit then withoutLowLines c rest else none
    else if previous = '_' && !c.isDigit then none
    else (withoutLowLines c rest).map (c :: ·)

/-- The characters of a numeral without blanks and low lines, and with ASCII digits. -/
def numeral? (s : String) : Option (List Char) :=
  withoutLowLines ' ' ((trimmed s).map plainDigit)

/-- The number of digits up to which a whole number is read from a text. -/
def wholeDigits : Nat := 4300

/-- The whole number that a text writes. -/
def whole? (s : String) : Option Int := do
  let (parts, rest) := Decimal.Parts.take (← numeral? s)
  if rest.isEmpty && parts.isWhole && parts.isComplete && parts.whole.length ≤ wholeDigits then
    some parts.toInt
  else none

/-- The scalar of a word, if it is one for a scalar that is no finite number. -/
def wordScalar? {K : Type} [Scalar K] (word : List Char) : Option K :=
  match String.ofList (word.map Char.toLower) with
  | "nan" => some (0.0 / 0.0)
  | "inf" => some (1.0 / 0.0)
  | "infinity" => some (1.0 / 0.0)
  | _ => none

/-- The scalar that a text writes. -/
def scalar? {K : Type} [Scalar K] (s : String) : Option K := do
  let cs ← numeral? s
  let (negative, word) := Decimal.takeSign cs
  match wordScalar? word with
  | some x => return if negative then -x else x
  | none =>
    let (parts, rest) := Decimal.Parts.take cs
    if rest.isEmpty && parts.isComplete then some parts.toScalar else none

end Text

end FrameKinematics
