import FrameKinematics.Document.Literal
import FrameKinematics.Document.Quantity

/-!
# Templates

A template is a text with places for values. A place starts with a percent sign and ends with a
letter that says how the value is written; in between there may be a key in brackets, flags,
a least width and a precision. A star in the place of one of the last two takes it from the values. Two
percent signs stand for one.

Values are taken in order, one for each place, or looked up by the keys of the places. A value is
a document or a row of several.
-/

namespace FrameKinematics.Text

/-- A number in a place. -/
inductive Extent where
  | given (n : Nat)
  /-- The next value says it. -/
  | taken

/-- A place for a value in a template. -/
structure Place where
  key? : Option String
  flags : List Char
  width : Extent
  precision? : Option Extent
  letter : Char

/-- A place whose width and precision are known. -/
structure Layout where
  flags : List Char
  width : Nat
  precision? : Option Nat
  letter : Char

/-- A value for a place. -/
inductive Filling where
  | one (value : Document Float)
  | row (values : List (Document Float))

namespace Filling

/-- The literal of a value. Rows stand in round brackets, and a row of one keeps its comma. -/
def literal : Filling → String
  | one d => d.literal
  | row [d] => "(" ++ d.literal ++ ",)"
  | row ds => "(" ++ ", ".intercalate (Document.literals ds) ++ ")"

/-- A value as plain text: a text stands for itself. -/
def plainText : Filling → String
  | one d => d.plainText
  | row ds => (row ds).literal

/-- The number that a value is, if it is one. -/
def number? : Filling → Option (Quantity Float)
  | one d => Quantity.ofDocument? d
  | row _ => none

end Filling

/-- A piece of a template. -/
inductive Piece where
  | plain (c : Char)
  | place (p : Place)
  /-- A place that does not end. -/
  | broken

namespace Template

/-- The characters of a key, to its closing bracket, and the rest. Brackets in a key are paired. -/
def takeKey (depth : Nat) (key : List Char) : List Char → Option (String × List Char)
  | [] => none
  | ')' :: rest =>
    match depth with
    | 0 => some (String.ofList key.reverse, rest)
    | d + 1 => takeKey d (')' :: key) rest
  | '(' :: rest => takeKey (depth + 1) ('(' :: key) rest
  | c :: rest => takeKey depth (c :: key) rest

/-- The number that some digits make. -/
def digitsValue (digits : List Char) : Nat :=
  digits.foldl (fun n c => 10 * n + (c.toNat - '0'.toNat)) 0

/-- Reads a number of a place, zero if there are no digits, and gives the rest too. -/
def readExtent : List Char → Extent × List Char
  | '*' :: rest => (.taken, rest)
  | cs => (.given (digitsValue (cs.takeWhile Char.isDigit)), cs.dropWhile Char.isDigit)

/-- Reads a place after its percent sign, and gives the rest of the template too. -/
def readPlace (cs : List Char) : Option (Place × List Char) := do
  let (key?, cs) ← match cs with
    | '(' :: rest => (takeKey 0 [] rest).map fun (key, rest) => (some key, rest)
    | _ => some (none, cs)
  let isFlag (c : Char) := "#0- +".toList.contains c
  let flags := cs.takeWhile isFlag
  let cs := cs.dropWhile isFlag
  let (width, cs) := readExtent cs
  let (precision?, cs) := match cs with
    | '.' :: rest => (some (readExtent rest).1, (readExtent rest).2)
    | _ => (none, cs)
  let cs := match cs with
    | 'h' :: rest => rest
    | 'l' :: rest => rest
    | 'L' :: rest => rest
    | _ => cs
  match cs with
  | letter :: rest => some (⟨key?, flags, width, precision?, letter⟩, rest)
  | [] => none

/-- The pieces of a template, read in at most `fuel` steps. -/
def piecesWithin : Nat → List Char → List Piece
  | 0, _ => []
  | _, [] => []
  | fuel + 1, '%' :: '%' :: rest => .plain '%' :: piecesWithin fuel rest
  | fuel + 1, '%' :: rest =>
    match readPlace rest with
    | some (p, rest) => .place p :: piecesWithin fuel rest
    | none => [.broken]
  | fuel + 1, c :: rest => .plain c :: piecesWithin fuel rest

/-- The pieces of a template; each takes one character at least. -/
def pieces (template : String) : List Piece :=
  piecesWithin template.length template.toList

end Template

namespace Layout

/-- Whether a flag is set. -/
def has (p : Layout) (flag : Char) : Bool := p.flags.contains flag

/-- A text padded to the width of a layout. -/
def pad (p : Layout) (s : String) : String :=
  if p.has '-' then leftAligned p.width s else rightAligned p.width s

/-- A number with a sign before its digits. Zeros may fill the width between the two. -/
def padNumber (p : Layout) (negative : Bool) (start digits : String) : String :=
  let sign := if negative then "-" else if p.has '+' then "+" else if p.has ' ' then " " else ""
  let lead := sign ++ start
  if p.has '0' && !p.has '-' then lead ++ zeroFilled (p.width - lead.length) digits
  else p.pad (lead ++ digits)

/-- A text cut to the precision of a layout and padded. -/
def fillText (p : Layout) (s : String) : String :=
  match p.precision? with
  | some n => p.pad (String.ofList (s.toList.take n))
  | none => p.pad s

/-- A whole number in a base, with a mark before it if the layout asks for one. -/
def fillWhole (p : Layout) (base : Nat) (mark : String) (n : Int) : String :=
  let digits := String.ofList (Nat.toDigits base n.natAbs)
  p.padNumber (decide (n < 0)) (if p.has '#' then mark else "")
    (zeroFilled (p.precision?.getD 0) digits)

/-- A point that ends digits without a fraction, if it is to be kept. -/
def barePoint (places : Nat) (keepPoint : Bool) : String :=
  if places = 0 && keepPoint then "." else ""

/-- The digits of a positive double with some places after the point. -/
def fixedDigits (places : Nat) (keepPoint : Bool) (d : Dyadic) : String :=
  let scaled := toString (Decimal.scaledRound d.numerator d.denominator (-(places : Int)))
  let filled := zeroFilled (places + 1) scaled
  Decimal.pointed filled (filled.length - places) ++ barePoint places keepPoint

/-- The digits of a positive double with some places after the leading digit, and an exponent. -/
def scientificDigits (places : Nat) (keepPoint : Bool) (d : Dyadic) : String :=
  let (point, e) :=
    if d.mantissa = 0 then (0, 0) else Decimal.significant (places + 1) d.numerator d.denominator
  Decimal.pointed (zeroFilled (places + 1) (toString point)) 1 ++ barePoint places keepPoint ++
    Decimal.exponentText Decimal.plainStyle e

/-- Digits without the zeros at the end of their fraction. -/
def withoutZeros (digits : String) : String :=
  if digits.toList.contains '.' then
    let kept := digits.toList.reverse.dropWhile (· = '0')
    String.ofList (kept.dropWhile (· = '.')).reverse
  else digits

/-- The digits of a positive double with so many significant digits, in the notation that suits
its size. -/
def generalDigits (significant : Nat) (keepZeros : Bool) (d : Dyadic) : String :=
  let count := max significant 1
  let e : Int :=
    if d.mantissa = 0 then 0 else (Decimal.significant count d.numerator d.denominator).2
  if -4 ≤ e ∧ e < count then
    let digits := fixedDigits ((count : Int) - 1 - e).toNat keepZeros d
    if keepZeros then digits else withoutZeros digits
  else
    let digits := scientificDigits (count - 1) keepZeros d
    if keepZeros then digits
    else
      let mantissa := digits.toList.takeWhile (· ≠ 'e')
      withoutZeros (String.ofList mantissa) ++ String.ofList (digits.toList.dropWhile (· ≠ 'e'))

/-- A double in one of the notations of the letters e, f and g. -/
def fillReal (p : Layout) (x : Float) : String :=
  let precision := p.precision?.getD 6
  match Binary64.read x with
  | .notANumber => p.padNumber false "" "nan"
  | .infinite negative => p.padNumber negative "" "inf"
  | .finite d =>
    p.padNumber d.negative "" <|
      match p.letter.toLower with
      | 'f' => fixedDigits precision (p.has '#') d
      | 'e' => scientificDigits precision (p.has '#') d
      | _ => generalDigits precision (p.has '#') d

/-- Escapes the characters of a text that are not in ASCII. -/
def asciiOnly (s : String) : String :=
  String.join <| s.toList.map fun c =>
    if c.toNat < 0x80 then String.singleton c
    else if c.toNat < 0x100 then "\\x" ++ hexDigits 2 c.toNat
    else if c.toNat < 0x10000 then "\\u" ++ hexDigits 4 c.toNat
    else "\\U" ++ hexDigits 8 c.toNat

/-- Fills a value into a layout. -/
def fill (p : Layout) (value : Filling) : Except (Fault Float) String :=
  match p.letter with
  | 's' => return p.fillText value.plainText
  | 'r' => return p.fillText value.literal
  | 'a' => return p.fillText (asciiOnly value.literal)
  | 'd' => decimal
  | 'i' => decimal
  | 'u' => decimal
  | 'x' => do return p.fillWhole 16 "0x" (← whole)
  | 'X' => do return (p.fillWhole 16 "0x" (← whole)).map Char.toUpper
  | 'o' => do return p.fillWhole 8 "0o" (← whole)
  | 'c' => character
  | letter =>
    if "eEfFgG".toList.contains letter then do
      match value.number? with
      | some q =>
        let text := p.fillReal (← q.toScalar)
        return if letter.isUpper then text.map Char.toUpper else text
      | none => throw .wrongKind
    else throw .invalidPattern
where
  /-- The whole number that a value is. -/
  whole : Except (Fault Float) Int :=
    match value.number?.bind Quantity.whole? with
    | some n => return n
    | none => throw .wrongKind
  /-- The value as a whole number, toward zero. -/
  decimal : Except (Fault Float) String := do
    match value with
    | .one (.real x) => return p.fillWhole 10 "" (← Scalar.truncated x)
    | _ => return p.fillWhole 10 "" (← whole)
  /-- The value as one character. -/
  character : Except (Fault Float) String :=
    match value with
    | .one (.text s) => if s.length = 1 then return p.pad s else throw .wrongKind
    | .one (.real _) => throw .wrongKind
    | _ => do
      let n ← whole
      if 0 ≤ n ∧ n < 0x110000 then return p.pad (String.singleton (Char.ofNat n.toNat))
      else throw .tooLarge

end Layout

namespace Place

/-- Numbers of places stay below this bound. -/
def extentBound : Nat := Nat.pow 2 31

/-- Takes a number of a place from the values if it is not given. -/
def takeExtent (extent : Extent) (values : List (Document Float)) :
    Except (Fault Float) (Int × List (Document Float)) :=
  match extent, values with
  | .given n, _ => if n < extentBound then return (n, values) else throw .invalidPattern
  | .taken, value :: rest =>
    match (Quantity.ofDocument? value).bind Quantity.whole? with
    | some n => if n.natAbs < extentBound then return (n, rest) else throw .tooLarge
    | none => throw .wrongKind
  | .taken, [] => throw .wrongKind

/-- The layout of a place, with the values that it leaves. A negative width aligns to the left,
and a negative precision counts as none at all. -/
def layout (p : Place) (values : List (Document Float)) :
    Except (Fault Float) (Layout × List (Document Float)) := do
  let (width, values) ← takeExtent p.width values
  let flags := if width < 0 then '-' :: p.flags else p.flags
  match p.precision? with
  | none => return (⟨flags, width.natAbs, none, p.letter⟩, values)
  | some precision =>
    let (precision, values) ← takeExtent precision values
    return (⟨flags, width.natAbs, some precision.toNat, p.letter⟩, values)

end Place

namespace Template

/-- Fills the places of a template with values in order. There has to be one for each place. -/
def fillInOrder : List Piece → List (Document Float) → Except (Fault Float) String
  | [], [] => return ""
  | [], _ :: _ => throw .wrongKind
  | .plain c :: rest, values => do return String.singleton c ++ (← fillInOrder rest values)
  | .broken :: _, _ => throw .invalidPattern
  | .place p :: rest, values =>
    if p.key?.isSome then throw .wrongKind
    else do
      let (l, values) ← p.layout values
      match values with
      | value :: values => return (← l.fill (.one value)) ++ (← fillInOrder rest values)
      | [] => throw .wrongKind

/-- Fills the places of a template with values looked up by their keys. The first place takes
`whole?`, if there is one, when it has no key; no other place may lack a key. -/
def fillByKey (find? : String → Option Filling) :
    (whole? : Option Filling) → List Piece → Except (Fault Float) String
  | _, [] => return ""
  | whole?, .plain c :: rest => do return String.singleton c ++ (← fillByKey find? whole? rest)
  | _, .broken :: _ => throw .invalidPattern
  | whole?, .place p :: rest =>
    match p.key?.map find? with
    | none =>
      match whole? with
      | none => throw .wrongKind
      | some value => do
        return (← (← p.layout []).1.fill value) ++ (← fillByKey find? none rest)
    | some none => throw .unknownKey
    | some (some value) => do
      return (← (← p.layout []).1.fill value) ++ (← fillByKey find? none rest)

/-- Fills the places of a template from the entries of a table. -/
def fillFromTable (entries : List (String × Document Float)) (pieces : List Piece) :
    Except (Fault Float) String :=
  fillByKey (fun key => (Document.entry? entries key).map .one) (some (.one (.table entries))) pieces

/-- A message with its values. Without values a message is left as it is. Of a table that is the
only value the entries are looked up by their keys. -/
def message (template : String) (values : List (Document Float)) : Except (Fault Float) String :=
  match values with
  | [] => return template
  | [.table (entry :: entries)] => fillFromTable (entry :: entries) (pieces template)
  | values => fillInOrder (pieces template) values

end Template

end FrameKinematics.Text
