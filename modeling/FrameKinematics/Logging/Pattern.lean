import FrameKinematics.Logging.Record

/-!
# Log patterns

A pattern says how a record is written: it is a template whose keys are the fields of the record.
A pattern has to name a field somewhere, and the empty one shows the message alone. Whether
the fields that it names exist is seen only when a record is written.
-/

namespace FrameKinematics

/-- A pattern for records. -/
structure LogPattern where
  pieces : List Text.Piece

namespace LogPattern

/-- Whether a character may be part of a word: a letter, a digit, or a line below. All characters
outside ASCII count. -/
def isWordCharacter (c : Char) : Bool := c.isAlphanum || c = '_' || 0x80 ≤ c.toNat

/-- What follows a number, which may also be a star, at the beginning of a text. -/
def afterNumber? : List Char → Option (List Char)
  | '*' :: rest => some rest
  | c :: rest => if c.isDigit then some (rest.dropWhile Char.isDigit) else none
  | [] => none

/-- Whether a text, after a key in brackets, goes on with flags, a width, a precision and a
letter. -/
def continuesField (cs : List Char) : Bool :=
  let cs := cs.dropWhile "#0+ -".toList.contains
  let cs := (afterNumber? cs).getD cs
  let letter? : List Char → Bool
    | letter :: _ => "diouxefgcrsa%".toList.contains letter.toLower
    | [] => false
  match cs with
  | '.' :: rest => (afterNumber? rest).any letter?
  | _ => letter? cs

/-- Whether a text begins with a place that has a word as its key. -/
def startsField : List Char → Bool
  | '%' :: '(' :: c :: rest =>
    isWordCharacter c &&
      match rest.dropWhile isWordCharacter with
      | ')' :: rest => continuesField rest
      | _ => false
  | _ => false

/-- Whether a text has such a place anywhere. -/
def namesField : List Char → Bool
  | [] => false
  | c :: rest => startsField (c :: rest) || namesField rest

/-- The pattern of a document, which has to be a text. Anything empty stands for the empty one. -/
def ofDocument (d : Document Float) : Except (Fault Float) LogPattern :=
  if !d.isYes then return ⟨Text.Template.pieces "%(message)s"⟩
  else
    match d with
    | .text text =>
      if namesField text.toList then return ⟨Text.Template.pieces text⟩ else throw .invalidPattern
    | _ => throw .wrongKind

/-- A record by a pattern, with its level in colour. The message is made first. A place without a
key stands for all fields that are documents. -/
def write (p : LogPattern) (r : LogRecord) : Except (Fault Float) String := do
  let levelName := LogRecord.coloured (← r.levelName).plainText
  let fields := r.fields levelName (← r.message)
  let find? (key : String) := (fields.find? fun field => field.1 == key).map Prod.snd
  let all := fields.filterMap fun
    | (key, .one d) => some (key, d)
    | (_, .row _) => none
  match Text.Template.fillByKey find? (some (.one (.table all))) p.pieces with
  | .error .unknownKey => throw .invalidPattern
  | written => written

end LogPattern

end FrameKinematics
