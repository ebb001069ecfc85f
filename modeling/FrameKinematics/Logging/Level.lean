import FrameKinematics.Document.Literal
import FrameKinematics.Document.Quantity
import FrameKinematics.Text.Capital

/-!
# Log levels

The levels of log records, from the most verbose one to the most severe one, with their numbers
and names.
-/

namespace FrameKinematics

/-- How severe a log record is. -/
inductive LogLevel where
  | trace
  | debug
  | info
  | warning
  | error
  | critical
deriving DecidableEq, Repr

namespace LogLevel

/-- All levels in order. -/
def all : List LogLevel := [trace, debug, info, warning, error, critical]

/-- The number of a level. -/
def number : LogLevel → Int
  | trace => 5
  | debug => 10
  | info => 20
  | warning => 30
  | error => 40
  | critical => 50

/-- The name of a level. -/
def name : LogLevel → String
  | trace => "TRACE"
  | debug => "DEBUG"
  | info => "INFO"
  | warning => "WARNING"
  | error => "ERROR"
  | critical => "CRITICAL"

/-- The level of a name, in small or capital letters. -/
def ofName? (given : String) : Option LogLevel :=
  all.find? fun level => level.name == Text.capitals given

/-- The level of a number, if it is one. -/
def ofNumber? (q : Quantity Float) : Option LogLevel :=
  all.find? fun level => q.same (.whole level.number)

/-- The number of a name exactly as it is written. Some levels have a second name, and zero says
that no level is set. -/
def numberOfName? (name : String) : Option Int :=
  match all.find? fun level => level.name == name with
  | some level => some level.number
  | none =>
    match name with
    | "WARN" => some warning.number
    | "FATAL" => some critical.number
    | "NOTSET" => some 0
    | _ => none

/-- What the level of a record is called, where the level may come as any document. A name is
called by its number, and what is neither is called by itself. -/
def nameOf (d : Document Float) : Except (Fault Float) (Document Float) :=
  let itself : Document Float := .text ("Level " ++ d.plainText)
  match d with
  | .list _ => throw .wrongKind
  | .table _ => throw .wrongKind
  | .text name => return (numberOfName? name).elim itself .whole
  | d =>
    match Quantity.ofDocument? d with
    | none => return itself
    | some q =>
      match ofNumber? q with
      | some level => return .text level.name
      | none => return if q.same (.whole 0) then .text "NOTSET" else itself

variable {K : Type}

/-- The level that a document names. -/
def ofDocument : Document K → Except (Fault K) LogLevel
  | .text name =>
    match ofName? name with
    | some level => return level
    | none => throw (.unknownLogLevel name)
  | _ => throw .noMember

end LogLevel

end FrameKinematics
