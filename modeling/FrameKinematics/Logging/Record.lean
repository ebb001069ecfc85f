import FrameKinematics.Logging.Level
import FrameKinematics.Text.Template

/-!
# Log records

A record names its logger, its level and what happened: a template with values for its places. On
a console the name of the level is coloured.
-/

namespace FrameKinematics

/-- A log record. Its parts are shown as they come. -/
structure LogRecord where
  logger : Document Float
  level : Document Float
  template : Document Float
  values : List (Document Float) := []

namespace LogRecord

/-- The name of the level of a record. -/
def levelName (r : LogRecord) : Except (Fault Float) (Document Float) := LogLevel.nameOf r.level

/-- The message of a record. -/
def message (r : LogRecord) : Except (Fault Float) String :=
  Text.Template.message r.template.plainText r.values

/-- The control sequence of a colour number. -/
def colourCode (number : String) : String := "\x1b[" ++ number ++ "m"

/-- The colour of the name of a level. -/
def colour (levelName : String) : String :=
  match levelName with
  | "TRACE" => colourCode "36"
  | "DEBUG" => colourCode "34"
  | "INFO" => colourCode "32"
  | "WARNING" => colourCode "33"
  | "ERROR" => colourCode "31"
  | "CRITICAL" => colourCode "35"
  | _ => colourCode "0"

/-- The name of a level in its colour. -/
def coloured (levelName : String) : String := colour levelName ++ levelName ++ colourCode "0"

/-- The values of a record as a field: of a table that is the only value, the table. -/
def valuesField (r : LogRecord) : Text.Filling :=
  match r.values with
  | [.table (entry :: entries)] => .one (.table (entry :: entries))
  | values => .row values

/-- The fields of a record by name, where the name of the level and the message are given. Where a
record comes from is not known. -/
def fields (r : LogRecord) (levelName message : String) : List (String × Text.Filling) :=
  let text (s : String) : Text.Filling := .one (.text s)
  [("name", .one r.logger), ("msg", .one r.template), ("args", r.valuesField),
   ("levelname", text levelName), ("levelno", .one r.level), ("message", text message),
   ("pathname", text ""), ("filename", text ""), ("module", text ""), ("lineno", .one (.whole 0)),
   ("funcName", .one .null), ("exc_info", .one .null), ("exc_text", .one .null),
   ("stack_info", .one .null), ("threadName", text "MainThread"),
   ("processName", text "MainProcess")]

/-- The line of a log: time, logger, level and message. -/
def line (time logger levelName message : String) : String :=
  time ++ " - " ++ logger ++ " - " ++ levelName ++ " - " ++ message

end LogRecord

end FrameKinematics
