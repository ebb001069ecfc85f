import FrameKinematics.Logging.Setup
import FrameKinematics.Text.Lines

/-!
# Log output

What loggers write: each record on each of its targets, with its time in front. A record whose
message does not fit its values is not written. The time is not known here, so it is taken off
again when the output is read: from each line, since a line does not say whether a record begins
there.
-/

namespace FrameKinematics

/-- What was written so far. -/
structure LogOutput where
  console : String := ""
  file : String := ""

/-- A request to log something at a level. -/
structure LogRequest where
  logger : String
  level : LogLevel
  template : Document Float
  values : List (Document Float) := []

namespace LogOutput

/-- Writes a line on a target. -/
def write (out : LogOutput) (name : String) (level : LogLevel) (message : String)
    (target : LogTarget) : LogOutput :=
  let time := "".pushn '0' target.timeLength
  let line := LogRecord.line time name (target.shownLevel level.name) message ++ "\n"
  match target with
  | .console => { out with console := out.console ++ line }
  | .file => { out with file := out.file ++ line }

/-- Logs a message with its values under a logger. -/
def log (loggers : Loggers) (out : LogOutput) (r : LogRequest) : LogOutput :=
  let name := Loggers.canonical r.logger
  let record : LogRecord := ⟨.text name, .whole r.level.number, r.template, r.values⟩
  match record.message with
  | .ok message =>
    (loggers.targets r.logger r.level.number).foldl (fun out => out.write name r.level message) out
  | .error _ => out

/-- Carries out requests one after the other, each of which uses its logger. -/
def logAll (loggers : Loggers) (requests : List LogRequest) : Loggers × LogOutput :=
  requests.foldl (fun (loggers, out) r =>
    let loggers := loggers.use r.logger
    (loggers, log loggers out r)) (loggers, {})

/-- The lines on a target without their time. -/
def lines (out : LogOutput) (target : LogTarget) : List String :=
  let text := match target with
    | .console => out.console
    | .file => out.file
  (Text.lines text).map fun line => String.ofList (line.toList.drop target.timeLength)

end LogOutput

end FrameKinematics
