import FrameKinematics.Logging.Record

/-!
# Loggers

Loggers have dotted names, and come to be when they are first used. A logger is below the closest
of the loggers there are that its name extends by a dot and more; of two dots side by side only
the second one counts. A logger without a level of its own uses the level of the closest one above
it that has one. A record that the level of its logger lets through goes to the handlers of the
logger and of all loggers above it, and each handler has a level of its own.
-/

namespace FrameKinematics

/-- Where a handler writes. -/
inductive LogTarget where
  | console
  | file
deriving DecidableEq, Repr

/-- A handler writes the records from a level on. -/
structure LogHandler where
  target : LogTarget
  level : Int
deriving DecidableEq, Repr

/-- A logger; level zero says that it has none of its own. -/
structure Logger where
  level : Int := 0
  handlers : List LogHandler := []

/-- The loggers that were used so far, by name. -/
structure Loggers where
  entries : List (String × Logger) := []

namespace Loggers

/-- The name of the logger above all others. -/
def rootName : String := "root"

/-- The level of the logger above all others. -/
def rootLevel : Int := LogLevel.warning.number

/-- The name under which a logger is kept; the empty one stands for the root. -/
def canonical (name : String) : String := if name = "" then rootName else name

/-- The logger of a name. -/
def logger (loggers : Loggers) (name : String) : Logger :=
  match loggers.entries.find? fun entry => entry.1 == canonical name with
  | some (_, found) => found
  | none => { level := if canonical name = rootName then rootLevel else 0 }

/-- Replaces the logger of a name. -/
def setLogger (loggers : Loggers) (name : String) (logger : Logger) : Loggers :=
  ⟨(canonical name, logger) :: loggers.entries.filter fun entry => entry.1 != canonical name⟩

/-- Replaces the level of a logger. -/
def setLevel (loggers : Loggers) (name : String) (level : Int) : Loggers :=
  loggers.setLogger name { loggers.logger name with level := level }

/-- Whether a logger was used so far. -/
def isUsed (loggers : Loggers) (name : String) : Bool :=
  loggers.entries.any fun entry => entry.1 == canonical name

/-- Uses a logger, which comes to be if it is not there. -/
def use (loggers : Loggers) (name : String) : Loggers :=
  if loggers.isUsed name then loggers else loggers.setLogger name (loggers.logger name)

/-- Takes all levels and handlers away. The loggers stay. -/
def reset (loggers : Loggers) : Loggers :=
  ⟨loggers.entries.map fun entry => (entry.1, Loggers.logger {} entry.1)⟩

/-- The names that a name, given in reverse, extends, the longest first. The character before a
dot is never looked at as another dot. -/
def namesAbove : List Char → List String
  | [] => []
  | '.' :: c :: rest => String.ofList (c :: rest).reverse :: namesAbove rest
  | _ :: rest => namesAbove rest

/-- The logger that a logger is directly below, if there is one but the root. -/
def parent? (loggers : Loggers) (name : String) : Option String :=
  (namesAbove name.toList.reverse).find? loggers.isUsed

/-- A logger and those above it, the closest first, in at most `fuel` steps; the root is the last
one. -/
def chainWithin (loggers : Loggers) : Nat → String → List String
  | 0, _ => [rootName]
  | fuel + 1, name =>
    if canonical name = rootName then [rootName]
    else name :: (loggers.parent? name).elim [rootName] (loggers.chainWithin fuel)

/-- A logger and those above it. Each has a shorter name than the one before. -/
def chain (loggers : Loggers) (name : String) : List String :=
  loggers.chainWithin (name.length + 1) name

/-- The level that a logger uses. -/
def effectiveLevel (loggers : Loggers) (name : String) : Int :=
  (((loggers.chain name).map fun n => (loggers.logger n).level).find? (· ≠ 0)).getD 0

/-- Whether a logger lets records of a level through. -/
def isEnabled (loggers : Loggers) (name : String) (level : Int) : Bool :=
  decide (loggers.effectiveLevel name ≤ level)

/-- All handlers that get the records of a logger. -/
def handlersFor (loggers : Loggers) (name : String) : List LogHandler :=
  (loggers.chain name).flatMap fun n => (loggers.logger n).handlers

/-- The targets on which a record is written, in order. -/
def targets (loggers : Loggers) (name : String) (level : Int) : List LogTarget :=
  if loggers.isEnabled name level then
    ((loggers.handlersFor name).filter fun h => decide (h.level ≤ level)).map LogHandler.target
  else []

end Loggers

namespace LogTarget

/-- How a target shows the name of a level. -/
def shownLevel (target : LogTarget) (levelName : String) : String :=
  match target with
  | console => LogRecord.coloured levelName
  | file => levelName

/-- The number of characters of the time on a target: a console shows no day. -/
def timeLength : LogTarget → Nat
  | console => 8
  | file => 19

end LogTarget

end FrameKinematics
