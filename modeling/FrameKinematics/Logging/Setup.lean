import FrameKinematics.Logging.Loggers

/-!
# Setting up logging

Handlers are installed on one logger at a time; those it had before are dropped. A configuration
collects a default level, the targets and the levels of single modules, and then sets up the
logger of the whole library. Levels of modules take effect as they are read. What a setup did
before it failed stays done, also when the log file, which comes last, cannot be opened.
-/

namespace FrameKinematics

/-- The name of the logger of the whole library. -/
def libraryLogger : String := "pyframes"

variable {K : Type}

/-- The settings of a configuration that are not levels of modules. -/
def settingNames : List String := ["default_level", "log_file", "console"]

/-- Whether a document that is no table contains the name of a setting. -/
def containsSetting : Document K → Bool
  | .list items => items.any fun
    | .text name => settingNames.contains name
    | _ => false
  | .text s => settingNames.any fun name => (s.splitOn name).length ≠ 1
  | _ => false

/-- The entries of a table. A list or a text is searched for the names of settings first, and has
no entry under a name that it contains. -/
def entriesOf : Document K → Except (Fault K) (List (String × Document K))
  | .table entries => return entries
  | .list items => if containsSetting (.list items) then throw .wrongKind else throw .noMember
  | .text s => if containsSetting (K := K) (.text s) then throw .wrongKind else throw .noMember
  | _ => throw .wrongKind

/-- Sets the level of a logger and drops its handlers. It gets one for the console if that is
wanted. -/
def Loggers.install (loggers : Loggers) (name : String) (level : LogLevel) (console : Bool) :
    Loggers :=
  loggers.setLogger name
    ⟨level.number, if console then [⟨.console, level.number⟩] else []⟩

/-- Replaces the handlers of a logger. -/
def Loggers.setHandlers (loggers : Loggers) (name : String) (handlers : List LogHandler) :
    Loggers :=
  loggers.setLogger name { loggers.logger name with handlers := handlers }

/-- Adds a handler for a file to those of a logger. -/
def Loggers.addFile (loggers : Loggers) (name : String) (level : LogLevel) : Loggers :=
  loggers.setHandlers name ((loggers.logger name).handlers ++ [⟨.file, level.number⟩])

/-- Lets all handlers of a logger write the records from a level on. -/
def Loggers.setHandlerLevels (loggers : Loggers) (name : String) (level : Int) : Loggers :=
  loggers.setHandlers name ((loggers.logger name).handlers.map ({ · with level := level }))

/-- A logging configuration. -/
structure LogConfig (K : Type) where
  moduleLevels : List (String × Document K) := []
  defaultLevel : Document K := .text LogLevel.info.name
  file : Document K := .null
  console : Document K := .flag true

/-- A logging configuration together with the loggers that it works on. -/
structure LogSession (K : Type) where
  config : LogConfig K := {}
  loggers : Loggers := {}

/-- A computation on a logging configuration. What it changed before a failure stays changed. -/
abbrev LogRun (K : Type) := ExceptT (Fault K) (StateM (LogSession K))

/-- Changes the loggers. -/
def LogRun.changeLoggers (change : Loggers → Loggers) : LogRun K Unit :=
  modify fun s => { s with loggers := change s.loggers }

/-- Opens a log file, where `opens` says which paths can be opened. -/
def openFile (opens : String → Bool) : Document K → Except (Fault K) Unit
  | .text path => if opens path then return else throw (.fileNotOpened path)
  | _ => throw .wrongKind

/-- The arguments of one installation. -/
structure LoggerSetup (K : Type) where
  name : Document K := .text libraryLogger
  level : Document K := .text LogLevel.info.name
  file : Document K := .null
  console : Document K := .flag true

namespace LoggerSetup

/-- The arguments that the entries of a table give; no others are known. -/
def ofEntries : List (String × Document K) → Except (Fault K) (LoggerSetup K)
  | [] => return {}
  | (key, value) :: entries => do
    let setup ← ofEntries entries
    match key with
    | "name" => return { setup with name := value }
    | "level" => return { setup with level := value }
    | "log_file" => return { setup with file := value }
    | "console" => return { setup with console := value }
    | _ => throw .wrongKind

variable [Scalar K]

/-- The name of the logger of an installation. Where none is given it is the root. -/
def loggerName (setup : LoggerSetup K) : Except (Fault K) String :=
  match setup.name with
  | .text name => return name
  | other => if other.isYes then throw .wrongKind else return ""

/-- Carries out an installation. The level is looked up before the logger, and the log file is
opened when the logger has its level and its other handler. -/
def run (opens : String → Bool) (setup : LoggerSetup K) : LogRun K Unit := do
  let level ← ofExcept (LogLevel.ofDocument setup.level)
  let name ← ofExcept setup.loggerName
  LogRun.changeLoggers fun loggers => loggers.install name level setup.console.isYes
  if setup.file.isYes then
    ofExcept (openFile opens setup.file)
    LogRun.changeLoggers fun loggers => loggers.addFile name level

end LoggerSetup

/-- The installation on the library's logger that a configuration asks for. -/
def LogConfig.librarySetup (config : LogConfig K) : LoggerSetup K :=
  ⟨.text libraryLogger, config.defaultLevel, config.file, config.console⟩

namespace LogSession

/-- Puts the level of a module into the configuration; a module that is there keeps its place. -/
def withModuleLevel (s : LogSession K) (name : String) (level : Document K) : LogSession K :=
  { s with config :=
      { s.config with moduleLevels := Document.putEntry s.config.moduleLevels name level } }

/-- Sets the level of a module. The configuration notes it, and the logger of the module comes to
be, before the level is looked up. -/
def setModuleLevel (name : String) (level : Document K) : LogRun K Unit := do
  modify (·.withModuleLevel name level)
  LogRun.changeLoggers fun loggers => loggers.use name
  let found ← ofExcept (LogLevel.ofDocument level)
  LogRun.changeLoggers fun loggers => loggers.setLevel name found.number

/-- Takes over the settings of the entries of a table. -/
def configure (entries : List (String × Document K)) : LogRun K Unit := do
  if let some level := Document.entry? entries "default_level" then
    modify fun s => { s with config := { s.config with defaultLevel := level } }
  if let some file := Document.entry? entries "log_file" then
    modify fun s => { s with config := { s.config with file := file } }
  if let some console := Document.entry? entries "console" then
    modify fun s => { s with config := { s.config with console := console } }
  match (Document.entry? entries "module_levels").getD (.table []) with
  | .table levels => levels.forM fun (name, level) => setModuleLevel name level
  | _ => throw .noMember

variable [Scalar K] (opens : String → Bool)

/-- Installs handlers on the logger of the library. They write records from the lowest level on
that the configuration names. -/
def setUpAll : LogRun K Unit := do
  let config := (← get).config
  config.librarySetup.run opens
  let default ← ofExcept (LogLevel.ofDocument config.defaultLevel)
  let levels ← ofExcept (config.moduleLevels.mapM fun entry => LogLevel.ofDocument entry.2)
  let lowest := levels.foldl (fun low level => min low level.number) default.number
  LogRun.changeLoggers fun loggers => loggers.setHandlerLevels libraryLogger lowest

/-- Sets up logging by a document. -/
def setUp (d : Document K) : LogRun K Unit := do
  configure (← ofExcept (entriesOf d))
  setUpAll opens

end LogSession

end FrameKinematics
