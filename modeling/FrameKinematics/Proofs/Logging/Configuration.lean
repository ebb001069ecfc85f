import FrameKinematics.Proofs.Logging.LoggerTree

/-!
# Runs of a logging configuration

A configuration works through the levels of modules one after the other and stops at the first one
that names no level. The lemmas say which session each of these runs leaves: the levels before the
one that stops it have all taken effect, that one is noted and its logger is there, and nothing is
seen of those after it. Handlers are installed only when all levels are known, and if the log file
cannot be opened then, the logger of the library keeps what it was given before.
-/

namespace FrameKinematics

variable {K α β : Type}

/-- Of entries under one name the first one is found. -/
theorem Document.entry?_cons (key : String) (value : Document K)
    (entries : List (String × Document K)) (other : String) :
    entry? ((key, value) :: entries) other =
      if key = other then some value else entry? entries other := by
  by_cases h : key = other <;> simp [Document.entry?, h]

/-- The entry of a table under a key after an entry was put into it. -/
theorem Document.entry?_putEntry (entries : List (String × Document K)) (key : String)
    (value : Document K) (other : String) :
    entry? (putEntry entries key value) other =
      if key = other then some value else entry? entries other := by
  have hreplaced : ∀ entries : List (String × Document K),
      entry? (entries.map fun entry => if entry.1 == key then (key, value) else entry) other =
        if key = other ∧ entries.any (fun entry => entry.1 == key) then some value
        else entry? entries other := by
    intro entries
    induction entries with
    | nil => simp
    | cons entry entries ih =>
      obtain ⟨key', value'⟩ := entry
      rw [List.map_cons, List.any_cons]
      by_cases hkey : key' = key
      · have hany : (key' == key || entries.any fun entry => entry.1 == key) = true := by
          simp [hkey]
        rw [if_pos (by simp [hkey]), entry?_cons, entry?_cons, ih, hany, hkey]
        by_cases hother : key = other <;> simp [hother]
      · rw [if_neg (by simp [hkey]), entry?_cons, entry?_cons, ih, beq_false_of_ne hkey,
          Bool.false_or]
        by_cases hother : key' = other
        · rw [if_pos hother, if_neg fun h => hkey (hother.trans h.1.symm), if_pos hother]
        · rw [if_neg hother, if_neg hother]
  have hadded : entry? (entries ++ [(key, value)]) other =
      (Document.entry? entries other).or (if key = other then some value else none) := by
    induction entries with
    | nil => exact entry?_cons key value [] other
    | cons entry entries ih =>
      rw [List.cons_append, entry?_cons, entry?_cons, ih]
      split <;> rfl
  unfold putEntry
  split
  · next hany => rw [hreplaced, hany]; simp
  · next hany =>
    rw [hadded]
    by_cases hother : key = other
    · have hmissing : entry? entries other = none := by
        rw [Document.entry?, Option.map_eq_none_iff, List.find?_eq_none, ← hother]
        simpa only [List.any_eq_true, not_exists, not_and] using hany
      simp [hother, hmissing]
    · simp [hother]

/-- The entries of a table after an entry was put into it were there, or are that entry. -/
theorem Document.mem_putEntry {entries : List (String × Document K)} {key : String}
    {value : Document K} {entry : String × Document K} (h : entry ∈ putEntry entries key value) :
    entry ∈ entries ∨ entry = (key, value) := by
  unfold putEntry at h
  split at h
  · obtain ⟨found, hmem, rfl⟩ := List.mem_map.mp h
    split
    · exact .inr rfl
    · exact .inl hmem
  · simpa using h

/-- An entry that is put into a table is there. -/
theorem Document.mem_putEntry_self (entries : List (String × Document K)) (key : String)
    (value : Document K) : (key, value) ∈ putEntry entries key value := by
  unfold putEntry
  split
  · next hany =>
    obtain ⟨entry, hmem, hkey⟩ := List.any_eq_true.mp hany
    exact List.mem_map.mpr ⟨entry, hmem, if_pos hkey⟩
  · simp

namespace Loggers

variable {loggers : Loggers} {name other : String}

/-- Other handlers change no level. -/
@[simp] theorem level_setHandlers {handlers : List LogHandler} :
    ((loggers.setHandlers name handlers).logger other).level = (loggers.logger other).level := by
  rw [setHandlers, logger_setLogger]
  split
  · next hsame => simp only [Loggers.logger, hsame]
  · rfl

/-- Handlers that are set are there. -/
@[simp] theorem handlers_setHandlers {handlers : List LogHandler} :
    ((loggers.setHandlers name handlers).logger name).handlers = handlers := by
  rw [setHandlers, logger_setLogger, if_pos rfl]

/-- A logger that gets handlers is used. -/
theorem isUsed_setHandlers {handlers : List LogHandler} :
    (loggers.setHandlers name handlers).isUsed other =
      (decide (canonical other = canonical name) || loggers.isUsed other) :=
  isUsed_setLogger

end Loggers

/-! ### Runs step by step -/

/-- What a computation on a logging configuration ends with, and the session that it leaves. -/
def LogRun.ending (run : LogRun K α) (s : LogSession K) :
    Except (Fault K) α × LogSession K :=
  StateT.run (ExceptT.run run) s

namespace LogRun

variable {s s' : LogSession K} {x : LogRun K α} {f : α → LogRun K β} {fault : Fault K}

/-- After a part that succeeds, a run on a configuration goes on in the session that the part
left. -/
theorem ending_bind_of_ok {a : α} (hx : x.ending s = (.ok a, s')) :
    (x >>= f).ending s = (f a).ending s' := by
  rw [ending] at hx ⊢
  rw [ExceptT.run_bind, StateT.run_bind, hx]
  rfl

/-- A run on a configuration ends with the first part that fails. -/
theorem ending_bind_of_error (hx : x.ending s = (.error fault, s')) :
    (x >>= f).ending s = (.error fault, s') := by
  rw [ending] at hx ⊢
  rw [ExceptT.run_bind, StateT.run_bind, hx]
  rfl

/-- A change of the session always succeeds. -/
theorem ending_modify (change : LogSession K → LogSession K) :
    ending (modify change) s = (.ok (), change s) := rfl

/-- A change of the loggers leaves the configuration as it is. -/
theorem ending_changeLoggers (change : Loggers → Loggers) :
    ending (changeLoggers change : LogRun K Unit) s =
      (.ok (), { s with loggers := change s.loggers }) := rfl

/-- Looking at the session changes nothing. -/
theorem ending_get : ending (get : LogRun K (LogSession K)) s = (.ok s, s) := rfl

/-- An outcome that is known changes nothing. -/
theorem ending_ofExcept (r : Except (Fault K) α) :
    ending (ofExcept r : LogRun K α) s = (r, s) := by
  cases r <;> rfl

end LogRun

/-- The level of a module as a configuration gives it, where it names a level. -/
structure ModuleLevel (K : Type) where
  name : String
  given : Document K
  level : LogLevel
  isKnown : LogLevel.ofDocument given = .ok level

/-- The entry of a table that gives the level of a module. -/
def ModuleLevel.entry (m : ModuleLevel K) : String × Document K := (m.name, m.given)

/-- The entries of a table give known levels, or there is a first one that does not. -/
theorem ModuleLevel.exists_entries (entries : List (String × Document K)) :
    (∃ ms : List (ModuleLevel K), entries = ms.map ModuleLevel.entry) ∨
      ∃ (ms : List (ModuleLevel K)) (name : String) (given : Document K)
        (after : List (String × Document K)) (fault : Fault K),
        entries = ms.map ModuleLevel.entry ++ (name, given) :: after ∧
          LogLevel.ofDocument given = .error fault := by
  induction entries with
  | nil => exact .inl ⟨[], rfl⟩
  | cons entry entries ih =>
    obtain ⟨name, given⟩ := entry
    cases hgiven : LogLevel.ofDocument given with
    | error fault => exact .inr ⟨[], name, given, entries, fault, rfl, hgiven⟩
    | ok level =>
      obtain ⟨ms, rfl⟩ | ⟨ms, name', given', after, fault, rfl, hfault⟩ := ih
      · exact .inl ⟨⟨name, given, level, hgiven⟩ :: ms, rfl⟩
      · exact .inr ⟨⟨name, given, level, hgiven⟩ :: ms, name', given', after, fault, rfl, hfault⟩

/-- Entries that all give known levels. -/
theorem ModuleLevel.exists_entries_of_known {entries : List (String × Document K)}
    (hknown : ∀ entry ∈ entries, ∃ level, LogLevel.ofDocument entry.2 = .ok level) :
    ∃ ms : List (ModuleLevel K), entries = ms.map ModuleLevel.entry := by
  obtain hms | ⟨ms, name, given, after, fault, rfl, hfault⟩ := exists_entries entries
  · exact hms
  · obtain ⟨level, hlevel⟩ := hknown (name, given) (by simp)
    exact absurd (hlevel.symm.trans hfault) nofun

namespace Loggers

/-- The loggers where levels of modules were set one after the other. -/
def withLevels (loggers : Loggers) (ms : List (ModuleLevel K)) : Loggers :=
  ms.foldl (fun loggers m => (loggers.use m.name).setLevel m.name m.level.number) loggers

/-- The last level that a list of modules gives for a logger. -/
def lastLevel? (ms : List (ModuleLevel K)) (name : String) : Option LogLevel :=
  (ms.reverse.find? fun m => canonical m.name == canonical name).map ModuleLevel.level

/-- The last level that modules give a logger is that of the last module with its name. -/
theorem lastLevel?_cons (m : ModuleLevel K) (ms : List (ModuleLevel K)) (name : String) :
    lastLevel? (m :: ms) name =
      (lastLevel? ms name).or
        (if canonical m.name = canonical name then some m.level else none) := by
  by_cases h : canonical m.name = canonical name <;>
    simp [lastLevel?, List.find?_append, h]

/-- Setting levels changes the level of a logger to the last one for it, and nothing else. -/
theorem logger_withLevels (loggers : Loggers) (ms : List (ModuleLevel K)) (name : String) :
    (loggers.withLevels ms).logger name =
      { loggers.logger name with
        level := ((lastLevel? ms name).map LogLevel.number).getD (loggers.logger name).level } := by
  induction ms generalizing loggers with
  | nil => rfl
  | cons m ms ih =>
    have hstep : loggers.withLevels (m :: ms) =
        ((loggers.use m.name).setLevel m.name m.level.number).withLevels ms := rfl
    rw [hstep, ih, logger_setLevel, logger_use, lastLevel?_cons]
    by_cases h : canonical m.name = canonical name
    · rw [if_pos h.symm, if_pos h]
      cases lastLevel? ms name <;> rfl
    · rw [if_neg (Ne.symm h), if_neg h, Option.or_none]

/-- A module whose level was set has a logger. -/
theorem isUsed_withLevels (loggers : Loggers) (ms : List (ModuleLevel K)) (name : String) :
    (loggers.withLevels ms).isUsed name =
      ((lastLevel? ms name).isSome || loggers.isUsed name) := by
  induction ms generalizing loggers with
  | nil => rfl
  | cons m ms ih =>
    have hstep : loggers.withLevels (m :: ms) =
        ((loggers.use m.name).setLevel m.name m.level.number).withLevels ms := rfl
    rw [hstep, ih, isUsed_setLevel, isUsed_use, lastLevel?_cons]
    by_cases h : canonical m.name = canonical name
    · simp [h]
    · simp [h, Ne.symm h]

end Loggers

/-- What opening the log file of a configuration ends with. Without one, nothing is opened. -/
def LogConfig.opening [Scalar K] (config : LogConfig K) (opens : String → Bool) :
    Except (Fault K) Unit :=
  if config.file.isYes then openFile opens config.file else .ok ()

namespace LogSession

variable {s : LogSession K} {name : String} {given : Document K} {fault : Fault K}

/-- The session where a module's level is noted, and its logger is there, but its level is not
set. -/
def noted (s : LogSession K) (name : String) (given : Document K) : LogSession K :=
  { s.withModuleLevel name given with loggers := s.loggers.use name }

/-- The session where a module's level has taken effect. -/
def withLevel (s : LogSession K) (m : ModuleLevel K) : LogSession K :=
  { s.noted m.name m.given with loggers := (s.loggers.use m.name).setLevel m.name m.level.number }

/-- The session where levels of modules have taken effect one after the other. -/
def withLevels (s : LogSession K) (ms : List (ModuleLevel K)) : LogSession K :=
  ms.foldl withLevel s

/-- Levels of modules are put on the loggers. -/
@[simp] theorem loggers_withLevels (s : LogSession K) (ms : List (ModuleLevel K)) :
    (s.withLevels ms).loggers = s.loggers.withLevels ms := by
  induction ms generalizing s with
  | nil => rfl
  | cons m ms ih => exact ih (s.withLevel m)

/-- Levels of modules change none of the other settings. -/
theorem config_withLevels (s : LogSession K) (ms : List (ModuleLevel K)) :
    (s.withLevels ms).config =
      { s.config with moduleLevels := (s.withLevels ms).config.moduleLevels } := by
  induction ms generalizing s with
  | nil => rfl
  | cons m ms ih => exact ih (s.withLevel m)

/-- Levels of modules leave the default level of the configuration as it is. -/
@[simp] theorem defaultLevel_withLevels (s : LogSession K) (ms : List (ModuleLevel K)) :
    (s.withLevels ms).config.defaultLevel = s.config.defaultLevel := by
  rw [config_withLevels]

/-- Only known levels are noted when levels take effect. -/
theorem moduleLevels_withLevels_known (ms : List (ModuleLevel K))
    (hknown : ∀ entry ∈ s.config.moduleLevels, ∃ level, LogLevel.ofDocument entry.2 = .ok level) :
    ∀ entry ∈ (s.withLevels ms).config.moduleLevels,
      ∃ level, LogLevel.ofDocument entry.2 = .ok level := by
  induction ms generalizing s with
  | nil => exact hknown
  | cons m ms ih =>
    refine ih (s := s.withLevel m) fun entry hentry => ?_
    obtain hentry | rfl := Document.mem_putEntry hentry
    · exact hknown entry hentry
    · exact ⟨m.level, m.isKnown⟩

/-- A configuration that held no level of a module holds known ones when these took effect. -/
theorem exists_moduleLevels_withLevels (hempty : s.config.moduleLevels = [])
    (ms : List (ModuleLevel K)) : ∃ noted : List (ModuleLevel K),
      (s.withLevels ms).config.moduleLevels = noted.map ModuleLevel.entry :=
  ModuleLevel.exists_entries_of_known <|
    moduleLevels_withLevels_known ms fun _ h => absurd (hempty ▸ h) List.not_mem_nil

/-- The session with the settings of a table that are not levels of modules. -/
def withSettings (s : LogSession K) (entries : List (String × Document K)) : LogSession K :=
  { s with config := { s.config with
      defaultLevel := (Document.entry? entries "default_level").getD s.config.defaultLevel
      file := (Document.entry? entries "log_file").getD s.config.file
      console := (Document.entry? entries "console").getD s.config.console } }

/-- The settings that the entries of a table give a new configuration. -/
def settingsOf (entries : List (String × Document K)) : LogConfig K :=
  (withSettings {} entries).config

/-- Noting the level of a module brings the logger of the module into being. -/
@[simp] theorem loggers_noted : (s.noted name given).loggers = s.loggers.use name := rfl

/-- Taking over settings leaves the loggers as they are. -/
@[simp] theorem loggers_withSettings (entries : List (String × Document K)) :
    (s.withSettings entries).loggers = s.loggers := rfl

/-- The default level that is taken over is the one of the table, if it has one. -/
@[simp] theorem defaultLevel_withSettings (entries : List (String × Document K)) :
    (s.withSettings entries).config.defaultLevel =
      (Document.entry? entries "default_level").getD s.config.defaultLevel := rfl

/-- The level of a module is noted. -/
theorem mem_moduleLevels_noted (s : LogSession K) (name : String) (given : Document K) :
    (name, given) ∈ (s.noted name given).config.moduleLevels :=
  Document.mem_putEntry_self _ name given

/-- The level of a module that is not known is noted. -/
theorem ending_setModuleLevel_of_unknown (hgiven : LogLevel.ofDocument given = .error fault) :
    (setModuleLevel name given).ending s = (.error fault, s.noted name given) := by
  rw [setModuleLevel, LogRun.ending_bind_of_ok (LogRun.ending_modify _),
    LogRun.ending_bind_of_ok (LogRun.ending_changeLoggers _), hgiven]
  rfl

/-- The level of a module that is known takes effect. -/
theorem ending_setModuleLevel (m : ModuleLevel K) :
    (setModuleLevel m.name m.given).ending s = (.ok (), s.withLevel m) := by
  rw [setModuleLevel, LogRun.ending_bind_of_ok (LogRun.ending_modify _),
    LogRun.ending_bind_of_ok (LogRun.ending_changeLoggers _), m.isKnown]
  rfl

/-- Levels of modules that are all known take effect. -/
theorem ending_forM_setModuleLevel (ms : List (ModuleLevel K)) (s : LogSession K) :
    ((ms.map ModuleLevel.entry).forM fun (name, given) => setModuleLevel name given).ending s =
      (.ok (), s.withLevels ms) := by
  induction ms generalizing s with
  | nil => rfl
  | cons m ms ih =>
    exact (LogRun.ending_bind_of_ok (ending_setModuleLevel m)).trans (ih (s.withLevel m))

/-- Levels of modules take effect up to the first one that is not known. -/
theorem ending_forM_setModuleLevel_of_unknown (ms : List (ModuleLevel K)) (s : LogSession K)
    (after : List (String × Document K)) (hgiven : LogLevel.ofDocument given = .error fault) :
    ((ms.map ModuleLevel.entry ++ (name, given) :: after).forM fun (name, given) =>
      setModuleLevel name given).ending s = (.error fault, (s.withLevels ms).noted name given) := by
  induction ms generalizing s with
  | nil => exact LogRun.ending_bind_of_error (ending_setModuleLevel_of_unknown hgiven)
  | cons m ms ih =>
    exact (LogRun.ending_bind_of_ok (ending_setModuleLevel m)).trans (ih (s.withLevel m))

/-- The levels of modules among the entries of a table. -/
def modulesOf (entries : List (String × Document K)) : Document K :=
  (Document.entry? entries "module_levels").getD (.table [])

/-- A configuration takes over its settings, and then the levels of modules. -/
theorem ending_configure (entries : List (String × Document K)) (s : LogSession K) :
    (configure entries).ending s =
      match modulesOf entries with
      | .table levels =>
        (levels.forM fun (name, given) => setModuleLevel name given).ending
          (s.withSettings entries)
      | _ => (.error (.noMember), s.withSettings entries) := by
  unfold configure withSettings modulesOf
  cases Document.entry? entries "default_level" <;> cases Document.entry? entries "log_file" <;>
    cases Document.entry? entries "console" <;>
    cases (Document.entry? entries "module_levels").getD (.table []) <;> rfl

/-- A configuration needs the levels of modules as a table. -/
theorem ending_configure_of_noTable {entries : List (String × Document K)}
    (hmodules : ∀ levels, modulesOf entries ≠ .table levels) :
    (configure entries).ending s = (.error (.noMember), s.withSettings entries) := by
  rw [ending_configure]
  split
  · next levels hlevels => exact absurd hlevels (hmodules levels)
  · rfl

/-- A configuration takes over everything when all levels of modules are known. -/
theorem ending_configure_of_known {entries : List (String × Document K)}
    {ms : List (ModuleLevel K)} (hmodules : modulesOf entries = .table (ms.map ModuleLevel.entry))
    (s : LogSession K) :
    (configure entries).ending s = (.ok (), (s.withSettings entries).withLevels ms) := by
  rw [ending_configure, hmodules]
  exact ending_forM_setModuleLevel ms _

/-- A configuration stops at the first level of a module that is not known. -/
theorem ending_configure_of_unknown {entries after : List (String × Document K)}
    {ms : List (ModuleLevel K)}
    (hmodules : modulesOf entries = .table (ms.map ModuleLevel.entry ++ (name, given) :: after))
    (hgiven : LogLevel.ofDocument given = .error fault) (s : LogSession K) :
    (configure entries).ending s =
      (.error fault, ((s.withSettings entries).withLevels ms).noted name given) := by
  rw [ending_configure, hmodules]
  exact ending_forM_setModuleLevel_of_unknown ms _ after hgiven

/-! ### Setting up the library's logger -/

/-- The levels that entries of a table give. -/
theorem mapM_ofDocument_entries (ms : List (ModuleLevel K)) :
    (ms.map ModuleLevel.entry).mapM (fun entry => LogLevel.ofDocument entry.2) =
      .ok (ms.map ModuleLevel.level) := by
  induction ms with
  | nil => rfl
  | cons m ms ih =>
    rw [List.map_cons, List.mapM_cons, ih, ModuleLevel.entry, m.isKnown]
    rfl

/-- The first entry of a table that gives no known level is the one that is refused. -/
theorem mapM_ofDocument_of_unknown (ms : List (ModuleLevel K))
    (after : List (String × Document K)) (hgiven : LogLevel.ofDocument given = .error fault) :
    (ms.map ModuleLevel.entry ++ (name, given) :: after).mapM
      (fun entry => LogLevel.ofDocument entry.2) = .error fault := by
  induction ms with
  | nil =>
    rw [List.map_nil, List.nil_append, List.mapM_cons, hgiven]
    rfl
  | cons m ms ih =>
    rw [List.map_cons, List.cons_append, List.mapM_cons, ih, ModuleLevel.entry, m.isKnown]
    rfl

/-- The lowest level among a default level and those of modules. -/
def lowestLevel (default : LogLevel) (ms : List (ModuleLevel K)) : Int :=
  (ms.map ModuleLevel.level).foldl (fun low level => min low level.number) default.number

variable [Scalar K]

/-- The session where the library's logger has its level, and its handler for the console. -/
def withConsole (s : LogSession K) (default : LogLevel) : LogSession K :=
  { s with loggers := s.loggers.install libraryLogger default s.config.console.isYes }

/-- The session where the library's logger was just given its handlers. -/
def installed (s : LogSession K) (default : LogLevel) : LogSession K :=
  let withConsole := s.withConsole default
  if s.config.file.isYes then
    { withConsole with loggers := withConsole.loggers.addFile libraryLogger default }
  else withConsole

/-- The session where the library's logger is set up. -/
def withHandlers (s : LogSession K) (default : LogLevel) (ms : List (ModuleLevel K)) :
    LogSession K :=
  let installed := s.installed default
  { installed with
    loggers := installed.loggers.setHandlerLevels libraryLogger (lowestLevel default ms) }

variable {opens : String → Bool} {default : LogLevel}

/-- An installation looks up its level first. -/
theorem ending_librarySetup_of_unknown_default
    (hdefault : LogLevel.ofDocument s.config.defaultLevel = .error fault) :
    (s.config.librarySetup.run opens).ending s = (.error fault, s) := by
  rw [LoggerSetup.run, LogConfig.librarySetup, hdefault]
  rfl

/-- An installation with a known level has given the library's logger this level, and its handler
for the console, when it comes to the log file. -/
theorem ending_librarySetup (opens : String → Bool)
    (hdefault : LogLevel.ofDocument s.config.defaultLevel = .ok default) :
    (s.config.librarySetup.run opens).ending s =
      (s.config.opening opens,
        if (s.config.opening opens).isOk then s.installed default else s.withConsole default) := by
  have hlevel : (ofExcept (LogLevel.ofDocument s.config.librarySetup.level) : LogRun K _).ending s =
      (.ok default, s) := by
    rw [LogRun.ending_ofExcept]
    exact congrArg (·, s) hdefault
  have hname : (ofExcept s.config.librarySetup.loggerName : LogRun K _).ending s =
      (.ok libraryLogger, s) := rfl
  rw [LoggerSetup.run, LogRun.ending_bind_of_ok hlevel, LogRun.ending_bind_of_ok hname,
    LogRun.ending_bind_of_ok (LogRun.ending_changeLoggers _), LogConfig.opening, installed]
  change LogRun.ending (if s.config.file.isYes then
      ofExcept (openFile opens s.config.file) >>= fun _ =>
        LogRun.changeLoggers fun loggers => loggers.addFile libraryLogger default
    else pure ()) (s.withConsole default) = _
  cases s.config.file.isYes with
  | false => rfl
  | true =>
    have hopened := LogRun.ending_ofExcept (s := s.withConsole default)
      (openFile opens s.config.file)
    cases hfile : openFile opens s.config.file with
    | error fault =>
      rw [hfile] at hopened
      exact LogRun.ending_bind_of_error hopened
    | ok u =>
      rw [hfile] at hopened
      exact LogRun.ending_bind_of_ok hopened

/-- The default level is looked up before anything is installed. -/
theorem ending_setUpAll_of_unknown_default
    (hdefault : LogLevel.ofDocument s.config.defaultLevel = .error fault) :
    (setUpAll opens).ending s = (.error fault, s) := by
  rw [setUpAll, LogRun.ending_bind_of_ok LogRun.ending_get]
  exact LogRun.ending_bind_of_error (ending_librarySetup_of_unknown_default hdefault)

/-- A log file that cannot be opened leaves the handlers as they were installed until then. -/
theorem ending_setUpAll_of_unopened
    (hdefault : LogLevel.ofDocument s.config.defaultLevel = .ok default)
    (hopening : s.config.opening opens = .error fault) :
    (setUpAll opens).ending s = (.error fault, s.withConsole default) := by
  have hsetup := ending_librarySetup opens hdefault
  rw [hopening] at hsetup
  rw [setUpAll, LogRun.ending_bind_of_ok LogRun.ending_get]
  exact LogRun.ending_bind_of_error hsetup

/-- The levels of modules are looked up when the handlers are installed. -/
theorem ending_setUpAll_of_default
    (hdefault : LogLevel.ofDocument s.config.defaultLevel = .ok default)
    (hopening : s.config.opening opens = .ok ()) :
    (setUpAll opens).ending s =
      match s.config.moduleLevels.mapM fun entry => LogLevel.ofDocument entry.2 with
      | .error fault => (.error fault, s.installed default)
      | .ok levels =>
        let lowest := levels.foldl (fun low level => min low level.number) default.number
        (.ok (), { s.installed default with
          loggers := (s.installed default).loggers.setHandlerLevels libraryLogger lowest }) := by
  have hsetup := ending_librarySetup opens hdefault
  rw [hopening] at hsetup
  rw [setUpAll, LogRun.ending_bind_of_ok LogRun.ending_get,
    LogRun.ending_bind_of_ok hsetup, hdefault,
    LogRun.ending_bind_of_ok (LogRun.ending_ofExcept _)]
  cases s.config.moduleLevels.mapM fun entry => LogLevel.ofDocument entry.2 <;> rfl

/-- A setup with known levels and a log file that can be opened, if there is one, succeeds. -/
theorem ending_setUpAll {ms : List (ModuleLevel K)}
    (hdefault : LogLevel.ofDocument s.config.defaultLevel = .ok default)
    (hopening : s.config.opening opens = .ok ())
    (hmodules : s.config.moduleLevels = ms.map ModuleLevel.entry) :
    (setUpAll opens).ending s = (.ok (), s.withHandlers default ms) := by
  rw [ending_setUpAll_of_default hdefault hopening, hmodules, mapM_ofDocument_entries]
  rfl

/-- A configuration that holds a level which is not known cannot be set up. -/
theorem setUpAll_fails (opens : String → Bool) (hmem : (name, given) ∈ s.config.moduleLevels)
    (hgiven : LogLevel.ofDocument given = .error fault) :
    ∃ fault' s', (setUpAll opens).ending s = (.error fault', s') := by
  cases hdefault : LogLevel.ofDocument s.config.defaultLevel with
  | error fault' => exact ⟨fault', s, ending_setUpAll_of_unknown_default hdefault⟩
  | ok default =>
    cases hopening : s.config.opening opens with
    | error fault' =>
      exact ⟨fault', s.withConsole default, ending_setUpAll_of_unopened hdefault hopening⟩
    | ok u =>
      obtain ⟨ms, hms⟩ | ⟨ms, name', given', after, fault', hms, hfault⟩ :=
        ModuleLevel.exists_entries s.config.moduleLevels
      · rw [hms] at hmem
        obtain ⟨m, -, hm⟩ := List.mem_map.mp hmem
        obtain ⟨-, rfl⟩ := Prod.mk.inj hm
        exact absurd (m.isKnown.symm.trans hgiven) nofun
      · refine ⟨fault', s.installed default, ?_⟩
        rw [ending_setUpAll_of_default hdefault hopening, hms,
          mapM_ofDocument_of_unknown ms after hfault]

section SetUp

variable {s' : LogSession K} {settings : Document K} {entries : List (String × Document K)}
  {opens : String → Bool}

/-- A document without entries is refused before anything is changed. -/
theorem ending_setUp_of_noEntries (hentries : entriesOf settings = .error fault) :
    (setUp opens settings).ending s = (.error fault, s) := by
  rw [setUp, hentries]
  rfl

/-- Setting up by a document ends where the configuration is refused. -/
theorem ending_setUp_of_error (hentries : entriesOf settings = .ok entries)
    (hconfigure : (configure entries).ending s = (.error fault, s')) :
    (setUp opens settings).ending s = (.error fault, s') := by
  rw [setUp, hentries, LogRun.ending_bind_of_ok (LogRun.ending_ofExcept _),
    LogRun.ending_bind_of_error hconfigure]

/-- Setting up by a document goes on when the configuration is complete. -/
theorem ending_setUp_of_ok (opens : String → Bool) (hentries : entriesOf settings = .ok entries)
    (hconfigure : (configure entries).ending s = (.ok (), s')) :
    (setUp opens settings).ending s = (setUpAll opens).ending s' := by
  rw [setUp, hentries, LogRun.ending_bind_of_ok (LogRun.ending_ofExcept _),
    LogRun.ending_bind_of_ok hconfigure]

end SetUp

end LogSession

end FrameKinematics
