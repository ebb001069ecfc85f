import FrameKinematics.Proofs.Logging.Configuration

/-!
# Refused names of levels

A call that is refused for the name of a level is not undone. The configuration keeps the name, and
its settings and the levels of the modules before it stay changed. No handler was installed yet. The
name makes every later setup of this configuration fail, which looks at all names that it holds.
-/

namespace FrameKinematics

variable {K : Type}

/-- The calls of a logging configuration that take names of levels. -/
inductive LogCall (K : Type) where
  | setModuleLevel (name : String) (level : Document K)
  | configure (entries : List (String × Document K))
  | setUp (settings : Document K)

namespace LogCall

open LogSession (modulesOf)

/-- What a call ends with, and the session that it leaves. Setting up has a configuration of its
own. -/
def ending [Scalar K] (opens : String → Bool) (call : LogCall K) (s : LogSession K) :
    Except (Fault K) Unit × LogSession K :=
  match call with
  | setModuleLevel name level => (LogSession.setModuleLevel name level).ending s
  | configure entries => (LogSession.configure entries).ending s
  | setUp settings =>
    let (result, s') := (LogSession.setUp opens settings).ending { loggers := s.loggers }
    (result, { s with loggers := s'.loggers })

/-- What a call leaves of a session when it is refused because of the name of a level. The name is
that of a module, after others that are known, or that of the default level of a setup. -/
inductive Refused (bad : String) (s : LogSession K) : LogCall K → LogSession K → Prop
  | setModuleLevel (name : String) :
      Refused bad s (setModuleLevel name (.text bad)) (s.noted name (.text bad))
  | configure {entries : List (String × Document K)} {ms : List (ModuleLevel K)} {name : String}
      {after : List (String × Document K)}
      (hmodules : modulesOf entries =
        .table (ms.map ModuleLevel.entry ++ (name, .text bad) :: after)) :
      Refused bad s (configure entries)
        (((s.withSettings entries).withLevels ms).noted name (.text bad))
  | setUpModule {settings : Document K} {entries : List (String × Document K)}
      {ms : List (ModuleLevel K)} {name : String} {after : List (String × Document K)}
      (hentries : entriesOf settings = .ok entries)
      (hmodules : modulesOf entries =
        .table (ms.map ModuleLevel.entry ++ (name, .text bad) :: after)) :
      Refused bad s (setUp settings) { s with loggers := (s.loggers.withLevels ms).use name }
  | setUpDefault {settings : Document K} {entries : List (String × Document K)}
      {ms : List (ModuleLevel K)} (hentries : entriesOf settings = .ok entries)
      (hdefault : Document.entry? entries "default_level" = some (.text bad))
      (hmodules : modulesOf entries = .table (ms.map ModuleLevel.entry)) :
      Refused bad s (setUp settings) { s with loggers := s.loggers.withLevels ms }

end LogCall

/-! ### Which faults a name causes -/

/-- A level is refused as unknown exactly if it is a text that names none. -/
theorem LogLevel.ofDocument_eq_unknown_iff {given : Document K} {bad : String} :
    LogLevel.ofDocument given = .error (.unknownLogLevel bad) ↔
      given = .text bad ∧ LogLevel.ofName? bad = none := by
  cases given with
  | text name =>
    cases hname : LogLevel.ofName? name with
    | none =>
      rw [LogLevel.ofDocument, hname]
      constructor
      · rintro ⟨⟩
        exact ⟨rfl, hname⟩
      · rintro ⟨⟨⟩, -⟩
        rfl
    | some level =>
      rw [LogLevel.ofDocument, hname]
      refine ⟨nofun, ?_⟩
      rintro ⟨⟨⟩, hbad⟩
      exact absurd (hname.symm.trans hbad) nofun
  | _ => exact ⟨nofun, fun h => nomatch h.1⟩

/-- A document that gives no entries is not refused because of the name of a level. -/
theorem entriesOf_ne_unknown {settings : Document K} {bad : String} :
    entriesOf settings ≠ .error (.unknownLogLevel bad) := by
  unfold entriesOf
  repeat' split
  all_goals
    intro h
    cases h

/-- A log file that cannot be opened is not refused because of the name of a level. -/
theorem LogConfig.opening_ne_unknown [Scalar K] (config : LogConfig K) (opens : String → Bool)
    (bad : String) : config.opening opens ≠ .error (.unknownLogLevel bad) := by
  unfold opening openFile
  repeat' split
  all_goals
    intro h
    cases h

namespace LogSession

variable {s s' : LogSession K} {bad : String} {fault : Fault K}
  {entries : List (String × Document K)}

/-- A configuration is refused for the name of a level exactly if one of its modules has it, and all
modules before that one have known levels. -/
theorem ending_configure_eq_unknown_iff :
    (configure entries).ending s = (.error (.unknownLogLevel bad), s') ↔
      ∃ (ms : List (ModuleLevel K)) (name : String) (after : List (String × Document K)),
        modulesOf entries = .table (ms.map ModuleLevel.entry ++ (name, .text bad) :: after) ∧
          LogLevel.ofName? bad = none ∧
          s' = ((s.withSettings entries).withLevels ms).noted name (.text bad) := by
  constructor
  · intro h
    cases hmodules : modulesOf entries with
    | table levels =>
      obtain ⟨ms, rfl⟩ | ⟨ms, name, given, after, fault, rfl, hgiven⟩ :=
        ModuleLevel.exists_entries levels
      · rw [ending_configure_of_known hmodules] at h
        exact absurd (Prod.mk.inj h).1 nofun
      · rw [ending_configure_of_unknown hmodules hgiven, Prod.mk.injEq, Except.error.injEq] at h
        obtain ⟨rfl, rfl⟩ := h
        obtain ⟨rfl, hbad⟩ := LogLevel.ofDocument_eq_unknown_iff.mp hgiven
        exact ⟨ms, name, after, rfl, hbad, rfl⟩
    | _ =>
      rw [ending_configure, hmodules] at h
      exact absurd (Prod.mk.inj h).1 nofun
  · rintro ⟨ms, name, after, hmodules, hbad, rfl⟩
    exact ending_configure_of_unknown hmodules
      (LogLevel.ofDocument_eq_unknown_iff.mpr ⟨rfl, hbad⟩) s

end LogSession

namespace LogCall

open LogSession (modulesOf)

variable {call : LogCall K} {s s' : LogSession K} {bad : String}

/-- A refused call installs no handlers and removes none. -/
theorem Refused.handlers_eq (hrefused : Refused bad s call s') (name : String) :
    (s'.loggers.logger name).handlers = (s.loggers.logger name).handlers := by
  cases hrefused <;> simp [Loggers.logger_withLevels]

variable [Scalar K] {opens : String → Bool}

/-- A setup leaves the loggers of the configuration that it makes, and that of the caller. -/
theorem ending_setUp {settings : Document K} {result : Except (Fault K) Unit}
    {fresh : LogSession K}
    (hfresh : (LogSession.setUp opens settings).ending { loggers := s.loggers } =
      (result, fresh)) :
    (setUp settings).ending opens s = (result, { s with loggers := fresh.loggers }) := by
  rw [ending, hfresh]

/-- Where all modules have known levels, a setup that is refused for the name of a level was given it
as the default level. -/
theorem refused_of_known_modules {settings : Document K} {entries : List (String × Document K)}
    {ms : List (ModuleLevel K)} (hentries : entriesOf settings = .ok entries)
    (hmodules : modulesOf entries = .table (ms.map ModuleLevel.entry))
    (h : (setUp settings).ending opens s = (.error (.unknownLogLevel bad), s')) :
    LogLevel.ofName? bad = none ∧ Refused bad s (setUp settings) s' := by
  have hconfigured := LogSession.ending_setUp_of_ok opens hentries
    (LogSession.ending_configure_of_known hmodules { loggers := s.loggers })
  cases hdefault : LogLevel.ofDocument
      ((Document.entry? entries "default_level").getD (.text LogLevel.info.name)) with
  | ok default =>
    obtain ⟨noted, hnoted⟩ := LogSession.exists_moduleLevels_withLevels
      (s := LogSession.withSettings { loggers := s.loggers } entries) rfl ms
    -- With known levels only the log file can make the setup fail.
    cases hopening : LogConfig.opening ((LogSession.withSettings
        { loggers := s.loggers } entries).withLevels ms).config opens with
    | ok u =>
      rw [ending_setUp (hconfigured.trans
        (LogSession.ending_setUpAll (by simpa using hdefault) hopening hnoted))] at h
      exact absurd (Prod.mk.inj h).1 nofun
    | error fault =>
      rw [ending_setUp (hconfigured.trans
        (LogSession.ending_setUpAll_of_unopened (by simpa using hdefault) hopening)),
        Prod.mk.injEq, Except.error.injEq] at h
      rw [h.1] at hopening
      exact absurd hopening (LogConfig.opening_ne_unknown _ _ _)
  | error fault =>
    rw [ending_setUp (hconfigured.trans
      (LogSession.ending_setUpAll_of_unknown_default (by simpa using hdefault))),
      Prod.mk.injEq, Except.error.injEq] at h
    obtain ⟨rfl, rfl⟩ := h
    obtain ⟨hgiven, hbad⟩ := LogLevel.ofDocument_eq_unknown_iff.mp hdefault
    refine ⟨hbad, ?_⟩
    cases hentry : Document.entry? entries "default_level" with
    | none =>
      -- Without an entry the default level is one that is known.
      rw [hentry, Option.getD_none, Document.text.injEq] at hgiven
      rw [← hgiven] at hbad
      exact absurd hbad (by decide)
    | some given =>
      rw [hentry, Option.getD_some] at hgiven
      rw [hgiven] at hentry
      simpa using Refused.setUpDefault (s := s) hentries hentry hmodules

/-- A setup that is refused for the name of a level was told the level of a module that has it, or
the default level, where all modules have known levels. -/
theorem refused_of_ending_setUp {settings : Document K}
    (h : (setUp settings).ending opens s = (.error (.unknownLogLevel bad), s')) :
    LogLevel.ofName? bad = none ∧ Refused bad s (setUp settings) s' := by
  cases hentries : entriesOf settings with
  | error fault =>
    rw [ending_setUp (LogSession.ending_setUp_of_noEntries hentries), Prod.mk.injEq,
      Except.error.injEq] at h
    obtain rfl := h.1
    exact absurd hentries entriesOf_ne_unknown
  | ok entries =>
    cases hmodules : modulesOf entries with
    | table levels =>
      obtain ⟨ms, rfl⟩ | ⟨ms, name, given, after, fault, rfl, hgiven⟩ :=
        ModuleLevel.exists_entries levels
      · exact refused_of_known_modules hentries hmodules h
      · rw [ending_setUp (LogSession.ending_setUp_of_error hentries
          (LogSession.ending_configure_of_unknown hmodules hgiven _)), Prod.mk.injEq,
          Except.error.injEq] at h
        obtain ⟨rfl, rfl⟩ := h
        obtain ⟨rfl, hbad⟩ := LogLevel.ofDocument_eq_unknown_iff.mp hgiven
        refine ⟨hbad, ?_⟩
        simpa using Refused.setUpModule (s := s) hentries hmodules
    | _ =>
      rw [ending_setUp (LogSession.ending_setUp_of_error hentries
        (LogSession.ending_configure_of_noTable (by simp [hmodules])))] at h
      exact absurd (Prod.mk.inj h).1 nofun

/-- A setup that is refused because of the name of a level leaves the session that it was refused
in. -/
theorem ending_setUp_of_refused {settings : Document K} (hbad : LogLevel.ofName? bad = none)
    (hrefused : Refused bad s (setUp settings) s') :
    (setUp settings).ending opens s = (.error (.unknownLogLevel bad), s') := by
  have hgiven := LogLevel.ofDocument_eq_unknown_iff.mpr
    ⟨(rfl : (.text bad : Document K) = .text bad), hbad⟩
  cases hrefused with
  | setUpModule hentries hmodules =>
    rw [ending_setUp (LogSession.ending_setUp_of_error hentries
      (LogSession.ending_configure_of_unknown hmodules hgiven _))]
    simp
  | setUpDefault hentries hdefault hmodules =>
    have hconfigured := LogSession.ending_setUp_of_ok opens hentries
      (LogSession.ending_configure_of_known hmodules { loggers := s.loggers })
    rw [ending_setUp (hconfigured.trans
      (LogSession.ending_setUpAll_of_unknown_default (by simpa [hdefault] using hgiven)))]
    simp

/-- A call is refused for the name of a level exactly if it has an unknown one, and then leaves what
it had done. -/
theorem ending_eq_unknown_iff (call : LogCall K) (s s' : LogSession K) (bad : String) :
    call.ending opens s = (.error (.unknownLogLevel bad), s') ↔
      LogLevel.ofName? bad = none ∧ Refused bad s call s' := by
  cases call with
  | setModuleLevel name given =>
    constructor
    · intro h
      cases hgiven : LogLevel.ofDocument given with
      | ok level =>
        rw [ending, LogSession.ending_setModuleLevel ⟨name, given, level, hgiven⟩] at h
        exact absurd (Prod.mk.inj h).1 nofun
      | error fault =>
        rw [ending, LogSession.ending_setModuleLevel_of_unknown hgiven, Prod.mk.injEq,
          Except.error.injEq] at h
        obtain ⟨rfl, rfl⟩ := h
        obtain ⟨rfl, hbad⟩ := LogLevel.ofDocument_eq_unknown_iff.mp hgiven
        exact ⟨hbad, .setModuleLevel name⟩
    · rintro ⟨hbad, hrefused⟩
      cases hrefused
      exact LogSession.ending_setModuleLevel_of_unknown
        (LogLevel.ofDocument_eq_unknown_iff.mpr ⟨rfl, hbad⟩)
  | configure entries =>
    rw [ending, LogSession.ending_configure_eq_unknown_iff]
    constructor
    · rintro ⟨ms, name, after, hmodules, hbad, rfl⟩
      exact ⟨hbad, .configure hmodules⟩
    · rintro ⟨hbad, hrefused⟩
      cases hrefused with
      | configure hmodules => exact ⟨_, _, _, hmodules, hbad, rfl⟩
  | setUp settings =>
    exact ⟨refused_of_ending_setUp, fun h => ending_setUp_of_refused h.1 h.2⟩

/-- A refused configuration cannot be set up any more, and a refused setup leaves a configuration
alone that is not its own. -/
theorem Refused.later_fails (hbad : LogLevel.ofName? bad = none)
    (hrefused : Refused bad s call s') :
    (∃ settings, call = setUp settings) ∧ s'.config = s.config ∨
      ∀ opens, ∃ fault s'', (LogSession.setUpAll opens).ending s' = (.error fault, s'') := by
  have hgiven := LogLevel.ofDocument_eq_unknown_iff.mpr
    ⟨(rfl : (.text bad : Document K) = .text bad), hbad⟩
  cases hrefused with
  | setModuleLevel name =>
    exact .inr fun opens =>
      LogSession.setUpAll_fails opens (LogSession.mem_moduleLevels_noted s name _) hgiven
  | configure _ =>
    exact .inr fun opens =>
      LogSession.setUpAll_fails opens (LogSession.mem_moduleLevels_noted _ _ _) hgiven
  | setUpModule _ _ => exact .inl ⟨⟨_, rfl⟩, rfl⟩
  | setUpDefault _ _ _ => exact .inl ⟨⟨_, rfl⟩, rfl⟩

/-- A call that is refused for the name of a level keeps what it had done before it looked the name
up: its settings, the levels of modules before the one with that name, and the name itself. Handlers
stay as they were, but the configuration that the name was given to fails from then on. Which files
can be opened, then or later, does not matter. -/
theorem refused_notUndone (opens : String → Bool) (call : LogCall K) (s s' : LogSession K)
    (bad : String) :
    (call.ending opens s = (.error (.unknownLogLevel bad), s') ↔
      LogLevel.ofName? bad = none ∧ Refused bad s call s') ∧
    (call.ending opens s = (.error (.unknownLogLevel bad), s') →
      (∀ name, (s'.loggers.logger name).handlers = (s.loggers.logger name).handlers) ∧
      ((∃ settings, call = setUp settings) ∧ s'.config = s.config ∨
        ∀ opens', ∃ fault s'',
          (LogSession.setUpAll opens').ending s' = (.error fault, s''))) := by
  refine ⟨ending_eq_unknown_iff call s s' bad, fun h => ?_⟩
  obtain ⟨hbad, hrefused⟩ := (ending_eq_unknown_iff call s s' bad).mp h
  exact ⟨hrefused.handlers_eq, hrefused.later_fails hbad⟩

/-- A configuration whose second module has a level that there is not. -/
def verboseModule : LogCall Float :=
  configure [("module_levels", .table [("pyframes.frames", .text "debug"),
    ("pyframes.core", .text "VERBOSE")])]

/-- The session that is left when any file can be opened. -/
def afterVerbose : LogSession Float := (verboseModule.ending (fun _ => true) {}).2

/-- The first module keeps its level, and the configuration fails from then on. -/
theorem verboseModule_notUndone :
    (afterVerbose.loggers.logger "pyframes.frames").level = 10 ∧
      ∃ fault s'',
        (LogSession.setUpAll fun _ => true).ending afterVerbose = (.error fault, s'') := by
  have hrefused := refused_notUndone (fun _ => true) verboseModule {} afterVerbose "VERBOSE"
  have hending : verboseModule.ending (fun _ => true) {} =
      (.error (.unknownLogLevel "VERBOSE"), afterVerbose) := by rfl
  refine ⟨by decide +kernel, ?_⟩
  obtain ⟨⟨settings, hsettings⟩, -⟩ | hfails := (hrefused.2 hending).2
  · exact absurd hsettings nofun
  · exact hfails _

/-- A level that was refused is noted all the same, and a configuration that could be set up
before cannot be set up after it. Even the logger that came to be for it makes a difference to
another one, whose name extends its name. -/
theorem verbose_noted :
    (∃ s' : LogSession Float,
      (setModuleLevel "pyframes.frames" (.text "VERBOSE")).ending (fun _ => true) {} =
        (.error (.unknownLogLevel "VERBOSE"), s') ∧
      s'.config.moduleLevels.map Prod.fst = ["pyframes.frames"] ∧
      ((LogSession.setUpAll fun _ => true).ending ({} : LogSession Float)).1 = .ok () ∧
      ((LogSession.setUpAll fun _ => true).ending s').1 = .error (.unknownLogLevel "VERBOSE")) ∧
    ∃ s' : LogSession Float,
      (setUp (.table [("module_levels", .table [("pyframes.", .text "loud")])])).ending
          (fun _ => true) {} =
        (.error (.unknownLogLevel "loud"), s') ∧
      ((LogSession.setUpAll fun _ => true).ending s').2.loggers.effectiveLevel
        "pyframes..x" = 20 ∧
      ((LogSession.setUpAll fun _ => true).ending
        ({} : LogSession Float)).2.loggers.effectiveLevel "pyframes..x" = 30 := by
  refine ⟨⟨_, rfl, by decide +kernel, rfl, rfl⟩, ⟨_, rfl, by decide +kernel, by decide +kernel⟩⟩

end LogCall

end FrameKinematics
