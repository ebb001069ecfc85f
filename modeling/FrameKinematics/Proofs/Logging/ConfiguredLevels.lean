import FrameKinematics.Proofs.Logging.Configuration

/-!
# Levels after a setup

A setup of logging leaves levels on the loggers of modules, on the logger of the library, and on its
handlers. The handlers have the lowest of all levels, so what they write is what the loggers let
through, and a logger lets through what the closest level above it lets through. On the way up the
library's own logger comes last, and it has the default level: the setup puts it there after the
levels of modules, so a level that the library's logger is given among these never counts. If the
log file cannot be opened, the levels of the loggers are the same, but the handler for the console
keeps the default level.
-/

namespace FrameKinematics

open Loggers LogSession

variable {K : Type}

/-! ### Names of loggers in the library -/

/-- Whether a logger is that of the library or has a name that extends its name. -/
def InLibrary (name : String) : Prop :=
  name = libraryLogger ∨ (libraryLogger ++ ".").toList <+: name.toList

/-- The loggers of a list before the library's. -/
def belowLibrary (names : List String) : List String := names.takeWhile (· != libraryLogger)

/-- The level that rules a list of loggers, the closest first: that of the first one that a list of
modules gives a level, or a default level. -/
def rulingLevel (ms : List (ModuleLevel K)) (default : LogLevel) (names : List String) : LogLevel :=
  (names.findSome? (lastLevel? ms)).getD default

/-- Whether a record of a level passes the level of its logger and those of the library's
handlers. -/
def Loggers.Passes (loggers : Loggers) (name : String) (level : Int) : Prop :=
  loggers.isEnabled name level = true ∧
    ∀ handler ∈ (loggers.logger libraryLogger).handlers, handler.level ≤ level

/-- The name of a logger of the library starts with the name of the library. -/
theorem prefix_of_inLibrary {name : String} (h : InLibrary name) :
    libraryLogger.toList <+: name.toList := by
  obtain rfl | h := h
  · exact List.prefix_rfl
  · exact List.IsPrefix.trans ⟨['.'], by decide⟩ h

/-- A logger of the library is not the root of all loggers. -/
theorem canonical_ne_rootName {name : String} (h : libraryLogger.toList <+: name.toList) :
    canonical name ≠ rootName := by
  unfold canonical
  split
  · next hempty =>
    rw [hempty] at h
    exact absurd h (by decide)
  · rintro rfl
    exact absurd h (by decide)

/-- The names that a name in the library extends are in the library. -/
theorem prefix_of_mem_namesAbove_library {name n : String}
    (hname : libraryLogger.toList <+: name.toList) (hn : n ∈ namesAbove name.toList.reverse) :
    libraryLogger.toList <+: n.toList := by
  have hdot : n.toList ++ ['.'] <+: name.toList := by
    rw [← List.reverse_suffix]
    simpa using suffix_of_mem_namesAbove hn
  -- The library's name has no dot, so it ends before the one that follows the shorter name.
  have hnodot : '.' ∉ libraryLogger.toList := by decide
  rcases List.prefix_or_prefix_of_prefix hname hdot with h | h
  · rcases List.prefix_concat_iff.mp h with h | h
    · exact absurd (h ▸ by simp) hnodot
    · exact h
  · exact absurd (h.subset (by simp)) hnodot

section SingleDots

variable {name : String} (hname : InLibrary name) (hdots : ¬ ['.', '.'] <:+: name.toList)

include hname hdots

/-- The library's logger is above each logger of the library, or is that logger itself. -/
theorem libraryLogger_mem_names : libraryLogger ∈ name :: namesAbove name.toList.reverse := by
  obtain rfl | ⟨rest, hrest⟩ := hname
  · simp
  · have hsuffix : '.' :: 's' :: "emarfyp".toList <:+ name.toList.reverse :=
      ⟨rest.reverse, by rw [← hrest, List.reverse_append]; rfl⟩
    have hdots' : ¬ ['.', '.'] <:+: name.toList.reverse := by
      rwa [← List.reverse_infix, List.reverse_reverse]
    have hlibrary : String.ofList ('s' :: "emarfyp".toList).reverse = libraryLogger := by decide
    exact List.mem_cons_of_mem _ (hlibrary ▸ mem_namesAbove hdots' hsuffix)

/-- The names that a name in the library extends end with that of the library's logger. -/
theorem names_eq : name :: namesAbove name.toList.reverse =
    belowLibrary (name :: namesAbove name.toList.reverse) ++ [libraryLogger] := by
  obtain ⟨before, after, hsplit, hbefore⟩ :=
    List.eq_append_cons_of_mem (libraryLogger_mem_names hname hdots)
  have hafter : after = [] := by
    have hnone : namesAbove libraryLogger.toList.reverse = [] := by decide
    cases before with
    | nil =>
      obtain ⟨rfl, hafter⟩ := List.cons.inj hsplit
      exact hafter.symm.trans hnone
    | cons _ before =>
      have hdots' : ¬ ['.', '.'] <:+: name.toList.reverse := by
        rwa [← List.reverse_infix, List.reverse_reverse]
      exact (namesAbove_of_mem hdots' (List.cons.inj hsplit).2).symm.trans hnone
  have hbelow : belowLibrary (before ++ libraryLogger :: after) = before := by
    have hkept : ∀ n ∈ before, (n != libraryLogger) = true := fun n hn =>
      bne_iff_ne.mpr fun h => hbefore (h ▸ hn)
    rw [belowLibrary, List.takeWhile_append_of_pos hkept]
    simp
  rw [hsplit, hbelow, hafter]

end SingleDots

/-! ### Ruling levels -/

/-- No level has the number zero, which stands for a level that is not set. -/
theorem LogLevel.number_ne_zero (level : LogLevel) : level.number ≠ 0 := by
  cases level <;> decide

section Ruling

variable {ms : List (ModuleLevel K)} {default : LogLevel} {names : List String} {p : String → Bool}

/-- What is above the library's logger does not count for the loggers below it. -/
theorem belowLibrary_append (hmem : libraryLogger ∈ names) (rest : List String) :
    belowLibrary (names ++ rest) = belowLibrary names := by
  induction names with
  | nil => simp at hmem
  | cons n names ih =>
    by_cases hn : n = libraryLogger
    · simp [belowLibrary, hn]
    · have hmem' := (List.mem_cons.mp hmem).resolve_left (Ne.symm hn)
      simpa [belowLibrary, hn] using ih hmem'

/-- Loggers that are given no level do not rule. -/
theorem findSome?_belowLibrary_filter (hlibrary : p libraryLogger = true)
    (hnone : ∀ n, p n = false → lastLevel? ms n = none) :
    (belowLibrary (names.filter p)).findSome? (lastLevel? ms) =
      (belowLibrary names).findSome? (lastLevel? ms) := by
  induction names with
  | nil => rfl
  | cons n names ih =>
    by_cases hn : n = libraryLogger
    · simp [belowLibrary, hn, hlibrary]
    · cases hp : p n with
      | true =>
        simp only [belowLibrary, List.filter_cons_of_pos hp, List.takeWhile_cons, bne_iff_ne, ne_eq,
          hn, not_false_eq_true, if_true, List.findSome?_cons] at ih ⊢
        rw [ih]
      | false =>
        simp only [belowLibrary, List.filter_cons_of_neg (by simp [hp] : ¬ p n = true),
          List.takeWhile_cons, bne_iff_ne, ne_eq, hn, not_false_eq_true, if_true,
          List.findSome?_cons, hnone n hp] at ih ⊢
        exact ih

/-- Where every logger has the level that a list of modules gives it, and the library's the default
one, the first level on the way up is the ruling one. -/
theorem find_level {levelOf : String → Int} (hmem : libraryLogger ∈ names) (rest : List String)
    (hlevel : ∀ n ∈ names, levelOf n = if n = libraryLogger then default.number else
      ((lastLevel? ms n).map LogLevel.number).getD 0) :
    (((names ++ rest).map levelOf).find? (· ≠ 0)).getD 0 =
      (rulingLevel ms default (belowLibrary names)).number := by
  induction names with
  | nil => simp at hmem
  | cons n names ih =>
    have hn := hlevel n (by simp)
    by_cases hlibrary : n = libraryLogger
    · rw [if_pos hlibrary] at hn
      rw [List.cons_append, List.map_cons,
        List.find?_cons_of_pos (by simpa [hn] using default.number_ne_zero), Option.getD_some, hn]
      simp [hlibrary, rulingLevel, belowLibrary]
    · rw [if_neg hlibrary] at hn
      have hmem' := (List.mem_cons.mp hmem).resolve_left (Ne.symm hlibrary)
      have hbelow : belowLibrary (n :: names) = n :: belowLibrary names := by
        simp [belowLibrary, hlibrary]
      rw [hbelow, rulingLevel, List.findSome?_cons]
      cases hlast : lastLevel? ms n with
      | none =>
        rw [hlast, Option.map_none, Option.getD_none] at hn
        rw [List.cons_append, List.map_cons, List.find?_cons_of_neg (by simp [hn])]
        exact ih hmem' fun n hn => hlevel n (List.mem_cons_of_mem _ hn)
      | some level =>
        rw [hlast, Option.map_some, Option.getD_some] at hn
        rw [List.cons_append, List.map_cons,
          List.find?_cons_of_pos (by simpa [hn] using level.number_ne_zero), Option.getD_some, hn]
        rfl

end Ruling

/-! ### The session after a setup -/

namespace LogSession

/-- The last level of a module is the one that is noted for it. -/
theorem entry?_moduleLevels_withLevels (s : LogSession K) (ms : List (ModuleLevel K))
    (key : String) : Document.entry? (s.withLevels ms).config.moduleLevels key =
      ((ms.reverse.find? fun m => m.name == key).map ModuleLevel.given).or
        (Document.entry? s.config.moduleLevels key) := by
  induction ms generalizing s with
  | nil => rfl
  | cons m ms ih =>
    have hstep : s.withLevels (m :: ms) = (s.withLevel m).withLevels ms := rfl
    have hentry : Document.entry? (s.withLevel m).config.moduleLevels key =
        if m.name = key then some m.given else Document.entry? s.config.moduleLevels key :=
      Document.entry?_putEntry _ _ _ _
    rw [hstep, ih, hentry, List.reverse_cons, List.find?_append]
    by_cases h : m.name = key
    · cases ms.reverse.find? (fun m => m.name == key) <;> simp [h]
    · simp [h]

variable {s : LogSession K} {ms noted : List (ModuleLevel K)} {default : LogLevel} {name : String}

/-- The lowest level is at most the default level and at most each level of a module. -/
theorem lowestLevel_le (default : LogLevel) (noted : List (ModuleLevel K)) :
    lowestLevel default noted ≤ default.number ∧
      ∀ m ∈ noted, lowestLevel default noted ≤ m.level.number := by
  have hfold (levels : List LogLevel) (low : Int) :
      levels.foldl (fun low level => min low level.number) low ≤ low ∧
        ∀ level ∈ levels,
          levels.foldl (fun low level => min low level.number) low ≤ level.number := by
    induction levels generalizing low with
    | nil => simp
    | cons level levels ih =>
      obtain ⟨hlow, hlevels⟩ := ih (min low level.number)
      rw [List.foldl_cons]
      refine ⟨Int.le_trans hlow (Int.min_le_left _ _), fun other hother => ?_⟩
      rcases List.mem_cons.mp hother with rfl | hother
      · exact Int.le_trans hlow (Int.min_le_right _ _)
      · exact hlevels other hother
  obtain ⟨hlow, hlevels⟩ := hfold (noted.map ModuleLevel.level) default.number
  exact ⟨hlow, fun m hm => hlevels m.level (List.mem_map_of_mem hm)⟩

/-- The last module that gives a logger its level is noted. -/
theorem exists_noted_of_lastLevel?
    (hnoted : (s.withLevels ms).config.moduleLevels = noted.map ModuleLevel.entry)
    {level : LogLevel} (hlast : lastLevel? ms name = some level) :
    ∃ m ∈ noted, m.level = level := by
  obtain ⟨m, hfind, rfl⟩ := Option.map_eq_some_iff.mp hlast
  have hexact : ms.reverse.find? (fun m' => m'.name == m.name) = some m := by
    obtain ⟨hm, before, after, hsplit, hbefore⟩ := List.find?_eq_some_iff_append.mp hfind
    refine List.find?_eq_some_iff_append.mpr ⟨by simp, before, after, hsplit, fun m' hm' => ?_⟩
    have hother := hbefore m' hm'
    rw [beq_iff_eq] at hm
    simp only [Bool.not_eq_true', beq_eq_false_iff_ne, ne_eq] at hother ⊢
    exact fun h => hother (h ▸ hm)
  have hentry := entry?_moduleLevels_withLevels s ms m.name
  rw [hexact, Option.map_some, Option.some_or, hnoted, Document.entry?,
    Option.map_eq_some_iff] at hentry
  obtain ⟨entry, hentry, hgiven⟩ := hentry
  obtain ⟨m', hm', rfl⟩ := List.mem_map.mp (List.mem_of_find?_eq_some hentry)
  refine ⟨m', hm', ?_⟩
  have hsame : LogLevel.ofDocument m.given = .ok m'.level := hgiven ▸ m'.isKnown
  exact Except.ok.inj (hsame.symm.trans m.isKnown)

/-- What rules a logger is noted, so the handlers' level is not above it. -/
theorem lowestLevel_le_rulingLevel
    (hnoted : (s.withLevels ms).config.moduleLevels = noted.map ModuleLevel.entry)
    (names : List String) :
    lowestLevel default noted ≤ (rulingLevel ms default names).number := by
  obtain ⟨hdefault, hmodules⟩ := lowestLevel_le default noted
  unfold rulingLevel
  cases hruling : names.findSome? (lastLevel? ms) with
  | none => exact hdefault
  | some level =>
    obtain ⟨name, -, hlast⟩ := List.exists_of_findSome?_eq_some hruling
    obtain ⟨m, hm, rfl⟩ := exists_noted_of_lastLevel? hnoted hlast
    exact hmodules m hm

section Handlers

variable [Scalar K]

/-- With its console at work the library's logger has the default level, and no other level
changed. -/
theorem level_withConsole : ((s.withConsole default).loggers.logger name).level =
    if canonical name = libraryLogger then default.number else (s.loggers.logger name).level := by
  have hlibrary : canonical libraryLogger = libraryLogger := by decide
  simp only [withConsole, install, logger_setLogger, hlibrary]
  split <;> rfl

/-- The console's handler brings the library's logger into being and no other one. -/
theorem isUsed_withConsole : (s.withConsole default).loggers.isUsed name =
    (decide (canonical name = libraryLogger) || s.loggers.isUsed name) := by
  have hlibrary : canonical libraryLogger = libraryLogger := by decide
  simp only [withConsole, install, isUsed_setLogger, hlibrary]

/-- Until the log file is opened, the one handler is that for the console. -/
theorem handlers_withConsole :
    ((s.withConsole default).loggers.logger libraryLogger).handlers =
      if s.config.console.isYes then [⟨.console, default.number⟩] else [] := by
  simp only [withConsole, install, logger_setLogger, if_true]

/-- The handler for the log file changes no level. -/
theorem level_installed : ((s.installed default).loggers.logger name).level =
    ((s.withConsole default).loggers.logger name).level := by
  unfold installed
  cases s.config.file.isYes with
  | false => rfl
  | true => exact level_setHandlers

/-- An installation with a log file brings no other logger into being. -/
theorem isUsed_installed : (s.installed default).loggers.isUsed name =
    (s.withConsole default).loggers.isUsed name := by
  have hlibrary : canonical libraryLogger = libraryLogger := by decide
  unfold installed
  cases s.config.file.isYes with
  | false => rfl
  | true =>
    simp only [if_true, addFile, isUsed_setHandlers, isUsed_withConsole, hlibrary, ← Bool.or_assoc,
      Bool.or_self]

/-- The level of the handlers changes no level of a logger. -/
theorem level_withHandlers : ((s.withHandlers default noted).loggers.logger name).level =
    ((s.withConsole default).loggers.logger name).level :=
  level_setHandlers.trans level_installed

/-- All handlers that were installed have the lowest level. -/
theorem level_of_mem_handlers {handler : LogHandler}
    (h : handler ∈ ((s.withHandlers default noted).loggers.logger libraryLogger).handlers) :
    handler.level = lowestLevel default noted := by
  simp only [withHandlers, setHandlerLevels, handlers_setHandlers, List.mem_map] at h
  obtain ⟨_, -, rfl⟩ := h
  rfl

/-- Setting the levels of handlers brings no logger into being. -/
theorem isUsed_withHandlers : (s.withHandlers default noted).loggers.isUsed name =
    (s.withConsole default).loggers.isUsed name := by
  have hlibrary : canonical libraryLogger = libraryLogger := by decide
  simp only [withHandlers, setHandlerLevels, isUsed_setHandlers, isUsed_installed,
    isUsed_withConsole, hlibrary, ← Bool.or_assoc, Bool.or_self]

end Handlers

end LogSession

/-! ### What records pass -/

/-- Loggers that were given levels of modules, and the library's a default level. -/
structure Loggers.HaveLevels (loggers : Loggers) (ms : List (ModuleLevel K))
    (default : LogLevel) : Prop where
  level_eq : ∀ name, canonical name ≠ rootName → (loggers.logger name).level =
    if name = libraryLogger then default.number else
      ((lastLevel? ms name).map LogLevel.number).getD 0
  library_used : loggers.isUsed libraryLogger = true
  unused_unlisted : ∀ name, loggers.isUsed name = false → lastLevel? ms name = none

namespace Loggers.HaveLevels

variable {loggers : Loggers} {ms : List (ModuleLevel K)} {default : LogLevel} {name : String}

/-- The level of a logger below the library's is the ruling one. -/
theorem effectiveLevel_eq (h : loggers.HaveLevels ms default)
    (hmem : libraryLogger ∈ loggers.chain name) :
    loggers.effectiveLevel name =
      (rulingLevel ms default (belowLibrary (loggers.chain name))).number := by
  obtain ⟨names, hchain, hroot⟩ := chain_ends loggers name
  rw [hchain] at hmem
  have hmem' : libraryLogger ∈ names := by
    rcases List.mem_append.mp hmem with hmem | hmem
    · exact hmem
    · exact absurd (List.mem_singleton.mp hmem) (by decide)
  rw [effectiveLevel, hchain, belowLibrary_append hmem']
  exact find_level hmem' _ fun n hn => h.level_eq n (hroot n hn)

/-- A record passes if it is not below the ruling level, nor below that of a handler. -/
theorem passes_iff (h : loggers.HaveLevels ms default) (level : Int)
    (hmem : libraryLogger ∈ loggers.chain name) :
    loggers.Passes name level ↔
      (rulingLevel ms default (belowLibrary (loggers.chain name))).number ≤ level ∧
        ∀ handler ∈ (loggers.logger libraryLogger).handlers, handler.level ≤ level := by
  unfold Passes isEnabled
  rw [decide_eq_true_eq, h.effectiveLevel_eq hmem]

/-- Names without a logger do not matter on the way up, since no module has such a name. -/
theorem rulingLevel_chain (h : loggers.HaveLevels ms default) (hname : InLibrary name)
    (hdots : ¬ ['.', '.'] <:+: name.toList) :
    libraryLogger ∈ loggers.chain name ∧
      rulingLevel ms default (belowLibrary (loggers.chain name)) =
        rulingLevel ms default (belowLibrary (name :: namesAbove name.toList.reverse)) := by
  have hprefix := prefix_of_inLibrary hname
  have hroot : ∀ n ∈ name :: namesAbove name.toList.reverse, canonical n ≠ rootName := by
    intro n hn
    rcases List.mem_cons.mp hn with rfl | hn
    · exact canonical_ne_rootName hprefix
    · exact canonical_ne_rootName (prefix_of_mem_namesAbove_library hprefix hn)
  have hmem := libraryLogger_mem_names hname hdots
  rw [chain_eq hdots hroot, List.cons_append]
  by_cases hlibrary : name = libraryLogger
  · simp [hlibrary, belowLibrary]
  · have habove := (List.mem_cons.mp hmem).resolve_left (Ne.symm hlibrary)
    have hfilter : libraryLogger ∈ (namesAbove name.toList.reverse).filter loggers.isUsed :=
      List.mem_filter.mpr ⟨habove, h.library_used⟩
    have hcons (names : List String) :
        belowLibrary (name :: names) = name :: belowLibrary names := by
      simp [belowLibrary, hlibrary]
    refine ⟨List.mem_cons_of_mem _ (List.mem_append_left _ hfilter), ?_⟩
    rw [hcons, hcons, belowLibrary_append hfilter, rulingLevel, rulingLevel, List.findSome?_cons,
      List.findSome?_cons, findSome?_belowLibrary_filter h.library_used h.unused_unlisted]

end Loggers.HaveLevels

/-- Where the library's logger is not listed, leaving it out makes no difference. -/
theorem rulingLevel_names {ms : List (ModuleLevel K)} {default : LogLevel} {name : String}
    (hlibrary : lastLevel? ms libraryLogger = none) (hname : InLibrary name)
    (hdots : ¬ ['.', '.'] <:+: name.toList) :
    rulingLevel ms default (belowLibrary (name :: namesAbove name.toList.reverse)) =
      rulingLevel ms default (name :: namesAbove name.toList.reverse) := by
  conv_rhs => rw [names_eq hname hdots]
  simp [rulingLevel, List.findSome?_append, hlibrary]

/-- Which records pass loggers that were set up with levels of modules and a default level: those
of at least the level that rules their logger. It is the level of the closest logger above that one
which the modules list, up to the library's and without it, or else the default level. -/
structure Loggers.PassAsRuled (loggers : Loggers) (ms : List (ModuleLevel K))
    (default : LogLevel) : Prop where
  /-- Below the library's logger the loggers above one are those of its chain. -/
  passes_iff : ∀ name level, libraryLogger ∈ loggers.chain name →
    (loggers.Passes name level ↔
      (rulingLevel ms default (belowLibrary (loggers.chain name))).number ≤ level)
  /-- A name without two dots side by side has all names that it extends above it. -/
  passes_iff_of_inLibrary : ∀ name level, InLibrary name → ¬ ['.', '.'] <:+: name.toList →
    (loggers.Passes name level ↔
      (rulingLevel ms default
        (belowLibrary (name :: namesAbove name.toList.reverse))).number ≤ level)
  /-- Where the library's logger is not listed, the closest logger of all that are listed rules. -/
  passes_iff_of_unlisted : lastLevel? ms libraryLogger = none →
    ∀ name level, InLibrary name → ¬ ['.', '.'] <:+: name.toList →
      (loggers.Passes name level ↔
        (rulingLevel ms default (name :: namesAbove name.toList.reverse)).number ≤ level)

/-- Handlers that are not above the ruling levels let through what the loggers let through. -/
theorem Loggers.HaveLevels.passAsRuled {loggers : Loggers} {ms : List (ModuleLevel K)}
    {default : LogLevel} (h : loggers.HaveLevels ms default)
    (hhandlers : ∀ names, ∀ handler ∈ (loggers.logger libraryLogger).handlers,
      handler.level ≤ (rulingLevel ms default names).number) :
    loggers.PassAsRuled ms default := by
  have hpasses (name : String) (level : Int) (hmem : libraryLogger ∈ loggers.chain name) :
      loggers.Passes name level ↔
        (rulingLevel ms default (belowLibrary (loggers.chain name))).number ≤ level := by
    rw [h.passes_iff level hmem]
    exact ⟨And.left, fun hle => ⟨hle, fun handler hhandler =>
      Int.le_trans (hhandlers _ handler hhandler) hle⟩⟩
  have hsingle (name : String) (level : Int) (hname : InLibrary name)
      (hdots : ¬ ['.', '.'] <:+: name.toList) :
      loggers.Passes name level ↔
        (rulingLevel ms default
          (belowLibrary (name :: namesAbove name.toList.reverse))).number ≤ level := by
    obtain ⟨hmem, hruling⟩ := h.rulingLevel_chain hname hdots
    exact hruling ▸ hpasses name level hmem
  refine ⟨hpasses, hsingle, fun hlibrary name level hname hdots => ?_⟩
  rw [← rulingLevel_names hlibrary hname hdots]
  exact hsingle name level hname hdots

section SetUp

variable [Scalar K] {entries : List (String × Document K)} {ms : List (ModuleLevel K)}
  {default : LogLevel} {loggers : Loggers}

/-- What levels of modules and a console leave, where no level was set before. -/
theorem haveLevels_withConsole {start : LogSession K} (default : LogLevel)
    (hunset : ∀ name, canonical name ≠ rootName → (start.loggers.logger name).level = 0) :
    ((start.withLevels ms).withConsole default).loggers.HaveLevels ms default where
  level_eq name hname := by
    have hsame : canonical name = name := by
      unfold canonical at hname ⊢
      split
      · next hempty => exact absurd (if_pos hempty) hname
      · rfl
    rw [level_withConsole, hsame, loggers_withLevels, logger_withLevels, hunset name hname]
  library_used := by
    rw [isUsed_withConsole]
    simp [show canonical libraryLogger = libraryLogger by decide]
  unused_unlisted name hunused := by
    rw [isUsed_withConsole, loggers_withLevels, isUsed_withLevels] at hunused
    simp only [Bool.or_eq_false_iff, Option.isSome_eq_false_iff, Option.isNone_iff_eq_none]
      at hunused
    exact hunused.2.1

/-- What is done to handlers leaves the levels of the loggers as they are. -/
theorem haveLevels_withHandlers {s : LogSession K} {noted : List (ModuleLevel K)}
    (h : (s.withConsole default).loggers.HaveLevels ms default) :
    (s.withHandlers default noted).loggers.HaveLevels ms default where
  level_eq name hname := level_withHandlers.trans (h.level_eq name hname)
  library_used := isUsed_withHandlers.trans h.library_used
  unused_unlisted name hunused := h.unused_unlisted name (isUsed_withHandlers.symm.trans hunused)

/-- After a setup from loggers without levels, a record passes its logger and the handlers exactly
if its level is at least the one that rules the logger. If a log file is given and cannot be opened,
the setup fails with that and the console's handler is left at the default level, so that no record
below it passes. -/
theorem setUp_passes_iff (opens : String → Bool)
    (hdefault : LogLevel.ofDocument
      ((Document.entry? entries "default_level").getD (.text LogLevel.info.name)) = .ok default)
    (hmodules : modulesOf entries = .table (ms.map ModuleLevel.entry))
    (hunset : ∀ name, canonical name ≠ rootName → (loggers.logger name).level = 0) :
    ∃ s, (setUp opens (.table entries)).ending { loggers := loggers } =
        ((settingsOf entries).opening opens, s) ∧
      ((settingsOf entries).opening opens = .ok () → s.loggers.PassAsRuled ms default) ∧
      ∀ fault, (settingsOf entries).opening opens = .error fault →
        ∀ name level, libraryLogger ∈ s.loggers.chain name →
          (s.loggers.Passes name level ↔
            (rulingLevel ms default (belowLibrary (s.loggers.chain name))).number ≤ level ∧
              ((settingsOf entries).console.isYes → default.number ≤ level)) := by
  let start := LogSession.withSettings { loggers := loggers } entries
  obtain ⟨noted, hnoted⟩ := exists_moduleLevels_withLevels (s := start) rfl ms
  have hlevels : ((start.withLevels ms).withConsole default).loggers.HaveLevels ms default :=
    haveLevels_withConsole default hunset
  have hconfigured : (setUp opens (.table entries)).ending { loggers := loggers } =
      (setUpAll opens).ending (start.withLevels ms) :=
    ending_setUp_of_ok opens rfl (ending_configure_of_known hmodules _)
  have hdefault' : LogLevel.ofDocument (start.withLevels ms).config.defaultLevel = .ok default := by
    rw [defaultLevel_withLevels]
    exact hdefault
  have hopens : (start.withLevels ms).config.opening opens =
      (settingsOf entries).opening opens := by
    rw [config_withLevels]
    rfl
  cases hopening : (settingsOf entries).opening opens with
  | ok u =>
    refine ⟨_, hconfigured.trans (ending_setUpAll hdefault' (hopens.trans hopening) hnoted),
      fun _ => ?_, nofun⟩
    refine (haveLevels_withHandlers hlevels).passAsRuled fun names handler hhandler => ?_
    rw [level_of_mem_handlers hhandler]
    exact lowestLevel_le_rulingLevel hnoted names
  | error fault =>
    refine ⟨_, hconfigured.trans
      (ending_setUpAll_of_unopened hdefault' (hopens.trans hopening)), nofun, ?_⟩
    intro _ _ name level hmem
    have hconsole : (start.withLevels ms).config.console = (settingsOf entries).console := by
      rw [config_withLevels]
      rfl
    rw [hlevels.passes_iff level hmem, handlers_withConsole, hconsole]
    cases (settingsOf entries).console.isYes <;> simp

end SetUp

/-- The level of one module. -/
def framesDebug : ModuleLevel Float := ⟨"pyframes.frames", .text "DEBUG", .debug, rfl⟩

/-- Settings with a level for that module, a default level and a log file. -/
def framesSettings : List (String × Document Float) :=
  [("default_level", .text "warning"), ("log_file", .text "frames.log"),
    ("module_levels", .table [framesDebug.entry])]

/-- A debug record passes on a logger below the module, and on no other one in the library. Where
the log file cannot be opened, it passes on neither. -/
theorem framesSettings_passes :
    (∃ s, (setUp (· == "frames.log") (.table framesSettings)).ending {} = (.ok (), s) ∧
      s.loggers.Passes "pyframes.frames.providers" 10 ∧
      ¬ s.loggers.Passes "pyframes.core" 10) ∧
    ∃ s, (setUp (fun _ => false) (.table framesSettings)).ending {} =
        (.error (.fileNotOpened "frames.log"), s) ∧
      ¬ s.loggers.Passes "pyframes.frames.providers" 10 := by
  have hunset (name : String) (hname : canonical name ≠ rootName) :
      (({} : Loggers).logger name).level = 0 := if_neg hname
  have hmodules : modulesOf framesSettings = .table ([framesDebug].map ModuleLevel.entry) := rfl
  constructor
  · obtain ⟨s, hending, hpasses, -⟩ :=
      setUp_passes_iff (· == "frames.log") rfl hmodules hunset
    have hruled := hpasses rfl
    refine ⟨s, hending, ?_, ?_⟩
    · rw [hruled.passes_iff_of_inLibrary _ _ (.inr (by decide)) (by decide +kernel)]
      decide +kernel
    · rw [hruled.passes_iff_of_inLibrary _ _ (.inr (by decide)) (by decide +kernel)]
      decide +kernel
  · obtain ⟨s, hending, -, hpasses⟩ := setUp_passes_iff (fun _ => false) rfl hmodules hunset
    have hmem : libraryLogger ∈ s.loggers.chain "pyframes.frames.providers" := by
      obtain rfl : ((setUp (fun _ => false) (.table framesSettings)).ending {}).2 = s :=
        congrArg Prod.snd hending
      decide +kernel
    refine ⟨s, hending, fun h => ?_⟩
    have hconsole := ((hpasses _ rfl _ 10 hmem).mp h).2 rfl
    exact absurd hconsole (by decide)

/-- The level that settings give the logger of the library itself is lost. Its handlers would write
a debug record, but the logger does not let it through. -/
theorem library_level_lost :
    ∃ s : LogSession Float,
      (setUp (fun _ => true)
        (.table [("module_levels", .table [("pyframes", .text "DEBUG")])])).ending {} =
        (.ok (), s) ∧
      (s.loggers.logger libraryLogger).handlers = [⟨.console, 10⟩] ∧
      s.loggers.effectiveLevel libraryLogger = 20 ∧ ¬ s.loggers.Passes libraryLogger 10 := by
  refine ⟨_, rfl, by rfl, by decide +kernel, fun h => absurd h.1 (by decide +kernel)⟩

end FrameKinematics
