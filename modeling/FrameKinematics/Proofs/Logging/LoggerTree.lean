import Mathlib.Data.List.Basic
import FrameKinematics.Logging.Setup

/-!
# The tree of loggers

Replacing a logger changes what is under its own name and nothing else, and using a logger changes
no level and no handler. A logger and those above it are listed with the root at the end. Where no
two dots of a name are side by side, those above it are all names that it extends and that were
used, in order: besides the longest of these names it extends just the names that this one extends.
-/

namespace FrameKinematics.Loggers

variable {loggers : Loggers} {name other : String} {logger : Logger}

/-! ### Replacing loggers -/

/-- A logger that is set is found under all spellings of its name, and the others stay as they
are. -/
theorem logger_setLogger :
    (loggers.setLogger name logger).logger other =
      if canonical other = canonical name then logger else loggers.logger other := by
  by_cases hsame : canonical other = canonical name
  · simp only [setLogger, Loggers.logger, hsame, if_true]
    rw [List.find?_cons_of_pos (by simp)]
  · have hskip (entry : String × Logger) :
        decide ((entry.1 != canonical name) = true ∧ (entry.1 == canonical other) = true) =
          (entry.1 == canonical other) := by
      by_cases h : entry.1 = canonical other
      · simp [h, hsame]
      · simp [h]
    simp only [setLogger, Loggers.logger]
    rw [if_neg hsame, List.find?_cons_of_neg (by simpa using Ne.symm hsame), List.find?_filter]
    simp only [hskip]

/-- Setting a logger brings it into being. -/
theorem isUsed_setLogger :
    (loggers.setLogger name logger).isUsed other =
      (decide (canonical other = canonical name) || loggers.isUsed other) := by
  rw [Bool.eq_iff_iff]
  simp only [isUsed, setLogger, List.any_cons, List.any_filter, Bool.or_eq_true, beq_iff_eq,
    List.any_eq_true, Bool.and_eq_true, bne_iff_ne, decide_eq_true_eq]
  constructor
  · rintro (hsame | ⟨entry, hmem, -, hentry⟩)
    · exact .inl hsame.symm
    · exact .inr ⟨entry, hmem, hentry⟩
  · rintro (hsame | ⟨entry, hmem, hentry⟩)
    · exact .inl hsame.symm
    · by_cases h : canonical name = canonical other
      · exact .inl h
      · exact .inr ⟨entry, hmem, fun h' => h (h'.symm.trans hentry), hentry⟩

/-- Using a logger changes no level and no handler. -/
@[simp] theorem logger_use : (loggers.use name).logger other = loggers.logger other := by
  unfold use
  split
  · rfl
  · rw [logger_setLogger]
    split
    · next hsame => simp only [Loggers.logger, hsame]
    · rfl

/-- Using a logger brings it into being. -/
theorem isUsed_use :
    (loggers.use name).isUsed other =
      (decide (canonical other = canonical name) || loggers.isUsed other) := by
  unfold use
  split
  · next hused =>
    by_cases hsame : canonical other = canonical name
    · simp only [isUsed, hsame] at hused ⊢
      simp [hused]
    · simp [hsame]
  · exact isUsed_setLogger

/-- Setting a level changes nothing else of the loggers. -/
theorem logger_setLevel {level : Int} :
    (loggers.setLevel name level).logger other =
      if canonical other = canonical name then { loggers.logger other with level := level }
      else loggers.logger other := by
  rw [setLevel, logger_setLogger]
  split
  · next hsame => simp only [Loggers.logger, hsame]
  · rfl

/-- Setting a level brings the logger into being. -/
theorem isUsed_setLevel {level : Int} :
    (loggers.setLevel name level).isUsed other =
      (decide (canonical other = canonical name) || loggers.isUsed other) := isUsed_setLogger

/-! ### The names that a name extends -/

/-- A character that is no dot ends no name of a logger above. -/
theorem namesAbove_cons_of_ne {c : Char} (hc : c ≠ '.') (cs : List Char) :
    namesAbove (c :: cs) = namesAbove cs := by
  cases cs <;> simp [namesAbove, hc]

/-- A name extends each of the names above it by a dot. -/
theorem suffix_of_mem_namesAbove {cs : List Char} {n : String} (hn : n ∈ namesAbove cs) :
    '.' :: n.toList.reverse <:+ cs := by
  fun_induction namesAbove cs with
  | case1 => simp at hn
  | case2 c rest ih =>
    rcases List.mem_cons.mp hn with rfl | hn
    · simp
    · exact (ih hn).trans ((List.suffix_cons c rest).trans (List.suffix_cons '.' _))
  | case3 c rest _ ih => exact (ih hn).trans (List.suffix_cons c rest)

/-- The name of a logger above begins the name of the logger. -/
theorem prefix_of_mem_namesAbove {n : String} (hn : n ∈ namesAbove name.toList.reverse) :
    n.toList <+: name.toList := by
  have hsuffix := (List.suffix_cons _ _).trans (suffix_of_mem_namesAbove hn)
  rwa [List.reverse_suffix] at hsuffix

/-- The name of a logger above is shorter. -/
theorem length_lt_of_mem_namesAbove {n : String} (hn : n ∈ namesAbove name.toList.reverse) :
    n.length < name.length := by
  have hlength := (suffix_of_mem_namesAbove hn).length_le
  simp only [List.length_cons, List.length_reverse, String.length_toList] at hlength
  omega

section SingleDots

variable {cs : List Char} (hdots : ¬ ['.', '.'] <:+: cs)

include hdots

/-- After a dot comes another character, so nothing is left out of the names above. -/
theorem mem_namesAbove {c : Char} {rest : List Char} (hrest : '.' :: c :: rest <:+ cs) :
    String.ofList (c :: rest).reverse ∈ namesAbove cs := by
  fun_induction namesAbove cs with
  | case1 => simp at hrest
  | case2 d rest' ih =>
    rcases List.suffix_cons_iff.mp hrest with heq | hrest
    · obtain ⟨rfl, rfl⟩ : c = d ∧ rest = rest' := by simpa using heq
      simp
    · rcases List.suffix_cons_iff.mp hrest with heq | hrest
      · obtain ⟨rfl, -⟩ : '.' = d ∧ c :: rest = rest' := by simpa using heq
        exact absurd ⟨[], rest', rfl⟩ hdots
      · refine List.mem_cons_of_mem _ (ih (fun h => hdots ?_) hrest)
        exact h.trans ((List.suffix_cons d rest').trans (List.suffix_cons '.' _)).isInfix
  | case3 d rest' hnext ih =>
    rcases List.suffix_cons_iff.mp hrest with heq | hrest
    · obtain ⟨rfl, rfl⟩ : '.' = d ∧ c :: rest = rest' := by simpa using heq
      exact absurd rfl (hnext c rest rfl)
    · exact ih (fun h => hdots (h.trans (List.suffix_cons d rest').isInfix)) hrest

/-- What a name extends is extended in turn by the names before it in the list. -/
theorem namesAbove_of_mem {before after : List String} {n : String}
    (hsplit : namesAbove cs = before ++ n :: after) : namesAbove n.toList.reverse = after := by
  fun_induction namesAbove cs generalizing before with
  | case1 => simp at hsplit
  | case2 c rest ih =>
    have hc : c ≠ '.' := fun h => hdots ⟨[], rest, by simp [h]⟩
    cases before with
    | nil =>
      obtain ⟨rfl, rfl⟩ := List.cons.inj hsplit
      simpa using namesAbove_cons_of_ne hc rest
    | cons _ before =>
      refine ih (fun h => hdots ?_) (List.cons.inj hsplit).2
      exact h.trans ((List.suffix_cons c rest).trans (List.suffix_cons '.' _)).isInfix
  | case3 c rest _ ih =>
    exact ih (fun h => hdots (h.trans (List.suffix_cons c rest).isInfix)) hsplit

end SingleDots

/-! ### A logger and those above it -/

/-- The root is the last one, and no other logger stands for it. -/
theorem chain_ends (loggers : Loggers) (name : String) : ∃ names,
    loggers.chain name = names ++ [rootName] ∧ ∀ n ∈ names, canonical n ≠ rootName := by
  have hwithin : ∀ fuel name, ∃ names, loggers.chainWithin fuel name = names ++ [rootName] ∧
      ∀ n ∈ names, canonical n ≠ rootName := by
    intro fuel
    induction fuel with
    | zero => exact fun _ => ⟨[], rfl, by simp⟩
    | succ fuel ih =>
      intro name
      rw [chainWithin]
      split
      · exact ⟨[], rfl, by simp⟩
      · next hname =>
        cases loggers.parent? name with
        | none => exact ⟨[name], rfl, by simpa using hname⟩
        | some above =>
          obtain ⟨names, hnames, hroot⟩ := ih above
          refine ⟨name :: names, by simp [hnames], ?_⟩
          simpa using ⟨hname, hroot⟩
  exact hwithin _ name

/-- Where no two dots are side by side, the loggers above are all names above that were used. -/
theorem chain_eq (hdots : ¬ ['.', '.'] <:+: name.toList)
    (hroot : ∀ n ∈ name :: namesAbove name.toList.reverse, canonical n ≠ rootName) :
    loggers.chain name =
      name :: (namesAbove name.toList.reverse).filter loggers.isUsed ++ [rootName] := by
  have hwithin : ∀ fuel name, name.length < fuel → ¬ ['.', '.'] <:+: name.toList →
      (∀ n ∈ name :: namesAbove name.toList.reverse, canonical n ≠ rootName) →
      loggers.chainWithin fuel name =
        name :: (namesAbove name.toList.reverse).filter loggers.isUsed ++ [rootName] := by
    intro fuel
    induction fuel with
    | zero => exact fun name hfuel => absurd hfuel (by omega)
    | succ fuel ih =>
      intro name hfuel hdots hroot
      have hdots' : ¬ ['.', '.'] <:+: name.toList.reverse := by
        rwa [← List.reverse_infix, List.reverse_reverse]
      rw [chainWithin, if_neg (hroot name (by simp)), parent?]
      cases hfound : (namesAbove name.toList.reverse).find? loggers.isUsed with
      | none =>
        rw [List.filter_eq_nil_iff.mpr (List.find?_eq_none.mp hfound)]
        rfl
      | some above =>
        obtain ⟨hused, before, after, hsplit, hunused⟩ := List.find?_eq_some_iff_append.mp hfound
        have hmem : above ∈ namesAbove name.toList.reverse := by simp [hsplit]
        have hafter := namesAbove_of_mem hdots' hsplit
        have hshort := length_lt_of_mem_namesAbove hmem
        have habove : ¬ ['.', '.'] <:+: above.toList := fun h =>
          hdots (h.trans (prefix_of_mem_namesAbove hmem).isInfix)
        have hbefore : before.filter loggers.isUsed = [] :=
          List.filter_eq_nil_iff.mpr (by simpa using hunused)
        have hrest := ih above (by omega) habove fun n hn => hroot n <| by
          rw [hafter] at hn
          rw [hsplit]
          simp only [List.mem_cons, List.mem_append] at hn ⊢
          tauto
        rw [Option.elim_some, hrest, hafter, hsplit, List.filter_append, hbefore,
          List.filter_cons_of_pos hused]
        rfl
  exact hwithin _ name (by omega) hdots hroot

end FrameKinematics.Loggers
