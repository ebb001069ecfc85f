import FrameKinematics.Proofs.Source.Runs

/-!
# Runs over lists

A run over a list does the same with each item, in the memory that the items before it left, and
ends with the first failure. The moments of such a run are the items that it comes to, each with
the memory that it finds. What each step preserves, with the items passed so far in view, the
whole run preserves.
-/

namespace FrameKinematics.Run

variable {K α β : Type} (f : α → Run K β)

/-- The items that a run over a list comes to, each with the memory that it finds. -/
def moments : List α → Memory K → List (α × Memory K)
  | [], _ => []
  | a :: as, memory =>
    (a, memory) ::
      match (f a).outcome memory with
      | .ok _ => moments as ((f a).after memory)
      | .error _ => []

/-- The items that a run over a list passes with success. -/
def passed (as : List α) (memory : Memory K) : List α :=
  ((moments f as memory).filter fun moment => ((f moment.1).outcome moment.2).isOk).map Prod.fst

variable {f} {a : α} {as : List α} {memory : Memory K}

/-- A run over a list passes an item that succeeds and goes on. -/
theorem passed_cons_of_ok {b : β} (h : (f a).outcome memory = .ok b) :
    passed f (a :: as) memory = a :: passed f as ((f a).after memory) := by
  simp [passed, moments, h, Except.isOk, Except.toBool]

/-- A run over a list passes nothing from an item that fails. -/
theorem passed_cons_of_error {fault : Fault K} (h : (f a).outcome memory = .error fault) :
    passed f (a :: as) memory = [] := by
  simp [passed, moments, h, Except.isOk, Except.toBool]

/-- A run passes the first items of a list. -/
theorem passed_starts (as : List α) (memory : Memory K) : passed f as memory <+: as := by
  induction as generalizing memory with
  | nil => exact List.prefix_rfl
  | cons a as ih =>
    cases h : (f a).outcome memory with
    | ok b =>
      rw [passed_cons_of_ok h]
      exact (List.prefix_cons_inj a).mpr (ih _)
    | error fault =>
      rw [passed_cons_of_error h]
      exact List.nil_prefix

/-- Giving a value for the result of a run changes nothing in memory. -/
theorem after_bind_pure {γ : Type} (x : Run K α) (g : α → γ) (memory : Memory K) :
    (x >>= fun a => pure (g a)).after memory = x.after memory := by
  rw [after_bind]
  cases x.outcome memory <;> rfl

/-- After an item that succeeds, a run over a list leaves what the rest leaves from there. -/
theorem after_mapM_cons_of_ok {b : β} (h : (f a).outcome memory = .ok b) :
    ((a :: as).mapM f).after memory = (as.mapM f).after ((f a).after memory) := by
  rw [List.mapM_cons, after_bind_of_ok h, after_bind_pure]

/-- After an item that fails, a run over a list leaves what this item left. -/
theorem after_mapM_cons_of_error {fault : Fault K} (h : (f a).outcome memory = .error fault) :
    ((a :: as).mapM f).after memory = (f a).after memory := by
  rw [List.mapM_cons, after_bind_of_error h]

/-- What holds of the items passed and the memory left after each step, whether it succeeds or
fails, holds after the run. -/
theorem mapM_invariant {P : List α → Memory K → Prop}
    (hok : ∀ done a memory b, P done memory → (f a).outcome memory = .ok b →
      P (done ++ [a]) ((f a).after memory))
    (herror : ∀ done a memory fault, P done memory → (f a).outcome memory = .error fault →
      P done ((f a).after memory))
    {done : List α} (hP : P done memory) (as : List α) :
    P (done ++ passed f as memory) ((as.mapM f).after memory) := by
  induction as generalizing done memory with
  | nil => simpa [passed, moments] using hP
  | cons a as ih =>
    cases h : (f a).outcome memory with
    | ok b =>
      have hrest := ih (hok done a memory b hP h)
      rw [passed_cons_of_ok h, after_mapM_cons_of_ok h]
      rwa [List.append_assoc] at hrest
    | error fault =>
      rw [passed_cons_of_error h, after_mapM_cons_of_error h, List.append_nil]
      exact herror done a memory fault hP h

/-- A run that succeeds passes all items. -/
theorem passed_of_mapM_eq_ok {bs : List β} (h : (as.mapM f).outcome memory = .ok bs) :
    passed f as memory = as := by
  induction as generalizing memory bs with
  | nil => rfl
  | cons a as ih =>
    rw [List.mapM_cons, outcome_bind] at h
    obtain ⟨b, hfirst, h⟩ := exists_of_bind_eq_ok h
    rw [outcome_bind] at h
    obtain ⟨bs, hrest, -⟩ := exists_of_bind_eq_ok h
    rw [passed_cons_of_ok hfirst, ih hrest]

/-- A failure at one of its moments ends the run. -/
theorem mapM_of_failure {moment : α × Memory K} (hmoment : moment ∈ moments f as memory)
    {fault : Fault K} (hfails : (f moment.1).outcome moment.2 = .error fault) :
    (as.mapM f).outcome memory = .error fault ∧
      (as.mapM f).after memory = (f moment.1).after moment.2 := by
  induction as generalizing memory with
  | nil => cases hmoment
  | cons a as ih =>
    cases h : (f a).outcome memory with
    | ok b =>
      rw [moments, h, List.mem_cons] at hmoment
      rcases hmoment with rfl | hmoment
      · rw [h] at hfails
        cases hfails
      · obtain ⟨hresult, hleft⟩ := ih hmoment
        rw [after_mapM_cons_of_ok h, List.mapM_cons, outcome_bind_of_ok h,
          outcome_bind_of_error hresult]
        exact ⟨rfl, hleft⟩
    | error first =>
      rw [moments, h, List.mem_singleton] at hmoment
      subst hmoment
      obtain rfl : first = fault := Except.error.inj (h.symm.trans hfails)
      rw [after_mapM_cons_of_error h, List.mapM_cons, outcome_bind_of_error h]
      exact ⟨rfl, rfl⟩

end FrameKinematics.Run
