import FrameKinematics.Source.Memory

/-!
# Outcomes of runs

A run that starts from some memory has an outcome, a value or a fault, and leaves a memory
behind, also when it fails. The lemmas follow both through the steps of a run.
-/

namespace FrameKinematics

/-- A computation that succeeds has a first part that succeeds. -/
theorem exists_of_bind_eq_ok {ε α β : Type} {r : Except ε α} {f : α → Except ε β} {b : β}
    (h : r >>= f = .ok b) : ∃ a, r = .ok a ∧ f a = .ok b := by
  cases r with
  | ok a => exact ⟨a, rfl, h⟩
  | error fault => cases h

/-- When its first part succeeds, a computation is its second part. -/
theorem bind_eq_of_ok {ε α β : Type} {r : Except ε α} {f : α → Except ε β} {a : α}
    (h : r = .ok a) : r >>= f = f a := by
  rw [h]
  rfl

/-- An outcome as a computation is this outcome. -/
theorem ofExcept_of_ok {ε α : Type} {r : Except ε α} {a : α} (h : r = .ok a) :
    (ofExcept r : Except ε α) = .ok a := by
  rw [h]
  rfl

/-- A memory has the slots and the sample stores of another one, and its journal is as strict. -/
structure Memory.Agrees {K : Type} (memory memory' : Memory K) : Prop where
  slots_eq : memory'.slots = memory.slots
  stores_eq : memory'.stores = memory.stores
  strict_eq : memory'.isJournalStrict = memory.isJournalStrict

/-- Agreement of memories is transitive. -/
theorem Memory.Agrees.trans {K : Type} {first second third : Memory K}
    (h : first.Agrees second) (h' : second.Agrees third) : first.Agrees third :=
  ⟨h'.slots_eq.trans h.slots_eq, h'.stores_eq.trans h.stores_eq, h'.strict_eq.trans h.strict_eq⟩

namespace Run

variable {K α β : Type}

/-- What a run returns, or the fault it ends with, when it starts from a memory. -/
def outcome (x : Run K α) (memory : Memory K) : Except (Fault K) α := (x.run.run memory).1

/-- The memory that a run leaves, whether it fails or not. -/
def after (x : Run K α) (memory : Memory K) : Memory K := (x.run.run memory).2

variable (memory : Memory K)

/-- A run that returns a value gives this value. -/
@[simp] theorem outcome_pure (a : α) : outcome (pure a : Run K α) memory = .ok a := rfl

/-- Returning a value changes nothing. -/
@[simp] theorem after_pure (a : α) : after (pure a : Run K α) memory = memory := rfl

/-- A run that throws a fault ends with this fault. -/
@[simp] theorem outcome_throw (fault : Fault K) :
    outcome (throw fault : Run K α) memory = .error fault := rfl

/-- Throwing a fault changes nothing. -/
@[simp] theorem after_throw (fault : Fault K) :
    after (throw fault : Run K α) memory = memory := rfl

/-- An outcome that is known is the outcome of its run. -/
@[simp] theorem outcome_ofExcept (r : Except (Fault K) α) :
    outcome (ofExcept r : Run K α) memory = r := by
  cases r <;> rfl

/-- An outcome that is known changes nothing. -/
@[simp] theorem after_ofExcept (r : Except (Fault K) α) :
    after (ofExcept r : Run K α) memory = memory := by
  cases r <;> rfl

/-- Reading gives what is read. -/
@[simp] theorem outcome_read (f : Memory K → α) : outcome (read f) memory = .ok (f memory) := rfl

/-- Reading changes nothing. -/
@[simp] theorem after_read (f : Memory K → α) : after (read f) memory = memory := rfl

/-- An update always succeeds. -/
@[simp] theorem outcome_update (f : Memory K → Memory K) :
    outcome (update f) memory = .ok () := rfl

/-- An update leaves the memory that it makes. -/
@[simp] theorem after_update (f : Memory K → Memory K) : after (update f) memory = f memory := rfl

/-- Whether the journal is strict can always be asked. -/
@[simp] theorem outcome_isStrict :
    outcome (Journal.isStrict : Run K Bool) memory = .ok memory.isJournalStrict := rfl

/-- Asking whether the journal is strict changes nothing. -/
@[simp] theorem after_isStrict : after (Journal.isStrict : Run K Bool) memory = memory := rfl

/-- A run goes on after a first part that succeeds. -/
theorem outcome_bind (x : Run K α) (f : α → Run K β) :
    outcome (x >>= f) memory = outcome x memory >>= fun a => outcome (f a) (after x memory) := by
  simp only [outcome, after, ExceptT.run_bind, StateT.run_bind]
  cases (x.run.run memory) with
  | mk r memory' => cases r <;> rfl

/-- A first part that fails leaves the memory that the whole run leaves. -/
theorem after_bind (x : Run K α) (f : α → Run K β) :
    after (x >>= f) memory =
      match outcome x memory with
      | .ok a => after (f a) (after x memory)
      | .error _ => after x memory := by
  simp only [outcome, after, ExceptT.run_bind, StateT.run_bind]
  cases (x.run.run memory) with
  | mk r memory' => cases r <;> rfl

/-- What is done with the result of a run is done with its outcome. -/
theorem outcome_map (f : α → β) (x : Run K α) :
    outcome (f <$> x) memory = f <$> outcome x memory := by
  rw [map_eq_pure_bind, outcome_bind]
  cases outcome x memory <;> rfl

/-- What is done with the result of a run changes nothing in memory. -/
theorem after_map (f : α → β) (x : Run K α) : after (f <$> x) memory = after x memory := by
  rw [map_eq_pure_bind, after_bind]
  cases outcome x memory <;> rfl

section Parts

variable {memory : Memory K} {x : Run K α} {f : α → Run K β}

/-- After a first part that succeeds, a run does what its second part does from there. -/
theorem outcome_bind_of_ok {a : α} (hx : x.outcome memory = .ok a) :
    (x >>= f).outcome memory = (f a).outcome (x.after memory) := by
  rw [outcome_bind, hx]
  rfl

/-- After a first part that succeeds, a run leaves what its second part leaves from there. -/
theorem after_bind_of_ok {a : α} (hx : x.outcome memory = .ok a) :
    (x >>= f).after memory = (f a).after (x.after memory) := by
  rw [after_bind, hx]

/-- A run whose first part fails ends there. -/
theorem outcome_bind_of_error {fault : Fault K} (hx : x.outcome memory = .error fault) :
    (x >>= f).outcome memory = .error fault := by
  rw [outcome_bind, hx]
  rfl

/-- A run whose first part fails leaves what this part leaves. -/
theorem after_bind_of_error {fault : Fault K} (hx : x.outcome memory = .error fault) :
    (x >>= f).after memory = x.after memory := by
  rw [after_bind, hx]

end Parts

/-- A failure of a first part is handled in the memory that it leaves. -/
theorem outcome_tryCatch (x : Run K α) (handle : Fault K → Run K α) :
    outcome (tryCatch x handle) memory =
      match outcome x memory with
      | .ok a => .ok a
      | .error fault => outcome (handle fault) (after x memory) := by
  change ((ExceptT.tryCatch x handle) memory).1 =
    match (x memory).1 with
    | .ok a => .ok a
    | .error fault => (handle fault (x memory).2).1
  simp only [ExceptT.tryCatch, ExceptT.mk, bind, StateT.bind]
  rcases x memory with ⟨_ | _, memory'⟩ <;> rfl

/-- What is left when a failure is handled is left by the handling. -/
theorem after_tryCatch (x : Run K α) (handle : Fault K → Run K α) :
    after (tryCatch x handle) memory =
      match outcome x memory with
      | .ok _ => after x memory
      | .error fault => after (handle fault) (after x memory) := by
  change ((ExceptT.tryCatch x handle) memory).2 =
    match (x memory).1 with
    | .ok _ => (x memory).2
    | .error fault => (handle fault (x memory).2).2
  simp only [ExceptT.tryCatch, ExceptT.mk, bind, StateT.bind]
  rcases x memory with ⟨_ | _, memory'⟩ <;> rfl

section Outcome

/-- From every memory a run has one and the same outcome. What it leaves in memory may vary. -/
def Yields (x : Run K α) (r : Except (Fault K) α) : Prop := ∀ memory, x.outcome memory = r

end Outcome

section Invariant

variable {I : Memory K → Prop}

/-- From every memory with a property a run has the outcome `r`, and it keeps the property, also
when it fails. -/
def Gives (I : Memory K → Prop) (x : Run K α) (r : Except (Fault K) α) : Prop :=
  ∀ memory, I memory → x.outcome memory = r ∧ I (x.after memory)

/-- An outcome that is known is given, whatever is to be kept. -/
theorem gives_ofExcept (r : Except (Fault K) α) : Gives I (ofExcept r) r := by
  intro memory hI
  cases r with
  | ok a => exact ⟨rfl, hI⟩
  | error fault => exact ⟨rfl, hI⟩

/-- An outcome that is known is given. -/
theorem gives_of_eq {r r' : Except (Fault K) α} (h : r = r') : Gives I (ofExcept r) r' :=
  h ▸ gives_ofExcept r

/-- A value that is returned is given. -/
theorem gives_pure (a : α) : Gives I (pure a) (pure a) := fun _ hI => ⟨rfl, hI⟩

/-- What holds of both parts of a run holds of the run. Of the second part it is enough for the
value that the first one gives. -/
theorem Gives.bind {x : Run K α} {r : Except (Fault K) α} {f : α → Run K β}
    {g : α → Except (Fault K) β} (hx : Gives I x r)
    (hf : ∀ a, r = .ok a → Gives I (f a) (g a)) : Gives I (x >>= f) (r >>= g) := by
  intro memory hI
  obtain ⟨hresult, hkept⟩ := hx memory hI
  rw [outcome_bind, after_bind, hresult]
  cases r with
  | ok a => exact hf a rfl _ hkept
  | error fault => exact ⟨rfl, hkept⟩

/-- After a part that gives one value, a run goes on in one way. -/
theorem Gives.bind_ok {x : Run K α} {a : α} {f : α → Run K β} {r : Except (Fault K) β}
    (hx : Gives I x (.ok a)) (hf : Gives I (f a) r) : Gives I (x >>= f) r :=
  hx.bind (g := fun _ => r) fun _ h => Except.ok.inj h ▸ hf

/-- What holds of a run and of the handling of its failures holds of both together. -/
theorem Gives.tryCatch {x : Run K α} {r : Except (Fault K) α} {handle : Fault K → Run K α}
    {handle' : Fault K → Except (Fault K) α} (hx : Gives I x r)
    (hhandle : ∀ fault, Gives I (handle fault) (handle' fault)) :
    Gives I (tryCatch x handle) (tryCatch r handle') := by
  intro memory hI
  obtain ⟨hresult, hkept⟩ := hx memory hI
  rw [outcome_tryCatch, after_tryCatch, hresult]
  cases r with
  | ok a => exact ⟨rfl, hkept⟩
  | error fault => exact hhandle fault _ hkept

/-- What holds of each step over a list holds of the list: the run ends with the first failure. -/
theorem Gives.mapM {f : α → Run K β} {g : α → Except (Fault K) β}
    (hf : ∀ a, Gives I (f a) (g a)) (as : List α) : Gives I (as.mapM f) (as.mapM g) := by
  induction as with
  | nil => exact gives_pure []
  | cons a as ih =>
    rw [List.mapM_cons, List.mapM_cons]
    exact (hf a).bind fun b _ => ih.bind fun bs _ => gives_pure (b :: bs)

end Invariant

section Computation

/-- From every memory a run has the outcome `r`. It leaves the slots and the sample stores as they
are, and it does not change whether the journal is strict. -/
def Computes (x : Run K α) (r : Except (Fault K) α) : Prop :=
  ∀ memory, x.outcome memory = r ∧ memory.Agrees (x.after memory)

variable {x : Run K α} {r : Except (Fault K) α}

/-- A computation has one and the same outcome. -/
theorem Computes.yields (hx : x.Computes r) : x.Yields r := fun memory => (hx memory).1

/-- A computation keeps all that is to be kept. -/
theorem Computes.gives (hx : x.Computes r) (memory : Memory K) : Gives memory.Agrees x r := by
  intro memory' hagrees
  exact ⟨(hx memory').1, hagrees.trans (hx memory').2⟩

/-- What has an outcome and keeps all that is to be kept is a computation. -/
theorem computes_of_gives (hx : ∀ memory : Memory K, Gives memory.Agrees x r) : x.Computes r :=
  fun memory => hx memory memory ⟨rfl, rfl, rfl⟩

/-- An outcome that is known is computed. -/
theorem computes_ofExcept (r : Except (Fault K) α) :
    (ofExcept r : Run K α).Computes (ofExcept r) := by
  intro memory
  cases r with
  | ok a => exact ⟨rfl, rfl, rfl, rfl⟩
  | error fault => exact ⟨rfl, rfl, rfl, rfl⟩

/-- A value that is returned is computed. -/
theorem computes_pure (a : α) : (pure a : Run K α).Computes (pure a) :=
  fun _ => ⟨rfl, rfl, rfl, rfl⟩

/-- A fault that is thrown is computed. -/
theorem computes_throw (fault : Fault K) : (throw fault : Run K α).Computes (throw fault) :=
  fun _ => ⟨rfl, rfl, rfl, rfl⟩

/-- A note in the journal touches nothing else. -/
theorem computes_note (event : Event K) : (Journal.note event : Run K Unit).Computes (pure ()) :=
  fun _ => ⟨rfl, rfl, rfl, rfl⟩

/-- What is computed in both parts is computed as a whole. -/
theorem Computes.bind {f : α → Run K β} {g : α → Except (Fault K) β} (hx : x.Computes r)
    (hf : ∀ a, (f a).Computes (g a)) : (x >>= f).Computes (r >>= g) :=
  computes_of_gives fun memory => (hx.gives memory).bind fun a _ => (hf a).gives memory

/-- What is computed with its failures handled is computed as a whole. -/
theorem Computes.tryCatch {handle : Fault K → Run K α} {handle' : Fault K → Except (Fault K) α}
    (hx : x.Computes r) (hhandle : ∀ fault, (handle fault).Computes (handle' fault)) :
    (tryCatch x handle).Computes (tryCatch r handle') :=
  computes_of_gives fun memory =>
    (hx.gives memory).tryCatch fun fault => (hhandle fault).gives memory

end Computation

end Run

end FrameKinematics
