import FrameKinematics.Proofs.Source.Runs

/-!
# What runs use of memory

Numbers of sample stores are handed out in order, so all that was there before a source uses stores
below some number. A run that starts from memories with a property which concerns these stores only
may have one outcome and keep the property, whatever others do with the stores from that number on.
A source that remembers what it computed is of this kind: the property says that what it remembers
is right.
-/

namespace FrameKinematics

variable {K α β : Type} {n : Nat} {I : Memory K → Prop}

/-- A run leaves a part of memory as it is, also when it fails. -/
def Run.Leaves {σ : Type} (part : Memory K → σ) (x : Run K α) : Prop :=
  ∀ memory, part (x.after memory) = part memory

/-- A memory has the slots of another one and its sample stores below a number, and its journal is
as strict. -/
structure Memory.AgreesBelow (n : Nat) (memory memory' : Memory K) : Prop where
  slots_eq : memory'.slots = memory.slots
  stores_eq : ∀ i < n, memory'.stores[i]? = memory.stores[i]?
  strict_eq : memory'.isJournalStrict = memory.isJournalStrict

/-- A property of memory concerns slots, whether the journal is strict, and of the sample stores
those below a number, which are there. -/
structure Memory.ConcernsBelow (n : Nat) (I : Memory K → Prop) : Prop where
  room : ∀ memory, I memory → n ≤ memory.stores.size
  congr : ∀ memory memory', I memory → memory.AgreesBelow n memory' → I memory'

/-- What holds of every memory concerns none of its sample stores. -/
theorem Memory.concernsBelow_true : Memory.ConcernsBelow 0 fun _ : Memory K => True :=
  ⟨fun _ _ => Nat.zero_le _, fun _ _ _ _ => trivial⟩

namespace Run

variable {x : Run K α} {r : Except (Fault K) α} {σ : Type} {part : Memory K → σ}

/-- A run leaves what both of its parts leave. -/
theorem Leaves.bind {f : α → Run K β} (hx : x.Leaves part) (hf : ∀ a, (f a).Leaves part) :
    (x >>= f).Leaves part := by
  intro memory
  rw [after_bind]
  cases x.outcome memory with
  | ok a => exact (hf a _).trans (hx memory)
  | error fault => exact hx memory

/-- A run leaves what it and the handling of its failures leave. -/
theorem Leaves.tryCatch {handle : Fault K → Run K α} (hx : x.Leaves part)
    (hhandle : ∀ fault, (handle fault).Leaves part) : (tryCatch x handle).Leaves part := by
  intro memory
  rw [after_tryCatch]
  cases x.outcome memory with
  | ok a => exact hx memory
  | error fault => exact (hhandle fault _).trans (hx memory)

/-- A run over a list leaves what each of its steps leaves. -/
theorem Leaves.mapM {f : α → Run K β} (hf : ∀ a, (f a).Leaves part) (as : List α) :
    (as.mapM f).Leaves part := by
  induction as with
  | nil => exact fun _ => rfl
  | cons a as ih =>
    rw [List.mapM_cons]
    exact (hf a).bind fun _ => ih.bind fun _ _ => rfl

/-- An outcome that is known leaves everything. -/
theorem leaves_ofExcept (r : Except (Fault K) α) : (ofExcept r : Run K α).Leaves part :=
  fun memory => congrArg part (after_ofExcept memory r)

/-- From every memory with a property a run has the outcome `r`, and it keeps the property. It
leaves the sample stores from a number on as they are, and whether the journal is strict. -/
structure GivesBelow (n : Nat) (I : Memory K → Prop) (x : Run K α) (r : Except (Fault K) α) :
    Prop where
  gives : Gives I x r
  leaves_store : ∀ i, n ≤ i → x.Leaves (·.stores[i]?)
  leaves_strict : x.Leaves (·.isJournalStrict)

/-- What is computed without sample stores is given from all memories with such a property. -/
theorem Computes.givesBelow (hI : Memory.ConcernsBelow n I) (hx : x.Computes r) :
    GivesBelow n I x r where
  gives memory hmemory := by
    obtain ⟨hresult, hagrees⟩ := hx memory
    refine ⟨hresult, hI.congr _ _ hmemory ⟨hagrees.slots_eq, fun i _ => ?_, hagrees.strict_eq⟩⟩
    rw [hagrees.stores_eq]
  leaves_store i _ memory := congrArg (·[i]?) (hx memory).2.stores_eq
  leaves_strict memory := (hx memory).2.strict_eq

/-- What holds of both parts of a run holds of the run. -/
theorem GivesBelow.bind {f : α → Run K β} {g : α → Except (Fault K) β} (hx : GivesBelow n I x r)
    (hf : ∀ a, GivesBelow n I (f a) (g a)) : GivesBelow n I (x >>= f) (r >>= g) where
  gives := hx.gives.bind fun a _ => (hf a).gives
  leaves_store i hi := (hx.leaves_store i hi).bind fun a => (hf a).leaves_store i hi
  leaves_strict := hx.leaves_strict.bind fun a => (hf a).leaves_strict

/-- What holds of a run and of the handling of its failures holds of both together. -/
theorem GivesBelow.tryCatch {handle : Fault K → Run K α}
    {handle' : Fault K → Except (Fault K) α} (hx : GivesBelow n I x r)
    (hhandle : ∀ fault, GivesBelow n I (handle fault) (handle' fault)) :
    GivesBelow n I (tryCatch x handle) (tryCatch r handle') where
  gives := hx.gives.tryCatch fun fault => (hhandle fault).gives
  leaves_store i hi := (hx.leaves_store i hi).tryCatch fun fault =>
    (hhandle fault).leaves_store i hi
  leaves_strict := hx.leaves_strict.tryCatch fun fault => (hhandle fault).leaves_strict

end Run

end FrameKinematics
