import FrameKinematics.Proofs.Source.Footprints
import FrameKinematics.Scalar.Binary64
import FrameKinematics.Source

/-!
# Counted calls

How often a raw computation is called can be seen from a count in memory that goes up by one
with each call and that nothing else changes. Sources from outside count their calls so.
-/

namespace FrameKinematics

variable {K α : Type}

/-- Memory after one more call under a number. -/
def Memory.called (memory : Memory K) (calls : Nat) : Memory K :=
  { memory with calls := memory.calls.setIfInBounds calls (memory.calls.getD calls 0 + 1) }

/-- One more call is counted. -/
theorem Memory.calls_called {memory : Memory K} {calls n : Nat}
    (hcount : memory.calls[calls]? = some n) :
    (memory.called calls).calls[calls]? = some (n + 1) := by
  obtain ⟨hbound, hn⟩ := Array.getElem?_eq_some_iff.mp hcount
  simp [called, Array.getD, hbound, hn]

/-- A computation whose calls are counted under a number. -/
def counted (calls : Nat) (raw : Instant K → Run K α) (date : Instant K) : Run K α := do
  (Run.calls calls).set ((← (Run.calls calls).get) + 1)
  raw date

variable (calls : Nat) (raw : Instant K → Run K α) (date : Instant K) (memory : Memory K)

/-- A counted call gives what the computation gives. -/
theorem outcome_counted :
    (counted calls raw date).outcome memory = (raw date).outcome (memory.called calls) := rfl

/-- A counted call leaves what the computation leaves after the count. -/
theorem after_counted :
    (counted calls raw date).after memory = (raw date).after (memory.called calls) := rfl

variable {calls : Nat} {raw : Instant K → Run K α} {date : Instant K} {memory : Memory K}

/-- A call counts once. -/
theorem calls_after_counted {n : Nat} (hraw : (raw date).Leaves (·.calls[calls]?))
    (hcount : memory.calls[calls]? = some n) :
    ((counted calls raw date).after memory).calls[calls]? = some (n + 1) := by
  rw [after_counted]
  exact (hraw _).trans (Memory.calls_called hcount)

/-- Counting the calls concerns neither slots nor sample stores. -/
theorem leaves_counted {σ : Type} {part : Memory K → σ} (hraw : (raw date).Leaves part)
    (hpart : ∀ memory : Memory K, part (memory.called calls) = part memory) :
    (counted calls raw date).Leaves part := by
  intro memory
  rw [after_counted, hraw, hpart]

namespace Source

variable (result : Except (Fault K) (Transform K))

/-- A transform that is computed is the one that was given, but for its number. -/
theorem outcome_compute (memory : Memory K) :
    Computed.transform <$> (compute result).outcome memory = result := by
  cases result <;> rfl

/-- The number of a computed transform concerns no other part of memory. -/
theorem leaves_compute {σ : Type} {part : Memory K → σ}
    (hpart : ∀ (memory : Memory K) n, part { memory with computed := n } = part memory) :
    (compute result).Leaves part := by
  intro memory
  cases result with
  | ok t => exact hpart memory _
  | error fault => rfl

/-- A source from outside computes its law and counts its calls. -/
theorem serve_external [Scalar K] (name : String) (law : Law K) (calls : Nat) :
    (external name law calls).serve = counted calls fun date => compute (law date) := rfl

section Examples

/-- A law that has transforms until J2000.0 only. -/
def endingLaw : Law Float := fun date =>
  if date.seconds ≤ 0 then .ok (.dated date .zero .identity)
  else .error (.reported .value "no data")

/-- A source from outside that follows this law. -/
def ending : Source Float := .external "Raw" endingLaw 0

end Examples

end Source

/-- Memory with a new slot, a new sample store and a count of no calls. -/
def freshMemory : Memory Float := { slots := #[{}], stores := #[{}], calls := #[0] }

end FrameKinematics
