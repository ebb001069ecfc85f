import FrameKinematics.Instant

/-!
# Slots

A slot remembers the last instant that was asked for and what was computed for it. It answers a
request for exactly that instant and counts how often it could. A computation that fails
leaves the entry of the slot as it was.
-/

namespace FrameKinematics

/-- A place where a computation keeps a value. -/
structure Cell (m : Type → Type) (σ : Type) where
  get : m σ
  set : σ → m Unit

/-- The last result of a computation, with counts of the requests that found theirs and of those
that did not. -/
structure Slot (K α : Type) where
  entry : Option (Instant K × α) := none
  hits : Nat := 0
  misses : Nat := 0

namespace Slot

variable {K α : Type}

/-- What a slot holds for an instant. -/
def find? [Scalar K] (s : Slot K α) (date : Instant K) : Option α :=
  match s.entry with
  | some (stored, value) => if stored == date then some value else none
  | none => none

/-- Counts a request that was answered from the slot. -/
def hit (s : Slot K α) : Slot K α := { s with hits := s.hits + 1 }

/-- Counts a request that has to be computed. -/
def miss (s : Slot K α) : Slot K α := { s with misses := s.misses + 1 }

/-- Keeps a result instead of the last one. -/
def store (s : Slot K α) (date : Instant K) (value : α) : Slot K α :=
  { s with entry := some (date, value) }

/-- Forgets the result but not the counts. -/
def clear (s : Slot K α) : Slot K α := { s with entry := none }

/-- Answers a request from a slot, or computes the answer and keeps it. -/
def request [Scalar K] {m : Type → Type} [Monad m] (cell : Cell m (Slot K α))
    (compute : Instant K → m α) (date : Instant K) : m α := do
  let slot ← cell.get
  match slot.find? date with
  | some value =>
    cell.set slot.hit
    return value
  | none =>
    cell.set slot.miss
    let value ← compute date
    cell.set ((← cell.get).store date value)
    return value

end Slot

end FrameKinematics
