import FrameKinematics.Proofs.Source.CountedCalls
import FrameKinematics.Proofs.Source.GuardedRequests

/-!
# Requests to a slot

A source that keeps the last transform of another one answers a request from its slot, or asks the
other source. Here is all that one request can do, for any raw computation whatever, and what
follows for the slot and for the calls of the raw source.
-/

namespace FrameKinematics

variable {K : Type}

/-- Memory with another slot under a number. -/
def Memory.putSlot (memory : Memory K) (i : Nat) (s : Slot K (Computed K)) : Memory K :=
  { memory with slots := memory.slots.setIfInBounds i s }

/-- A source that keeps the last transform of another one. What gives its raw transforms may be any
computation, which may use memory and fail. -/
structure SlotSource (K : Type) where
  /-- The name of the kind of the raw source. -/
  rawName : String
  raw : Instant K → Run K (Computed K)
  /-- The number of the slot. -/
  slot : Nat

namespace SlotSource

section Slots

variable (c : SlotSource K)

/-- What the slot of the source holds. -/
def kept (memory : Memory K) : Slot K (Computed K) := memory.slots.getD c.slot {}

/-- Memory after a request that is not answered from the slot has been counted. -/
def missed (memory : Memory K) : Memory K := memory.putSlot c.slot (c.kept memory).miss

/-- Makes the slot forget its entry. -/
def clear : Run K Unit := do
  (Run.slot c.slot).set (← (Run.slot c.slot).get).clear

/-- Clearing changes the slot only. -/
theorem after_clear (memory : Memory K) :
    c.clear.after memory = memory.putSlot c.slot (c.kept memory).clear := rfl

variable {c}

/-- What is kept is what the slot holds. -/
theorem kept_eq {memory : Memory K} {s : Slot K (Computed K)}
    (hs : memory.slots[c.slot]? = some s) : c.kept memory = s := by
  rw [kept, Array.getD_eq_getD_getElem?, hs]
  rfl

/-- A slot that was replaced is found again. -/
theorem slots_putSlot {memory : Memory K} {s : Slot K (Computed K)}
    (hs : memory.slots[c.slot]? = some s) (s' : Slot K (Computed K)) :
    (memory.putSlot c.slot s').slots[c.slot]? = some s' := by
  obtain ⟨hbound, -⟩ := Array.getElem?_eq_some_iff.mp hs
  simp [Memory.putSlot, hbound]

/-- Asking a raw source that does not use the slot leaves the slot as the counted request left
it. -/
theorem slots_of_asking {memory left : Memory K} {s : Slot K (Computed K)} {date : Instant K}
    (hraw : (c.raw date).Leaves (·.slots[c.slot]?)) (hs : memory.slots[c.slot]? = some s)
    (hleft : ((c.raw date).after (c.missed memory)).Noted left) :
    left.slots[c.slot]? = some s.miss := by
  rw [hleft.slots_eq]
  refine (hraw (c.missed memory)).trans ?_
  rw [missed, kept_eq hs]
  exact slots_putSlot hs s.miss

end Slots

section Requests

variable [Scalar K]

/-- The transform at an instant. -/
def serve (c : SlotSource K) (date : Instant K) : Run K (Computed K) :=
  Slot.request (Run.slot c.slot) (guarded c.rawName c.raw) date

/-- A source of the library that keeps the last transform of another one is such a source. -/
theorem serve_cached (raw : Source K) (slot : Nat) :
    (Source.cached raw slot).serve = (⟨raw.kindName, raw.serve, slot⟩ : SlotSource K).serve := rfl

/-- What a request can do, by its result and the memory that it leaves. -/
inductive Answering (c : SlotSource K) (date : Instant K) (memory : Memory K) :
    Except (Fault K) (Computed K) → Memory K → Prop
  /-- The slot has the answer. -/
  | found {value : Computed K} (hfind : (c.kept memory).find? date = some value) :
      Answering c date memory (.ok value) (memory.putSlot c.slot (c.kept memory).hit)
  /-- The raw source is asked and fails. -/
  | failed {fault : Fault K} {left : Memory K} (hfind : (c.kept memory).find? date = none)
      (hraw : (c.raw date).outcome (c.missed memory) = .error fault)
      (hleft : ((c.raw date).after (c.missed memory)).Noted left) :
      Answering c date memory (.error (fault.surfaced c.rawName date)) left
  /-- The raw source is asked, and what it gives is kept. -/
  | computed {value : Computed K} {left : Memory K} (hfind : (c.kept memory).find? date = none)
      (hraw : (c.raw date).outcome (c.missed memory) = .ok value)
      (hleft : ((c.raw date).after (c.missed memory)).Noted left) :
      Answering c date memory (.ok value) (left.putSlot c.slot ((c.kept left).store date value))

/-- This is all that a request does. -/
theorem serve_answering (c : SlotSource K) (date : Instant K) (memory : Memory K) :
    c.Answering date memory ((c.serve date).outcome memory) ((c.serve date).after memory) := by
  have hget : ((Run.slot c.slot).get : Run K _).outcome memory = .ok (c.kept memory) := rfl
  have hsame : ((Run.slot c.slot).get : Run K _).after memory = memory := rfl
  rw [serve, Slot.request, Run.outcome_bind_of_ok hget, Run.after_bind_of_ok hget, hsame]
  cases hfind : (c.kept memory).find? date with
  | some value => exact .found hfind
  | none =>
    have hcount : ((Run.slot c.slot).set (c.kept memory).miss : Run K Unit).outcome memory =
      .ok () := rfl
    have hmissed : ((Run.slot c.slot).set (c.kept memory).miss : Run K Unit).after memory =
      c.missed memory := rfl
    simp only [Run.outcome_bind_of_ok hcount, Run.after_bind_of_ok hcount, hmissed]
    have hresult := outcome_guarded c.rawName c.raw date (c.missed memory)
    have hleft := after_guarded c.rawName c.raw date (c.missed memory)
    cases hraw : (c.raw date).outcome (c.missed memory) with
    | ok value =>
      rw [hraw] at hresult
      rw [Run.outcome_bind_of_ok hresult, Run.after_bind_of_ok hresult]
      exact .computed hfind hraw hleft
    | error fault =>
      rw [hraw] at hresult
      rw [Run.outcome_bind_of_error hresult, Run.after_bind_of_error hresult]
      exact .failed hfind hraw hleft

end Requests

end SlotSource

end FrameKinematics
