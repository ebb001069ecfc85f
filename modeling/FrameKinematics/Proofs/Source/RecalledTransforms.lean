import FrameKinematics.Proofs.Scalar.Real
import FrameKinematics.Proofs.Source.CountedCalls
import FrameKinematics.Proofs.Source.GridRequests
import FrameKinematics.Proofs.Source.Purity
import FrameKinematics.Proofs.Source.SlotRequests

/-!
# Transforms recalled from a slot

A source with a slot gives what a law says from every memory in which the slot holds what the law
says, and it keeps memory so. What it computes transforms with may remember things itself, as long
as these are kept in other slots.
-/

namespace FrameKinematics

variable {K : Type} [Scalar K]

/-- A law gives the same transform at equal instants. -/
def Law.Respects (law : Law K) : Prop := ∀ a b : Instant K, (a == b) = true → law a = law b

/-- Over the reals equal instants are one, so every law gives the same transform there. -/
theorem Law.respects_real (law : Law ℝ) : law.Respects := by
  rintro ⟨seconds, fraction⟩ ⟨seconds', fraction'⟩ hequal
  obtain ⟨hseconds, hfraction⟩ := Bool.and_eq_true_iff.mp hequal
  obtain rfl : seconds = seconds' := beq_iff_eq.mp hseconds
  obtain rfl : fraction = fraction' := beq_iff_eq.mp hfraction
  rfl

/-- What a slot holds for an instant is what a law gives there. -/
def Slot.Holds (law : Law K) (s : Slot K (Computed K)) : Prop :=
  ∀ date value, s.find? date = some value → law date = .ok value.transform

/-- The slot under a number is there and holds what a law gives. -/
def Memory.Recalls (slot : Nat) (law : Law K) (memory : Memory K) : Prop :=
  ∃ s, memory.slots[slot]? = some s ∧ s.Holds law

variable {I : Memory K → Prop} {n slot : Nat} {law : Law K}

/-- A new slot holds nothing that a law does not give. -/
theorem Slot.holds_empty : Slot.Holds law {} := by
  intro date value hfind
  cases hfind

/-- A slot may keep what the law gives. -/
theorem Slot.holds_store (hlaw : law.Respects) {date : Instant K} {value : Computed K}
    (hvalue : law date = .ok value.transform) (s : Slot K (Computed K)) :
    (s.store date value).Holds law := by
  intro other found hfind
  have hentry : (if date == other then some value else none) = some found := hfind
  split at hentry
  · next hequal =>
    obtain rfl := Option.some.inj hentry
    rw [← hlaw date other hequal, hvalue]
  · cases hentry

/-- Whether a slot holds what a law gives depends on the slot alone. -/
theorem Memory.Recalls.congr {memory memory' : Memory K} (hrecalls : memory.Recalls slot law)
    (hslot : memory'.slots[slot]? = memory.slots[slot]?) : memory'.Recalls slot law := by
  obtain ⟨s, hs, hholds⟩ := hrecalls
  exact ⟨s, hslot.trans hs, hholds⟩

/-- That a slot holds what a law gives concerns no sample store. -/
theorem Memory.ConcernsBelow.recalls (hI : Memory.ConcernsBelow n I) :
    Memory.ConcernsBelow n fun memory => I memory ∧ memory.Recalls slot law where
  room memory hmemory := hI.room memory hmemory.1
  congr memory memory' hmemory hagrees := by
    obtain ⟨hmemory, hrecalls⟩ := hmemory
    exact ⟨hI.congr _ _ hmemory hagrees, hrecalls.congr (by rw [hagrees.slots_eq])⟩

section Requests

variable {compute : Instant K → Run K (Computed K)}

/-- A request to a slot that holds what a law gives is answered by the law, if the law is what the
transforms are computed by, and the slot goes on to hold what the law gives. -/
theorem Slot.request_gives (hlaw : law.Respects)
    (hput : ∀ memory s, I memory → I (memory.putSlot slot s))
    (hcompute : ∀ date, Run.Gives I (Computed.transform <$> compute date) (law date))
    (hslot : ∀ date, (compute date).Leaves (·.slots[slot]?)) (date : Instant K) :
    Run.Gives (fun memory => I memory ∧ memory.Recalls slot law)
      (Computed.transform <$> Slot.request (Run.slot slot) compute date) (law date) := by
  rintro memory ⟨hmemory, s, hs, hholds⟩
  have hbound := (Array.getElem?_eq_some_iff.mp hs).1
  have hget : ((Run.slot slot).get : Run K _).outcome memory = .ok s := by
    rw [Run.slot, Run.outcome_read, Array.getD_eq_getD_getElem?, hs]
    rfl
  have hsame : ((Run.slot slot).get : Run K _).after memory = memory := rfl
  rw [Run.outcome_map, Run.after_map, Slot.request, Run.outcome_bind_of_ok hget,
    Run.after_bind_of_ok hget, hsame]
  cases hfind : s.find? date with
  | some value =>
    refine ⟨(hholds date value hfind).symm, hput _ _ hmemory, s.hit, ?_, hholds⟩
    exact Array.getElem?_setIfInBounds_self_of_lt hbound
  | none =>
    let counted := memory.putSlot slot s.miss
    have hcount : ((Run.slot slot).set s.miss : Run K Unit).outcome memory = .ok () := rfl
    have hcounted : ((Run.slot slot).set s.miss : Run K Unit).after memory = counted := rfl
    obtain ⟨hresult, hkept⟩ := hcompute date counted (hput _ _ hmemory)
    rw [Run.outcome_map] at hresult
    rw [Run.after_map] at hkept
    have hmissed : ((compute date).after counted).slots[slot]? = some s.miss :=
      (hslot date counted).trans (Array.getElem?_setIfInBounds_self_of_lt hbound)
    simp only [Run.outcome_bind_of_ok hcount, Run.after_bind_of_ok hcount, hcounted]
    cases houtcome : (compute date).outcome counted with
    | error fault =>
      rw [houtcome] at hresult
      rw [Run.outcome_bind_of_error houtcome, Run.after_bind_of_error houtcome]
      exact ⟨hresult, hkept, s.miss, hmissed, hholds⟩
    | ok value =>
      rw [houtcome] at hresult
      rw [Run.outcome_bind_of_ok houtcome, Run.after_bind_of_ok houtcome]
      let left := (compute date).after counted
      have hroom : slot < left.slots.size := (Array.getElem?_eq_some_iff.mp hmissed).1
      exact ⟨hresult, hput _ _ hkept, (left.slots.getD slot {}).store date value,
        Array.getElem?_setIfInBounds_self_of_lt hroom,
        Slot.holds_store hlaw hresult.symm _⟩

/-- A request to a slot uses sample stores as its computation does. -/
theorem Slot.leaves_request {σ : Type} (part : Memory K → σ)
    (hput : ∀ memory s, part (memory.putSlot slot s) = part memory)
    (hcompute : ∀ date, (compute date).Leaves part) (date : Instant K) :
    (Slot.request (Run.slot slot) compute date).Leaves part := by
  refine Run.Leaves.bind (fun _ => rfl) fun s => ?_
  cases s.find? date with
  | some value => exact Run.Leaves.bind (fun memory => hput memory _) fun _ _ => rfl
  | none =>
    refine Run.Leaves.bind (fun memory => hput memory _) fun _ => ?_
    refine (hcompute date).bind fun value => ?_
    refine Run.Leaves.bind (fun _ => rfl) fun s => ?_
    exact Run.Leaves.bind (fun memory => hput memory _) fun _ _ => rfl

/-- A request to a slot uses memory as its computation does, and the slot. -/
theorem Slot.request_givesBelow (hlaw : law.Respects)
    (hput : ∀ memory s, I memory → I (memory.putSlot slot s))
    (hcompute : ∀ date, Run.GivesBelow n I (Computed.transform <$> compute date) (law date))
    (hslot : ∀ date, (compute date).Leaves (·.slots[slot]?)) (date : Instant K) :
    Run.GivesBelow n (fun memory => I memory ∧ memory.Recalls slot law)
      (Computed.transform <$> Slot.request (Run.slot slot) compute date) (law date) where
  gives := Slot.request_gives hlaw hput (fun date => (hcompute date).gives) hslot date
  leaves_store i hi memory := by
    rw [Run.after_map]
    refine Slot.leaves_request (·.stores[i]?) (fun _ _ => rfl) (fun date memory => ?_) date memory
    simpa only [Run.after_map] using (hcompute date).leaves_store i hi memory
  leaves_strict memory := by
    rw [Run.after_map]
    refine Slot.leaves_request (·.isJournalStrict) (fun _ _ => rfl) (fun date memory => ?_)
      date memory
    simpa only [Run.after_map] using (hcompute date).leaves_strict memory

end Requests

namespace Source

/-- Transforms that are computed from the instant alone and kept in a slot are given from all
memories in which the slot holds such transforms. The rotation of the Earth and the motion of the
pole are such sources. -/
theorem request_compute_givesBelow (hI : Memory.ConcernsBelow n I)
    (hput : ∀ memory s, I memory → I (memory.putSlot slot s)) (hlaw : law.Respects)
    (date : Instant K) :
    Run.GivesBelow n (fun memory => I memory ∧ memory.Recalls slot law)
      (Computed.transform <$> Slot.request (Run.slot slot) (fun date => compute (law date)) date)
      (law date) :=
  Slot.request_givesBelow hlaw hput (fun date => (compute_computes (law date)).givesBelow hI)
    (fun _ => leaves_compute _ fun _ _ => rfl) date

/-- A source of the rotation of the Earth recalls rotations of the Earth. -/
theorem earthRotation_givesBelow (hI : Memory.ConcernsBelow n I)
    (hput : ∀ memory s, I memory → I (memory.putSlot slot s))
    (hlaw : Law.Respects (Earth.rotation : Law K)) (date : Instant K) :
    Run.GivesBelow n (fun memory => I memory ∧ memory.Recalls slot Earth.rotation)
      ((earthRotation slot).ask date) (Earth.rotation date) :=
  request_compute_givesBelow hI hput hlaw date

/-- A source of the motion of the pole recalls what its data give. -/
theorem poleMotion_givesBelow (hI : Memory.ConcernsBelow n I)
    (hput : ∀ memory s, I memory → I (memory.putSlot slot s)) {data : PoleData K}
    (hlaw : Law.Respects (Earth.poleMotion data)) (date : Instant K) :
    Run.GivesBelow n (fun memory => I memory ∧ memory.Recalls slot (Earth.poleMotion data))
      ((poleMotion data slot).ask date) (Earth.poleMotion data date) :=
  request_compute_givesBelow hI hput hlaw date

/-- A guarded request for a numbered transform uses memory as one for the transform does. -/
theorem guarded_serve_givesBelow {raw : Source K} (hI : Memory.ConcernsBelow n I)
    (hraw : ∀ date, Run.GivesBelow n I (raw.ask date) (law date)) (name : String)
    (date : Instant K) :
    Run.GivesBelow n I (Computed.transform <$> guarded name raw.serve date)
      (guarded name law date) where
  gives memory hmemory := by
    have hserved := ((hraw date).gives memory hmemory).2
    obtain ⟨hresult, -⟩ := (Grid.guarded_givesBelow hI hraw name date).gives memory hmemory
    rw [outcome_guarded, ask, Run.outcome_map] at hresult
    rw [after_ask] at hserved
    rw [Run.outcome_map, Run.after_map, outcome_guarded, ← hresult]
    obtain ⟨events, hleft⟩ := after_guarded name raw.serve date memory
    rw [hleft]
    refine ⟨?_, hI.congr _ _ hserved ⟨rfl, fun _ _ => rfl, rfl⟩⟩
    cases (raw.serve date).outcome memory <;> rfl
  leaves_store i hi memory := by
    have hserved := (hraw date).leaves_store i hi memory
    rw [after_ask] at hserved
    rw [Run.after_map]
    exact (congrArg (·[i]?) (after_guarded name raw.serve date memory).stores_eq).trans hserved
  leaves_strict memory := by
    have hserved := (hraw date).leaves_strict memory
    rw [after_ask] at hserved
    rw [Run.after_map]
    obtain ⟨events, hleft⟩ := after_guarded name raw.serve date memory
    rw [hleft]
    exact hserved

/-- A source that keeps the last transform of another one gives what the other one gives, with its
failures reported as those of a source. -/
theorem cached_givesBelow {raw : Source K} (hI : Memory.ConcernsBelow n I)
    (hput : ∀ memory s, I memory → I (memory.putSlot slot s))
    (hraw : ∀ date, Run.GivesBelow n I (raw.ask date) (law date))
    (hslot : ∀ date, (raw.ask date).Leaves (·.slots[slot]?))
    (hlaw : Law.Respects (guarded raw.kindName law : Law K)) (date : Instant K) :
    Run.GivesBelow n (fun memory => I memory ∧ memory.Recalls slot (guarded raw.kindName law))
      ((cached raw slot).ask date) (guarded raw.kindName law date) := by
  refine Slot.request_givesBelow hlaw hput (fun date => ?_) (fun date memory => ?_) date
  · exact guarded_serve_givesBelow hI hraw raw.kindName date
  · have hasked := hslot date memory
    rw [after_ask] at hasked
    have hleft := (after_guarded raw.kindName raw.serve date memory).slots_eq
    exact (congrArg (·[slot]?) hleft).trans hasked

end Source

end FrameKinematics
