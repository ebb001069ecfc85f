import FrameKinematics.Proofs.Source.GridTransparency

/-!
# The laws of sources

Each source has a law: what it gives at an instant when neither it nor a source that it asks has
anything in memory. While what they remember is right, the source gives what its law says, and what
they remember stays right, also when a request fails. This goes by induction over the source, since
the sources that it asks have a law themselves. Sources that share neither a slot nor a sample store
leave each other's memory alone, so all of them go on to follow their laws.
-/

namespace FrameKinematics.Source

variable {K : Type}

section Places

/-- The slots of a source and of the sources that it asks. -/
def slots : Source K → List Nat
  | earthRotation slot => [slot]
  | poleMotion _ slot => [slot]
  | cached raw slot => slot :: raw.slots
  | interpolating raw .. => raw.slots
  | _ => []

/-- The sample stores of a source and of the sources that it asks. -/
def stores : Source K → List Nat
  | cached raw _ => raw.stores
  | interpolating raw _ store => store :: raw.stores
  | _ => []

/-- A number from which on no sample store belongs to a source or to the sources that it asks. -/
def storesEnd : Source K → Nat
  | cached raw _ => raw.storesEnd
  | interpolating _ _ store => store + 1
  | _ => 0

/-- A source shares neither a slot nor a sample store with the sources that it asks. These were
created before it, so their stores have lower numbers. -/
def IsSeparate : Source K → Prop
  | cached raw slot => raw.IsSeparate ∧ slot ∉ raw.slots
  | interpolating raw _ store => raw.IsSeparate ∧ raw.storesEnd ≤ store
  | _ => True

/-- Two sources share neither a slot nor a sample store, nor do the sources that they ask. -/
def Apart (source other : Source K) : Prop :=
  source.slots.Disjoint other.slots ∧ source.stores.Disjoint other.stores

/-- A memory has what a source and the sources that it asks remember in another memory, and its
journal is as strict. -/
structure SameMemory (source : Source K) (memory memory' : Memory K) : Prop where
  slots_eq : ∀ i ∈ source.slots, memory'.slots[i]? = memory.slots[i]?
  stores_eq : ∀ i ∈ source.stores, memory'.stores[i]? = memory.stores[i]?
  strict_eq : memory'.isJournalStrict = memory.isJournalStrict

variable {source : Source K}

/-- The sample stores of a source that is separate have numbers below their end. -/
theorem lt_storesEnd (hseparate : source.IsSeparate) {i : Nat} (hi : i ∈ source.stores) :
    i < source.storesEnd := by
  induction source with
  | cached raw slot ih => exact ih hseparate.1 hi
  | interpolating raw settings store ih =>
    obtain ⟨hraw, hend⟩ := hseparate
    rcases List.mem_cons.mp hi with rfl | hi
    · exact Nat.lt_succ_self _
    · exact Nat.lt_succ_of_le ((ih hraw hi).le.trans hend)
  | _ => cases hi

end Places

variable [Scalar K]

/-- What a source gives at an instant when nothing is remembered. Raw transforms on a time grid are
noted in the journal, which fails for some instants where it is strict. -/
def law (strict : Bool) : Source K → Law K
  | fixed transform => fun date => .ok (.dated date transform.cartesian transform.angular)
  | earthRotation _ => Earth.rotation
  | poleMotion data _ => Earth.poleMotion data
  | topocentric point => fun date => .ok (point.transform date)
  | localOrbital orbit axes => fun date => do axes.transform date (← orbit date)
  | cached raw _ => guarded raw.kindName (raw.law strict)
  | interpolating raw settings _ =>
    Grid.answer settings
      (Grid.fetched (fun index => Grid.date settings.step (.whole index)) strict raw.kindName
        (raw.law strict))
      fun t samples => Transform.interpolate t samples settings.cartesian settings.angular
  | external _ law _ => law

/-- What a source and the sources that it asks remember is right, and the journal is strict or not,
as far as that concerns them. -/
def Recalls (strict : Bool) : Source K → Memory K → Prop
  | earthRotation slot => fun memory => True ∧ memory.Recalls slot Earth.rotation
  | poleMotion data slot => fun memory => True ∧ memory.Recalls slot (Earth.poleMotion data)
  | cached raw slot => fun memory =>
    raw.Recalls strict memory ∧ memory.Recalls slot (guarded raw.kindName (raw.law strict))
  | interpolating raw settings store =>
    Grid.IsSound (raw.Recalls strict) store
      (Grid.fetched (fun index => Grid.date settings.step (.whole index)) strict raw.kindName
        (raw.law strict)) strict
  | _ => fun _ => True

section Memories

variable {source : Source K} {strict : Bool} {memory memory' : Memory K}

/-- Whether what a source remembers is right depends on that alone. -/
theorem Recalls.congr (hrecalls : source.Recalls strict memory)
    (hsame : source.SameMemory memory memory') : source.Recalls strict memory' := by
  induction source with
  | earthRotation slot =>
    exact ⟨trivial, hrecalls.2.congr (hsame.slots_eq slot List.mem_cons_self)⟩
  | poleMotion data slot =>
    exact ⟨trivial, hrecalls.2.congr (hsame.slots_eq slot List.mem_cons_self)⟩
  | cached raw slot ih =>
    obtain ⟨hraw, hslot⟩ := hrecalls
    have hinner : raw.SameMemory memory memory' :=
      ⟨fun i hi => hsame.slots_eq i (List.mem_cons_of_mem _ hi), hsame.stores_eq, hsame.strict_eq⟩
    exact ⟨ih hraw hinner, hslot.congr (hsame.slots_eq slot List.mem_cons_self)⟩
  | interpolating raw settings store ih =>
    obtain ⟨hraw, ⟨s, hs, hholds⟩, hstrict⟩ := hrecalls
    have hinner : raw.SameMemory memory memory' :=
      ⟨hsame.slots_eq, fun i hi => hsame.stores_eq i (List.mem_cons_of_mem _ hi), hsame.strict_eq⟩
    exact ⟨ih hraw hinner, ⟨s, (hsame.stores_eq store List.mem_cons_self).trans hs, hholds⟩,
      hsame.strict_eq.trans hstrict⟩
  | _ => trivial

/-- Whether what a source remembers is right concerns no sample store from the end of its own on. -/
theorem concernsBelow_recalls (strict : Bool) (hseparate : source.IsSeparate) :
    Memory.ConcernsBelow source.storesEnd (source.Recalls strict) where
  room memory hrecalls := by
    induction source with
    | cached raw slot ih => exact ih hseparate.1 hrecalls.1
    | interpolating raw settings store =>
      obtain ⟨-, ⟨s, hs, -⟩, -⟩ := hrecalls
      exact (Array.getElem?_eq_some_iff.mp hs).1
    | _ => exact Nat.zero_le _
  congr memory memory' hrecalls hagrees := by
    refine hrecalls.congr ⟨fun i _ => ?_, fun i hi => ?_, hagrees.strict_eq⟩
    · rw [hagrees.slots_eq]
    · exact hagrees.stores_eq i (lt_storesEnd hseparate hi)

end Memories

section Parts

variable {source : Source K} {σ : Type} {part : Memory K → σ}
  (hpart : ∀ memory memory' : Memory K, memory.Agrees memory' → part memory' = part memory)

include hpart

/-- A source leaves all slots and sample stores but its own and those of the sources that it asks. -/
theorem leaves_serve (hslots : ∀ i ∈ source.slots, ∀ memory s,
      part (memory.putSlot i s) = part memory)
    (hstores : ∀ i ∈ source.stores, ∀ s, ((Run.store i).set s : Run K Unit).Leaves part)
    (date : Instant K) : (source.serve date).Leaves part := by
  have hcompute (result : Except (Fault K) (Transform K)) : (compute result).Leaves part :=
    leaves_compute result fun _ _ => hpart _ _ ⟨rfl, rfl, rfl⟩
  have hnote (event : Event K) : (Journal.note event : Run K Unit).Leaves part :=
    fun _ => hpart _ _ ⟨rfl, rfl, rfl⟩
  induction source generalizing date with
  | earthRotation slot =>
    exact Slot.leaves_request part (hslots slot List.mem_cons_self) (fun _ => hcompute _) date
  | poleMotion data slot =>
    exact Slot.leaves_request part (hslots slot List.mem_cons_self) (fun _ => hcompute _) date
  | cached raw slot ih =>
    have hraw := ih (fun i hi => hslots i (List.mem_cons_of_mem _ hi)) hstores
    exact Slot.leaves_request part (hslots slot List.mem_cons_self)
      (fun date => Grid.leaves_guarded hnote hraw raw.kindName date) date
  | interpolating raw settings store ih =>
    have hraw := ih hslots fun i hi => hstores i (List.mem_cons_of_mem _ hi)
    have hasked (date : Instant K) : (raw.ask date).Leaves part :=
      fun memory => (congrArg part (raw.after_ask date memory)).trans (hraw date memory)
    have hjoin (date : Instant K) (samples : List (Transform K)) :
        (Transform.interpolate date samples settings.cartesian settings.angular :
          Run K _).Leaves part :=
      fun memory => hpart _ _ (Transform.interpolate_computes date samples _ _ memory).2
    refine Run.Leaves.bind (Grid.leaves_requestBy (hstores store List.mem_cons_self) hnote hasked
      hjoin _ _ _ date) fun t => ?_
    exact fun _ => hpart _ _ ⟨rfl, rfl, rfl⟩
  | external name law calls =>
    refine fun memory => (hcompute (law date) _).trans (hpart memory _ ⟨rfl, rfl, rfl⟩)
  | _ => exact hcompute _

/-- Asking for the transform leaves what asking for the numbered transform leaves. -/
theorem leaves_ask (hslots : ∀ i ∈ source.slots, ∀ memory s,
      part (memory.putSlot i s) = part memory)
    (hstores : ∀ i ∈ source.stores, ∀ s, ((Run.store i).set s : Run K Unit).Leaves part)
    (date : Instant K) : (source.ask date).Leaves part :=
  fun memory => (congrArg part (source.after_ask date memory)).trans
    (leaves_serve hpart hslots hstores date memory)

end Parts

section Requests

variable {source : Source K} {i : Nat}

/-- A source leaves the slots of others. -/
theorem leaves_slot (hi : i ∉ source.slots) (date : Instant K) :
    (source.ask date).Leaves (·.slots[i]?) := by
  refine leaves_ask (fun _ _ hagrees => by rw [hagrees.slots_eq]) (fun j hj memory s => ?_)
    (fun _ _ _ _ => rfl) date
  exact Array.getElem?_setIfInBounds_ne (ne_of_mem_of_not_mem hj hi)

/-- A source leaves the sample stores of others. -/
theorem leaves_store (hi : i ∉ source.stores) (date : Instant K) :
    (source.ask date).Leaves (·.stores[i]?) := by
  refine leaves_ask (fun _ _ hagrees => by rw [hagrees.stores_eq]) (fun _ _ _ _ => rfl)
    (fun j hj s memory => ?_) date
  exact Array.getElem?_setIfInBounds_ne (ne_of_mem_of_not_mem hj hi)

/-- A source does not make the journal strict, nor the other way round. -/
theorem leaves_strict (source : Source K) (date : Instant K) :
    (source.ask date).Leaves (·.isJournalStrict) :=
  leaves_ask (fun _ _ hagrees => hagrees.strict_eq) (fun _ _ _ _ => rfl) (fun _ _ _ _ => rfl) date

/-- While what a source and the sources that it asks remember is right, the source gives what its
law says, and what they remember stays right. -/
theorem ask_givesBelow {source : Source ℝ} (strict : Bool) (hseparate : source.IsSeparate)
    (date : Instant ℝ) :
    Run.GivesBelow source.storesEnd (source.Recalls strict) (source.ask date)
      (source.law strict date) := by
  have htrue := Memory.concernsBelow_true (K := ℝ)
  induction source generalizing date with
  | fixed transform => exact (fixed_follows transform date).givesBelow htrue
  | earthRotation slot =>
    exact earthRotation_givesBelow htrue (fun _ _ _ => trivial) (Law.respects_real _) date
  | poleMotion data slot =>
    exact poleMotion_givesBelow htrue (fun _ _ _ => trivial) (Law.respects_real _) date
  | topocentric point => exact (topocentric_follows point date).givesBelow htrue
  | localOrbital orbit axes => exact (localOrbital_follows orbit axes date).givesBelow htrue
  | cached raw slot ih =>
    obtain ⟨hraw, hslot⟩ := hseparate
    refine cached_givesBelow (concernsBelow_recalls strict hraw) (fun memory s hrecalls => ?_)
      (ih hraw) (leaves_slot hslot) (Law.respects_real _) date
    refine hrecalls.congr ⟨fun i hi => ?_, fun _ _ => rfl, rfl⟩
    exact Array.getElem?_setIfInBounds_ne (ne_of_mem_of_not_mem hi hslot).symm
  | interpolating raw settings store ih =>
    obtain ⟨hraw, hend⟩ := hseparate
    have hI := concernsBelow_recalls strict hraw
    have hjoin : ∀ t samples, Run.GivesBelow raw.storesEnd (raw.Recalls strict)
        (Grid.Scheme.standard.join settings t samples)
        (Transform.interpolate t samples settings.cartesian settings.angular) :=
      fun t samples => (Transform.interpolate_computes t samples _ _).givesBelow hI
    rw [← Grid.Scheme.standard_ask]
    exact Grid.Scheme.ask_givesBelow hI hend (ih hraw) hjoin strict date
  | external name law calls => exact (external_follows name law calls date).givesBelow htrue

/-- While what sources remember is right that are apart from each other, each of them gives what its
law says, and what all of them remember stays right. -/
theorem ask_gives_of_apart {sources : List (Source ℝ)} (strict : Bool)
    (hseparate : ∀ source ∈ sources, source.IsSeparate)
    (hapart : ∀ source ∈ sources, ∀ other ∈ sources, source = other ∨ source.Apart other)
    {source : Source ℝ} (hsource : source ∈ sources) (date : Instant ℝ) :
    Run.Gives (fun memory => ∀ other ∈ sources, other.Recalls strict memory) (source.ask date)
      (source.law strict date) := by
  intro memory hrecalls
  obtain ⟨hresult, hkept⟩ :=
    (ask_givesBelow strict (hseparate source hsource) date).gives memory (hrecalls source hsource)
  refine ⟨hresult, fun other hother => ?_⟩
  rcases hapart other hother source hsource with rfl | ⟨hslots, hstores⟩
  · exact hkept
  · exact (hrecalls other hother).congr
      ⟨fun i hi => leaves_slot (hslots hi) date memory,
        fun i hi => leaves_store (hstores hi) date memory, leaves_strict source date memory⟩

end Requests

end FrameKinematics.Source
