import FrameKinematics.Proofs.Source.SlotRequests

/-!
# The history of a slot

Over any requests to a source that keeps the last transform of another one, failed ones and
clearings included, its slot has the transform of the last answered request since the last
clearing. So each request is answered as the raw source answers it, which is asked once for each
request that the slot does not answer.
-/

namespace FrameKinematics

variable {K : Type} [Scalar K]

/-- Two instants are one, or compare as equal. -/
def Instant.Same (a b : Instant K) : Prop := a = b ∨ (a == b) = true

/-- What a slot finds was stored for an instant that compares as equal. -/
theorem Slot.exists_entry_of_find? {α : Type} {s : Slot K α} {date : Instant K} {value : α}
    (h : s.find? date = some value) :
    ∃ stored : Instant K, s.entry = some (stored, value) ∧ stored.Same date := by
  rw [find?] at h
  split at h
  · rename_i stored found hentry
    split at h
    · rename_i hequal
      obtain rfl := Option.some.inj h
      exact ⟨stored, hentry, .inr hequal⟩
    · cases h
  · cases h

/-- A slot has the transform that a law gives at the last instant of interest, and it has nothing
where there is none. -/
def Slot.Recalls (law : Law K) (last : Option (Instant K)) (s : Slot K (Computed K)) : Prop :=
  Option.Rel (fun kept date => kept.1.Same date ∧ law kept.1 = .ok kept.2.transform) s.entry last

namespace SlotSource

/-- The slot of the source recalls the last instant of interest and has counted these requests. -/
def Keeps (c : SlotSource K) (law : Law K) (last : Option (Instant K)) (requests : Nat)
    (memory : Memory K) : Prop :=
  ∃ s, memory.slots[c.slot]? = some s ∧ s.Recalls law last ∧ s.hits + s.misses = requests

/-- The memories that requests to a source and clearings of its slot lead to, each with the instant
of the last answered request since the last clearing, if there is one, and the number of requests.
Before and after each of these a program may do anything that leaves the slot as it is. -/
inductive Requested (c : SlotSource K) (new : Memory K) :
    Option (Instant K) → Nat → Memory K → Prop
  | new : Requested c new none 0 new
  | answered {last : Option (Instant K)} {requests : Nat} {memory : Memory K}
      {value : Computed K} (date : Instant K) (before : Requested c new last requests memory)
      (hanswer : (c.serve date).outcome memory = .ok value) :
      Requested c new (some date) (requests + 1) ((c.serve date).after memory)
  | failed {last : Option (Instant K)} {requests : Nat} {memory : Memory K} {fault : Fault K}
      (date : Instant K) (before : Requested c new last requests memory)
      (hfails : (c.serve date).outcome memory = .error fault) :
      Requested c new last (requests + 1) ((c.serve date).after memory)
  | cleared {last : Option (Instant K)} {requests : Nat} {memory : Memory K}
      (before : Requested c new last requests memory) :
      Requested c new none requests (c.clear.after memory)
  | other {last : Option (Instant K)} {requests : Nat} {memory memory' : Memory K}
      (before : Requested c new last requests memory)
      (slot_eq : memory'.slots[c.slot]? = memory.slots[c.slot]?) :
      Requested c new last requests memory'

section Steps

variable {c : SlotSource K} {law : Law K} {last : Option (Instant K)} {requests : Nat}
  {date : Instant K} {memory left : Memory K}

/-- A request that is answered is the last one from then on. -/
theorem Answering.keeps_of_ok
    (hlaw : ∀ date memory, Computed.transform <$> (c.raw date).outcome memory = law date)
    (hraw : ∀ date, (c.raw date).Leaves (·.slots[c.slot]?)) {value : Computed K}
    (h : c.Answering date memory (.ok value) left) (hkeeps : c.Keeps law last requests memory) :
    c.Keeps law (some date) (requests + 1) left := by
  obtain ⟨s, hs, hrecalls, hcount⟩ := hkeeps
  cases h with
  | found hfind =>
    rw [kept_eq hs] at hfind ⊢
    obtain ⟨stored, hentry, hequal⟩ := Slot.exists_entry_of_find? hfind
    refine ⟨s.hit, slots_putSlot hs s.hit, ?_, ?_⟩
    · -- The entry stays, and recalls the new request as well as the one it was made for.
      rw [Slot.Recalls, hentry] at hrecalls
      cases hrecalls with
      | some hstored =>
        change Option.Rel _ s.entry (some date)
        rw [hentry]
        exact .some ⟨hequal, hstored.2⟩
    · simp only [Slot.hit]
      omega
  | @computed _ asked _ hresult hleft =>
    have hasked := slots_of_asking (hraw date) hs hleft
    have hvalue := hlaw date (c.missed memory)
    rw [hresult] at hvalue
    rw [kept_eq hasked]
    refine ⟨_, slots_putSlot hasked _, ?_, ?_⟩
    · exact .some ⟨.inl rfl, hvalue.symm⟩
    · simp only [Slot.store, Slot.miss]
      omega

/-- A request that fails only counts. -/
theorem Answering.keeps_of_error (hraw : ∀ date, (c.raw date).Leaves (·.slots[c.slot]?))
    {fault : Fault K} (h : c.Answering date memory (.error fault) left)
    (hkeeps : c.Keeps law last requests memory) : c.Keeps law last (requests + 1) left := by
  obtain ⟨s, hs, hrecalls, hcount⟩ := hkeeps
  cases h with
  | failed _ _ hleft =>
    refine ⟨s.miss, slots_of_asking (hraw date) hs hleft, hrecalls, ?_⟩
    simp only [Slot.miss]
    omega

/-- A slot that is cleared recalls nothing and keeps its counts. -/
theorem Keeps.clear (h : c.Keeps law last requests memory) :
    c.Keeps law none requests (c.clear.after memory) := by
  obtain ⟨s, hs, -, hcount⟩ := h
  rw [after_clear, kept_eq hs]
  exact ⟨s.clear, slots_putSlot hs s.clear, .none, hcount⟩

/-- Requests and clearings keep to the history. -/
theorem Requested.keeps
    (hlaw : ∀ date memory, Computed.transform <$> (c.raw date).outcome memory = law date)
    (hraw : ∀ date, (c.raw date).Leaves (·.slots[c.slot]?)) {new : Memory K}
    (hnew : new.slots[c.slot]? = some {}) (h : c.Requested new last requests memory) :
    c.Keeps law last requests memory := by
  induction h with
  | new => exact ⟨{}, hnew, .none, rfl⟩
  | @answered _ _ memory _ date _ hanswer ih =>
    have hstep := c.serve_answering date memory
    rw [hanswer] at hstep
    exact hstep.keeps_of_ok hlaw hraw ih
  | @failed _ _ memory _ date _ hfails ih =>
    have hstep := c.serve_answering date memory
    rw [hfails] at hstep
    exact hstep.keeps_of_error hraw ih
  | cleared _ ih => exact ih.clear
  | other _ slot_eq ih =>
    obtain ⟨s, hs, hrecalls⟩ := ih
    exact ⟨s, slot_eq.trans hs, hrecalls⟩

/-- A request gives what the law gives at its instant, and where the law fails, that surfaces. -/
theorem Answering.answer
    (hlaw : ∀ date memory, Computed.transform <$> (c.raw date).outcome memory = law date)
    {result : Except (Fault K) (Computed K)} (h : c.Answering date memory result left)
    (hkeeps : c.Keeps law last requests memory) :
    (∃ (stored : Instant K) (value : Computed K),
        stored.Same date ∧ law stored = .ok value.transform ∧ result = .ok value) ∨
      ∃ fault, law date = .error fault ∧ result = .error (fault.surfaced c.rawName date) := by
  obtain ⟨s, hs, hrecalls, -⟩ := hkeeps
  have hvalue := hlaw date (c.missed memory)
  cases h with
  | @found value hfind =>
    rw [kept_eq hs] at hfind
    obtain ⟨stored, hentry, hequal⟩ := Slot.exists_entry_of_find? hfind
    rw [Slot.Recalls, hentry] at hrecalls
    cases hrecalls with
    | some hstored => exact .inl ⟨stored, value, hequal, hstored.2, rfl⟩
  | @failed fault _ _ hresult _ =>
    rw [hresult] at hvalue
    exact .inr ⟨fault, hvalue.symm, rfl⟩
  | @computed value _ _ hresult _ =>
    rw [hresult] at hvalue
    exact .inl ⟨date, value, .inl rfl, hvalue.symm, rfl⟩

/-- A request that fails leaves the entry of the slot as it is. -/
theorem Answering.entry_of_error (hraw : ∀ date, (c.raw date).Leaves (·.slots[c.slot]?))
    {fault : Fault K} (h : c.Answering date memory (.error fault) left)
    (hkeeps : c.Keeps law last requests memory) :
    (c.kept left).entry = (c.kept memory).entry := by
  obtain ⟨s, hs, -⟩ := hkeeps
  cases h with
  | failed _ _ hleft =>
    rw [kept_eq hs, kept_eq (slots_of_asking (hraw date) hs hleft)]
    rfl

/-- A request counts as a hit if the slot finds it, and then the raw source is not called; else it
counts as a miss. -/
theorem Answering.kept_counts (hraw : ∀ date, (c.raw date).Leaves (·.slots[c.slot]?))
    {result : Except (Fault K) (Computed K)} (h : c.Answering date memory result left)
    (hkeeps : c.Keeps law last requests memory) :
    ((c.kept left).hits, (c.kept left).misses) =
      if ((c.kept memory).find? date).isSome then
        ((c.kept memory).hits + 1, (c.kept memory).misses)
      else ((c.kept memory).hits, (c.kept memory).misses + 1) := by
  obtain ⟨s, hs, -⟩ := hkeeps
  cases h with
  | found hfind =>
    rw [hfind, kept_eq hs, kept_eq (slots_putSlot hs s.hit)]
    rfl
  | failed hfind _ hleft =>
    rw [hfind, kept_eq hs, kept_eq (slots_of_asking (hraw date) hs hleft)]
    rfl
  | computed hfind _ hleft =>
    have hasked := slots_of_asking (hraw date) hs hleft
    rw [hfind, kept_eq hs, kept_eq hasked, kept_eq (slots_putSlot hasked _)]
    rfl

/-- A raw computation whose calls are counted is called once if the slot does not find the instant,
and else not at all. -/
theorem Answering.calls_eq {calls n : Nat} {raw : Instant K → Run K (Computed K)}
    (hcounted : c.raw = counted calls raw) (hraw : ∀ date, (raw date).Leaves (·.calls[calls]?))
    {result : Except (Fault K) (Computed K)} (h : c.Answering date memory result left)
    (hcount : memory.calls[calls]? = some n) :
    left.calls[calls]? = some (if ((c.kept memory).find? date).isSome then n else n + 1) := by
  have hcalled : ((c.raw date).after (c.missed memory)).calls[calls]? = some (n + 1) := by
    rw [hcounted]
    exact calls_after_counted (hraw date) hcount
  cases h with
  | found hfind =>
    rw [hfind]
    exact hcount
  | failed hfind _ hleft =>
    rw [hfind, hleft.calls_eq]
    exact hcalled
  | computed hfind _ hleft =>
    rw [hfind]
    exact (congrArg (·[calls]?) hleft.calls_eq).trans hcalled

end Steps

/-- What the slot of a source holds is the instant and the raw transform of the last answered
request since the last clearing, and each request so far was a hit or a miss. The next request,
whatever its instant, gives what the raw source gives there. It is a hit if the slot finds its
instant, and then the raw source is not called; else it is a miss, and the raw source is called
once. If it fails, the slot holds what it held. -/
structure Memoises (c : SlotSource K) (law : Law K) (last : Option (Instant K)) (requests : Nat)
    (memory : Memory K) : Prop where
  recalls : (c.kept memory).Recalls law last
  requests_eq : (c.kept memory).hits + (c.kept memory).misses = requests
  answer : ∀ date,
    (∃ (stored : Instant K) (value : Computed K), stored.Same date ∧
        law stored = .ok value.transform ∧ (c.serve date).outcome memory = .ok value) ∨
      ∃ fault, law date = .error fault ∧
        (c.serve date).outcome memory = .error (fault.surfaced c.rawName date)
  counts : ∀ date,
    ((c.kept ((c.serve date).after memory)).hits, (c.kept ((c.serve date).after memory)).misses) =
      if ((c.kept memory).find? date).isSome then
        ((c.kept memory).hits + 1, (c.kept memory).misses)
      else ((c.kept memory).hits, (c.kept memory).misses + 1)
  calls_eq : ∀ calls raw, c.raw = counted calls raw →
    (∀ date, (raw date).Leaves (·.calls[calls]?)) →
    ∀ date n, memory.calls[calls]? = some n →
      ((c.serve date).after memory).calls[calls]? =
        some (if ((c.kept memory).find? date).isSome then n else n + 1)
  entry_of_error : ∀ date fault, (c.serve date).outcome memory = .error fault →
    (c.kept ((c.serve date).after memory)).entry = (c.kept memory).entry

/-- Whatever the raw source is, as long as its transforms depend on the instant alone and it does
not use the slot itself, and whichever requests fail: a source that keeps the last transform gives
the transforms of the raw source, and its slot tells how often it was asked. -/
theorem requested_memoises {c : SlotSource K} {law : Law K}
    (hlaw : ∀ date memory, Computed.transform <$> (c.raw date).outcome memory = law date)
    (hraw : ∀ date, (c.raw date).Leaves (·.slots[c.slot]?))
    {new : Memory K} (hnew : new.slots[c.slot]? = some {}) {last : Option (Instant K)}
    {requests : Nat} {memory : Memory K} (h : c.Requested new last requests memory) :
    c.Memoises law last requests memory := by
  have hkeeps := h.keeps hlaw hraw hnew
  have ⟨s, hs, hrecalls, hcount⟩ := hkeeps
  refine ⟨?_, ?_, ?_, ?_, ?_, ?_⟩
  · rw [kept_eq hs]
    exact hrecalls
  · rw [kept_eq hs]
    exact hcount
  · intro date
    exact (c.serve_answering date memory).answer hlaw hkeeps
  · intro date
    exact (c.serve_answering date memory).kept_counts hraw hkeeps
  · intro calls raw hcounted hleaves date n hcalls
    exact (c.serve_answering date memory).calls_eq hcounted hleaves hcalls
  · intro date fault hfails
    have hstep := c.serve_answering date memory
    rw [hfails] at hstep
    exact hstep.entry_of_error hraw hkeeps

section Examples

/-- A source that keeps the last transform until J2000.0. -/
def lastEnding : SlotSource Float := ⟨"Raw", Source.ending.serve, 0⟩

/-- Memory after a request, the same one again, and one that fails. -/
def requestedTwice : Memory Float :=
  (lastEnding.serve ⟨60, 0.0⟩).after
    ((lastEnding.serve .j2000).after ((lastEnding.serve .j2000).after freshMemory))

/-- A source with a slot memoises the law of a raw source that ends. -/
theorem lastEnding_memoises :
    (Source.cached Source.ending 0).serve = lastEnding.serve ∧
      lastEnding.raw = counted 0 (fun date => Source.compute (Source.endingLaw date)) ∧
      (∀ date memory, Computed.transform <$> (lastEnding.raw date).outcome memory =
        Source.endingLaw date) ∧
      (∀ date, (lastEnding.raw date).Leaves (·.slots[lastEnding.slot]?)) ∧
      freshMemory.slots[lastEnding.slot]? = some {} ∧
      lastEnding.Requested freshMemory (some .j2000) 3 requestedTwice ∧
      lastEnding.Memoises Source.endingLaw (some .j2000) 3 requestedTwice := by
  have hcounted : lastEnding.raw = counted 0 fun date => Source.compute (Source.endingLaw date) :=
    Source.serve_external "Raw" Source.endingLaw 0
  have hlaw : ∀ date memory, Computed.transform <$> (lastEnding.raw date).outcome memory =
      Source.endingLaw date := by
    intro date memory
    rw [hcounted, outcome_counted]
    exact Source.outcome_compute (Source.endingLaw date) (memory.called 0)
  have hraw : ∀ date, (lastEnding.raw date).Leaves (·.slots[lastEnding.slot]?) := by
    intro date
    rw [hcounted]
    exact leaves_counted (Source.leaves_compute _ fun _ _ => rfl) fun _ => rfl
  have hnew : lastEnding.Requested freshMemory none 0 freshMemory := .new
  have hrequested := ((hnew.answered .j2000 rfl).answered .j2000 rfl).failed ⟨60, 0.0⟩ rfl
  exact ⟨serve_cached Source.ending 0, hcounted, hlaw, hraw, rfl, hrequested,
    requested_memoises hlaw hraw rfl hrequested⟩

/-- Beyond the calendar, the failure of the raw source does not surface. -/
theorem lastEnding_loses_failure :
    lastEnding.Requested freshMemory none 0 freshMemory ∧
      Source.endingLaw afterCalendar = .error (.reported .value "no data") ∧
      (lastEnding.serve afterCalendar).outcome freshMemory = .error .outsideCalendar :=
  ⟨.new, rfl, rfl⟩

end Examples

end SlotSource

end FrameKinematics
