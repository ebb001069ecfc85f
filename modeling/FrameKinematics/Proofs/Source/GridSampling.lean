import FrameKinematics.Proofs.Source.CountedCalls
import FrameKinematics.Proofs.Source.GridRequests
import FrameKinematics.Proofs.Source.GuardedRequests
import FrameKinematics.Proofs.Source.Purity

/-!
# Sampling a time grid

A request to a source that interpolates comes to the grid points around its instant one after
the other, until one of them cannot be sampled. Here is all that one sample can do, for any raw
computation whatever, and what follows for the samples of a request.
-/

namespace FrameKinematics

variable {K : Type}

/-- Memory with another sample store under a number. -/
def Memory.putStore (memory : Memory K) (i : Nat) (s : SampleStore (Transform K)) : Memory K :=
  { memory with stores := memory.stores.setIfInBounds i s }

/-- A source that interpolates on a time grid. What gives its raw transforms may be any
computation, which may use memory and fail. -/
structure GridSource (K : Type) where
  settings : GridSettings K
  /-- The name of the kind of the raw source. -/
  rawName : String
  raw : Instant K → Run K (Transform K)
  /-- The number of the sample store. -/
  store : Nat

namespace GridSource

variable [Scalar K] (g : GridSource K)

/-- The sample at a grid point. -/
def sample (index : Int) : Run K (Transform K) :=
  Grid.sample (Run.store g.store) g.settings.capacity
    (fun i => Grid.date g.settings.step (.whole i)) g.rawName g.raw index

/-- The transform at an instant. -/
def serve (date : Instant K) : Run K (Computed K) := do
  Run.computed (← Grid.request (Run.store g.store) g.settings g.rawName g.raw date)

/-- A source of the library that interpolates is such a source. -/
theorem serve_interpolating (raw : Source K) (settings : GridSettings K) (store : Nat) :
    (Source.interpolating raw settings store).serve =
      (⟨settings, raw.kindName, raw.ask, store⟩ : GridSource K).serve := rfl

/-- The samples that are stored. -/
def samples (memory : Memory K) : SampleStore (Transform K) := memory.stores.getD g.store {}

/-- The indices of the samples that are stored, in order of use. -/
def cached (memory : Memory K) : List Int := (g.samples memory).indices

/-- The instant at which the raw source is asked for a grid point. There is none if the grid point
has no instant, or if a strict journal cannot note its instant. -/
def asks (memory : Memory K) (index : Int) : Except (Fault K) (Instant K) := do
  let t ← Grid.date g.settings.step (.whole index)
  Grid.announced memory.isJournalStrict t
  return t

/-- Where the journal is not strict, the instant of the grid point is all that is needed. -/
theorem asks_of_lenient {memory : Memory K} (hlenient : memory.isJournalStrict = false)
    (index : Int) : g.asks memory index = Grid.date g.settings.step (.whole index) := by
  rw [asks, hlenient]
  exact bind_pure _

/-- What a sample at a grid point can do, by its result and the memory that it leaves. -/
inductive Sampling (index : Int) (memory : Memory K) :
    Except (Fault K) (Transform K) → Memory K → Prop
  /-- A sample that is stored is used. -/
  | found {value : Transform K} (hfind : (g.samples memory).find? index = some value) :
      Sampling index memory (.ok value)
        (memory.putStore g.store ((g.samples memory).put index value))
  /-- The raw source is not asked. -/
  | unreachable {fault : Fault K} {memory' : Memory K}
      (hfind : (g.samples memory).find? index = none)
      (hasks : g.asks memory index = .error fault) (hleft : memory.Noted memory') :
      Sampling index memory (.error fault) memory'
  /-- The raw source is asked and fails. -/
  | failed {t : Instant K} {fault : Fault K} {asked memory' : Memory K}
      (hfind : (g.samples memory).find? index = none) (hasks : g.asks memory index = .ok t)
      (hasked : memory.Noted asked) (hraw : (g.raw t).outcome asked = .error fault)
      (hleft : ((g.raw t).after asked).Noted memory') :
      Sampling index memory (.error (fault.surfaced g.rawName t)) memory'
  /-- The raw source is asked, and what it gives is stored. -/
  | fetched {t : Instant K} {value : Transform K} {asked answered : Memory K}
      (hfind : (g.samples memory).find? index = none) (hasks : g.asks memory index = .ok t)
      (hasked : memory.Noted asked) (hraw : (g.raw t).outcome asked = .ok value)
      (hleft : ((g.raw t).after asked).Noted answered) :
      Sampling index memory (.ok value) (answered.putStore g.store
        (((g.samples answered).put index value).trim g.settings.capacity))

/-- Finds the instant of a grid point and reports that the raw source is asked for it. -/
def reach (index : Int) : Run K (Instant K) := do
  let t ← ofExcept (Grid.date g.settings.step (.whole index))
  Grid.announce index t
  return t

/-- Asks the raw source for a grid point and stores what it gives. -/
def fetch (index : Int) (t : Instant K) : Run K (Transform K) := do
  let value ← guarded g.rawName g.raw t
  (Run.store g.store).set
    (((← (Run.store g.store).get).put index value).trim g.settings.capacity)
  return value

/-- A sample that is not found is reached and fetched. -/
theorem sample_eq (index : Int) : g.sample index = (do
    let s ← (Run.store g.store).get
    match s.find? index with
    | some value =>
      (Run.store g.store).set (s.put index value)
      return value
    | none => g.reach index >>= g.fetch index) := by
  rw [sample, Grid.sample]
  congr 1
  funext s
  cases s.find? index with
  | some value => rfl
  | none => simp only [reach, fetch, bind_assoc, pure_bind]

/-- A report of a request for a raw transform fails where a strict journal cannot note it. -/
theorem announce_spec (index : Int) (t : Instant K) (memory : Memory K) :
    (Grid.announce index t : Run K Unit).outcome memory =
        Grid.announced memory.isJournalStrict t ∧
      memory.Noted ((Grid.announce index t : Run K Unit).after memory) := by
  rw [Grid.announce, Grid.announced]
  cases t.text with
  | ok label => exact ⟨(ite_self _).symm, _, rfl⟩
  | error fault =>
    rw [Run.outcome_bind_of_ok (Run.outcome_isStrict memory),
      Run.after_bind_of_ok (Run.outcome_isStrict memory), Run.after_isStrict]
    cases memory.isJournalStrict with
    | false => exact ⟨rfl, _, rfl⟩
    | true => exact ⟨rfl, _, rfl⟩

/-- Reaching a grid point finds its instant or fails, and changes nothing but the journal. -/
theorem reach_spec (index : Int) (memory : Memory K) :
    (g.reach index).outcome memory = g.asks memory index ∧
      memory.Noted ((g.reach index).after memory) := by
  rw [reach, asks, Run.outcome_bind, Run.after_bind]
  cases Grid.date g.settings.step (.whole index) with
  | error fault => exact ⟨rfl, _, rfl⟩
  | ok t =>
    obtain ⟨hresult, hnoted⟩ := announce_spec index t memory
    rw [Run.outcome_ofExcept, Run.after_ofExcept]
    refine ⟨?_, ?_⟩
    · change (Grid.announce index t >>= fun _ => pure t : Run K (Instant K)).outcome memory = _
      rw [Run.outcome_bind, hresult]
      rfl
    · change memory.Noted
        ((Grid.announce index t >>= fun _ => pure t : Run K (Instant K)).after memory)
      rw [Run.after_bind]
      cases (Grid.announce index t : Run K Unit).outcome memory <;> exact hnoted

variable {g}

/-- What a grid point that is reached does is one of the two that ask the raw source. -/
theorem fetch_sampling {index : Int} {memory asked : Memory K} {t : Instant K}
    (hfind : (g.samples memory).find? index = none) (hasks : g.asks memory index = .ok t)
    (hasked : memory.Noted asked) :
    g.Sampling index memory ((g.fetch index t).outcome asked) ((g.fetch index t).after asked) := by
  have hresult := outcome_guarded g.rawName g.raw t asked
  have hleft := after_guarded g.rawName g.raw t asked
  cases hraw : (g.raw t).outcome asked with
  | ok value =>
    rw [hraw] at hresult
    rw [fetch, Run.outcome_bind_of_ok hresult, Run.after_bind_of_ok hresult]
    exact .fetched hfind hasks hasked hraw hleft
  | error fault =>
    rw [hraw] at hresult
    rw [fetch, Run.outcome_bind_of_error hresult, Run.after_bind_of_error hresult]
    exact .failed hfind hasks hasked hraw hleft

/-- This is all that a sample does. -/
theorem sample_sampling (index : Int) (memory : Memory K) :
    g.Sampling index memory ((g.sample index).outcome memory)
      ((g.sample index).after memory) := by
  have hget : ((Run.store g.store).get : Run K _).outcome memory = .ok (g.samples memory) := rfl
  have hsame : ((Run.store g.store).get : Run K _).after memory = memory := rfl
  rw [sample_eq, Run.outcome_bind_of_ok hget, Run.after_bind_of_ok hget, hsame]
  cases hfind : (g.samples memory).find? index with
  | some value => exact .found hfind
  | none =>
    obtain ⟨hreach, hasked⟩ := g.reach_spec index memory
    cases hasks : g.asks memory index with
    | error fault =>
      rw [hasks] at hreach
      simp only [Run.outcome_bind_of_error hreach, Run.after_bind_of_error hreach]
      exact .unreachable hfind hasks hasked
    | ok t =>
      rw [hasks] at hreach
      simp only [Run.outcome_bind_of_ok hreach, Run.after_bind_of_ok hreach]
      exact fetch_sampling hfind hasks hasked

end GridSource

end FrameKinematics
