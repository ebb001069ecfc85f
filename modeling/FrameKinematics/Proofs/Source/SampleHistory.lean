import FrameKinematics.Proofs.Source.SampleUses
import FrameKinematics.Scalar.Binary64

/-!
# The history of a sample store

Over any requests to a source that interpolates, failed ones included, its store lists the last
distinct indices that were sampled with success, as many as its capacity allows. The raw source
is called for an index exactly when the store does not list it at that moment and its grid point
has an instant. Only where a strict journal is kept does that instant need a label as well.
-/

namespace FrameKinematics.GridSource

variable {K : Type} [Scalar K]

/-- The memories that requests to a source lead to, each with the indices that were sampled with
success, in order. Before and after each request a program may do anything that leaves the store of
the source as it is. -/
inductive Requested (g : GridSource K) (new : Memory K) : List Int → Memory K → Prop
  | new : Requested g new [] new
  | request {used : List Int} {memory : Memory K} (date : Instant K)
      (before : Requested g new used memory) :
      Requested g new (used ++ g.sampled date memory) ((g.serve date).after memory)
  | other {used : List Int} {memory memory' : Memory K} (before : Requested g new used memory)
      (store_eq : memory'.stores[g.store]? = memory.stores[g.store]?) :
      Requested g new used memory'

/-- What each use of the store preserves, requests preserve. -/
theorem Requested.keeps {g : GridSource K} {P : List Int → SampleStore (Transform K) → Prop}
    {new memory : Memory K} {used : List Int} (hP : g.IsInvariant P) (hempty : P [] {})
    (hraw : ∀ t, (g.raw t).Leaves (·.stores[g.store]?)) (hnew : new.stores[g.store]? = some {})
    (h : g.Requested new used memory) : g.Keeps P used memory := by
  induction h with
  | new => exact ⟨{}, hnew, hempty⟩
  | request date _ ih => exact ih.serve hP hraw date
  | other _ store_eq ih => exact ih.of_store_eq store_eq

/-- Requests keep to the history of uses. -/
theorem Requested.lists {g : GridSource K} {capacity : Int} {new memory : Memory K}
    {used : List Int} (hraw : ∀ t, (g.raw t).Leaves (·.stores[g.store]?))
    (hcapacity : g.settings.capacity = .whole capacity) (hnew : new.stores[g.store]? = some {})
    (h : g.Requested new used memory) :
    g.Lists (SampleStore.lastUsed capacity.toNat used) memory :=
  h.keeps (isInvariant_lastUsed hcapacity) (by simp [SampleStore.lastUsed, SampleStore.indices])
    hraw hnew

/-- The store of a source lists the last distinct indices that were sampled with success, each once
and in the order of use. At each moment of the next request, the raw source is called once if the
index is not listed and its grid point has an instant, which a strict journal has to be able to
note, and else not at all; and if the request succeeds, its grid points come last in the list, in
increasing order. -/
structure ListsLastUsed (g : GridSource K) (points capacity : Int) (used : List Int)
    (memory : Memory K) : Prop where
  cached_eq : g.cached memory = SampleStore.lastUsed capacity.toNat used
  length_le : (g.cached memory).length ≤ capacity.toNat
  nodup : (g.cached memory).Nodup
  calls_eq : ∀ calls raw, g.raw = counted calls raw →
    (∀ t, (raw t).Leaves (·.calls[calls]?)) →
    ∀ date, ∀ moment ∈ g.moments date memory, ∀ n, moment.2.calls[calls]? = some n →
      ((g.sample moment.1).after moment.2).calls[calls]? =
        some (if moment.1 ∉ g.cached moment.2 ∧ (g.asks moment.2 moment.1).isOk then n + 1 else n)
  calls_of_lenient : ∀ calls raw, g.raw = counted calls raw →
    (∀ t, (raw t).Leaves (·.calls[calls]?)) →
    ∀ date, ∀ moment ∈ g.moments date memory, moment.2.isJournalStrict = false →
      ∀ n, moment.2.calls[calls]? = some n →
        ((g.sample moment.1).after moment.2).calls[calls]? =
          some (if moment.1 ∉ g.cached moment.2 ∧
            (Grid.date g.settings.step (.whole moment.1)).isOk then n + 1 else n)
  window_last : ∀ date c, (g.serve date).outcome memory = .ok c →
    Grid.indices g.settings date = .ok (g.window date) ∧
      (g.window date).Pairwise (· < ·) ∧ (g.window date).length = points.toNat ∧
      (g.cached ((g.serve date).after memory)).rtake points.toNat = g.window date

/-- Whatever the raw source does, as long as it does not use the store itself, and whichever
requests fail: the store of a source that interpolates is ordered by last use. -/
theorem requested_listsLastUsed {g : GridSource K} {points capacity : Int}
    (hpoints : g.settings.points = .whole points) (htwo : 2 ≤ points)
    (hcapacity : g.settings.capacity = .whole capacity) (hroom : points ≤ capacity)
    (hraw : ∀ t, (g.raw t).Leaves (·.stores[g.store]?))
    {new : Memory K} (hnew : new.stores[g.store]? = some {}) {used : List Int} {memory : Memory K}
    (h : g.Requested new used memory) : g.ListsLastUsed points capacity used memory := by
  have hlists := h.lists hraw hcapacity hnew
  have hcached := hlists.cached_eq
  refine ⟨hcached, ?_, ?_, ?_, ?_, ?_⟩
  · rw [hcached]
    exact SampleStore.length_lastUsed_le _ _
  · rw [hcached]
    exact SampleStore.nodup_lastUsed _ _
  · intro calls raw hcounted hleaves date moment _ n hcount
    exact (g.sample_sampling moment.1 moment.2).calls_eq hcounted hleaves hcount
  · intro calls raw hcounted hleaves date moment _ hlenient n hcount
    have hcalls := (g.sample_sampling moment.1 moment.2).calls_eq hcounted hleaves hcount
    rwa [g.asks_of_lenient hlenient] at hcalls
  · intro date c hc
    obtain ⟨hindices, hsampled⟩ := window_of_serve_eq_ok hc
    have hlength := length_of_indices_eq_ok hpoints hindices
    have hdistinct := (window_spec hpoints date).1
    refine ⟨hindices, Grid.indices_increasing hindices, hlength, ?_⟩
    rw [(hlists.serve hraw hcapacity date).cached_eq, hsampled, ← hlength]
    exact SampleStore.rtake_lastUsed_append hdistinct (by omega) used

section Examples

/-- Two grid points a minute apart, and no room for more samples than that. -/
def sparse : GridSettings Float :=
  ⟨.whole 2, .whole 60, .whole 2, .of .withSecond, .of .withSecond⟩

/-- A source that interpolates between transforms until J2000.0 on this grid. -/
def sparseEnding : GridSource Float := ⟨sparse, "Raw", Source.ending.ask, 0⟩

/-- A source from outside leaves all sample stores as they are. -/
theorem leaves_ending (t : Instant Float) : (Source.ending.ask t).Leaves (·.stores[0]?) :=
  leaves_ask_of_follows (Source.external_follows "Raw" Source.endingLaw 0) 0 t

/-- Memory after a request that fails behind its first sample, and another one. -/
def requestedAtEnd : Memory Float :=
  (sparseEnding.serve ⟨-60, 0.0⟩).after ((sparseEnding.serve .j2000).after freshMemory)

/-- Over a raw source that ends, the store lists the last used indices after a request that fails on
the way. -/
theorem sparseEnding_listsLastUsed :
    (Source.interpolating Source.ending sparse 0).serve = sparseEnding.serve ∧
      sparseEnding.settings.points = .whole 2 ∧ sparseEnding.settings.capacity = .whole 2 ∧
      (∀ t, (sparseEnding.raw t).Leaves (·.stores[sparseEnding.store]?)) ∧
      freshMemory.stores[sparseEnding.store]? = some {} ∧
      sparseEnding.Requested freshMemory [0, -1, 0] requestedAtEnd ∧
      sparseEnding.ListsLastUsed 2 2 [0, -1, 0] requestedAtEnd := by
  have hfirst : sparseEnding.sampled .j2000 freshMemory = [0] := by decide +kernel
  have hsecond : sparseEnding.sampled ⟨-60, 0.0⟩
      ((sparseEnding.serve .j2000).after freshMemory) = [-1, 0] := by decide +kernel
  have hnew : sparseEnding.Requested freshMemory [] freshMemory := .new
  have hrequested := (hnew.request .j2000).request ⟨-60, 0.0⟩
  rw [hfirst, hsecond] at hrequested
  exact ⟨serve_interpolating Source.ending sparse 0, rfl, rfl, leaves_ending, rfl, hrequested,
    requested_listsLastUsed rfl (by decide) rfl (by decide) leaves_ending rfl hrequested⟩

/-- Steps so long that the second grid point before J2000.0 is before all instants. -/
def steep : GridSettings Float :=
  ⟨.whole 5, .real 1e308, .whole 5, .of .withSecond, .of .withSecond⟩

/-- A source that interpolates on such a grid. -/
def steepEnding : GridSource Float := ⟨steep, "Raw", Source.ending.ask, 0⟩

/-- The settings are accepted and the step is finite, but for a grid point that is not listed the
raw source is not called, because the grid point has no instant. -/
theorem steepEnding_not_called :
    steep.check.isOk = true ∧ Scalar.isInfinite (1e308 : Float) = false ∧
      steepEnding.Requested freshMemory [] freshMemory ∧
      (-2, freshMemory) ∈ steepEnding.moments .j2000 freshMemory ∧
      -2 ∉ steepEnding.cached freshMemory ∧ freshMemory.calls[0]? = some 0 ∧
      ((steepEnding.sample (-2)).after freshMemory).calls[0]? = some 0 := by
  have hwindow : steepEnding.window .j2000 = [-2, -1, 0, 1, 2] := by decide +kernel
  refine ⟨by decide +kernel, by decide +kernel, .new, ?_, by decide +kernel, rfl,
    by decide +kernel⟩
  rw [moments, hwindow, Run.moments]
  exact List.mem_cons_self

end Examples

end FrameKinematics.GridSource
