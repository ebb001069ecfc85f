import FrameKinematics.Proofs.Source.SampleHistory

/-!
# What a failed request leaves behind

A request that fails has perhaps fetched samples before. It does not take them back: they stay in
the store, and those that made room for them are gone. Only the grid point that failed is not
stored. So the indices in the store are the same as before exactly if all grid points that the
request sampled were in the store already.
-/

namespace FrameKinematics.GridSource

variable {K : Type} [Scalar K]

/-- What a request, which may fail, leaves in the store of a source that interpolates. -/
structure Leaving (g : GridSource K) (capacity : Int) (used : List Int) (date : Instant K)
    (memory : Memory K) : Prop where
  /-- The request samples the first of its grid points. -/
  sampled_starts : g.sampled date memory <+: g.window date
  /-- These are uses, whatever happens at the next grid point or when they are joined. -/
  cached_eq : g.cached ((g.serve date).after memory) =
    SampleStore.lastUsed capacity.toNat (used ++ g.sampled date memory)
  /-- The indices in the store change exactly if one of them was not there. -/
  unchanged_iff : (∀ index, index ∈ g.cached ((g.serve date).after memory) ↔
      index ∈ g.cached memory) ↔ ∀ index ∈ g.sampled date memory, index ∈ g.cached memory
  /-- A grid point that fails makes the request fail and is not stored. -/
  failed_not_mem : ∀ moment ∈ g.moments date memory, ∀ fault,
    (g.sample moment.1).outcome moment.2 = .error fault →
    (g.serve date).outcome memory = .error fault ∧
      moment.1 ∉ g.cached ((g.serve date).after memory)

/-- After any requests, failed ones included, a request leaves the samples that it took before it
failed, if it did. -/
theorem request_leaves_samples {g : GridSource K} {points capacity : Int}
    (hpoints : g.settings.points = .whole points)
    (hcapacity : g.settings.capacity = .whole capacity) (hroom : points ≤ capacity)
    (hraw : ∀ t, (g.raw t).Leaves (·.stores[g.store]?))
    {new : Memory K} (hnew : new.stores[g.store]? = some {}) {used : List Int} {memory : Memory K}
    (h : g.Requested new used memory) (date : Instant K) :
    g.Leaving capacity used date memory := by
  have hlists := h.lists hraw hcapacity hnew
  have hcached := hlists.cached_eq
  have hleft := (hlists.serve hraw hcapacity date).cached_eq
  have hstart : g.sampled date memory <+: g.window date := Run.passed_starts _ _
  obtain ⟨hdistinct, hlength⟩ := window_spec hpoints date
  refine ⟨hstart, hleft, ⟨fun hsame index hindex => ?_, fun hknown index => ?_⟩, ?_⟩
  · -- The samples fit into the store, so all of them are still there at the end.
    have hfit : (g.sampled date memory).length ≤ capacity.toNat := by
      have hshorter := hstart.length_le
      omega
    have hrecent := SampleStore.rtake_lastUsed_append (hdistinct.sublist hstart.sublist) hfit used
    rw [← hsame index, hleft]
    rw [← hrecent] at hindex
    exact List.mem_of_mem_drop hindex
  · rw [hcached] at hknown ⊢
    rw [hleft]
    exact (SampleStore.perm_lastUsed_append hknown).mem_iff
  · intro moment hmoment fault hfails
    obtain ⟨hresult, hend⟩ := serve_of_failure hmoment hfails
    have hstep := g.sample_sampling moment.1 moment.2
    rw [hfails] at hstep
    rw [hend, cached_congr (hstep.store_of_error hraw)]
    exact ⟨hresult, hstep.not_mem_of_error⟩

/-- From a new source whose raw source ends, a request that fails leaves just this. -/
theorem sparseEnding_leaves_samples :
    sparseEnding.settings.points = .whole 2 ∧ sparseEnding.settings.capacity = .whole 2 ∧
      (∀ t, (sparseEnding.raw t).Leaves (·.stores[sparseEnding.store]?)) ∧
      freshMemory.stores[sparseEnding.store]? = some {} ∧
      sparseEnding.Requested freshMemory [] freshMemory ∧
      sparseEnding.Leaving 2 [] .j2000 freshMemory := by
  exact ⟨rfl, rfl, leaves_ending, rfl, .new,
    request_leaves_samples rfl rfl (by decide) leaves_ending rfl .new .j2000⟩

/-- A request to a new source fails at its second grid point, which lies behind the end of the law,
and its first grid point is stored. -/
theorem failed_request_stores_sample :
    sparseEnding.window .j2000 = [0, 1] ∧
      ((sparseEnding.serve .j2000).outcome freshMemory).isOk = false ∧
      sparseEnding.cached freshMemory = [] ∧
      sparseEnding.cached ((sparseEnding.serve .j2000).after freshMemory) = [0] := by
  decide +kernel

end FrameKinematics.GridSource
