import FrameKinematics.Proofs.Interpolation.Purity
import FrameKinematics.Proofs.Source.GridSampling
import FrameKinematics.Proofs.Source.RecentUse
import FrameKinematics.Proofs.Source.RunsOverLists

/-!
# Samples as uses

A sample of a source that interpolates is a use of its index in the store of the source, and a
sample that fails is none. So a request uses the grid points around its instant in order, up to
the first that fails, and joining the samples concerns no store. What one use preserves, a request
preserves, whether it succeeds or fails.
-/

namespace FrameKinematics.GridSource

variable {K : Type} {g : GridSource K}

section Steps

/-- The store of the source is there and lists these indices, in order of use. -/
def Lists (g : GridSource K) (indices : List Int) (memory : Memory K) : Prop :=
  ∃ s, memory.stores[g.store]? = some s ∧ s.indices = indices

/-- The samples of the source are those of its store. -/
theorem samples_eq {memory : Memory K} {s : SampleStore (Transform K)}
    (hs : memory.stores[g.store]? = some s) : g.samples memory = s := by
  rw [samples, Array.getD_eq_getD_getElem?, hs]
  rfl

/-- A store that lists indices has them as its cached indices. -/
theorem Lists.cached_eq {indices : List Int} {memory : Memory K} (h : g.Lists indices memory) :
    g.cached memory = indices := by
  obtain ⟨s, hs, rfl⟩ := h
  rw [cached, samples_eq hs]

/-- The list is read off the store. -/
theorem cached_congr {memory memory' : Memory K}
    (heq : memory'.stores[g.store]? = memory.stores[g.store]?) :
    g.cached memory' = g.cached memory := by
  rw [cached, cached, samples, samples, Array.getD_eq_getD_getElem?, heq,
    ← Array.getD_eq_getD_getElem?]

/-- The store of the source is there and has a property, after some uses. -/
def Keeps (g : GridSource K) (P : List Int → SampleStore (Transform K) → Prop) (used : List Int)
    (memory : Memory K) : Prop :=
  ∃ s, memory.stores[g.store]? = some s ∧ P used s

/-- What concerns another part of memory leaves the store as it is. -/
theorem Keeps.of_store_eq {P : List Int → SampleStore (Transform K) → Prop} {used : List Int}
    {memory memory' : Memory K} (h : g.Keeps P used memory)
    (heq : memory'.stores[g.store]? = memory.stores[g.store]?) : g.Keeps P used memory' := by
  obtain ⟨s, hs, hused⟩ := h
  exact ⟨s, heq.trans hs, hused⟩

/-- Another store may take the place of the one that is there. -/
theorem stores_putStore {memory : Memory K} {i : Nat} {old : SampleStore (Transform K)}
    (hold : memory.stores[i]? = some old) (s : SampleStore (Transform K)) :
    (memory.putStore i s).stores[i]? = some s := by
  obtain ⟨hbound, -⟩ := Array.getElem?_eq_some_iff.mp hold
  simp [Memory.putStore, hbound]

/-- A source that follows a law uses no sample store. -/
theorem leaves_ask_of_follows [Scalar K] {source : Source K} {law : Law K}
    (h : source.Follows law) (i : Nat) (t : Instant K) :
    (source.ask t).Leaves (·.stores[i]?) := by
  intro memory
  exact congrArg (·[i]?) (h t memory).2.stores_eq

/-- Asking a raw source that does not use the store leaves it as it is. -/
theorem store_of_asking {memory asked memory' : Memory K} {t : Instant K}
    (hraw : ∀ t, (g.raw t).Leaves (·.stores[g.store]?)) (hasked : memory.Noted asked)
    (hleft : ((g.raw t).after asked).Noted memory') :
    memory'.stores[g.store]? = memory.stores[g.store]? := by
  have hbefore : asked.stores[g.store]? = memory.stores[g.store]? := by rw [hasked.stores_eq]
  have hafter : memory'.stores[g.store]? = ((g.raw t).after asked).stores[g.store]? := by
    rw [hleft.stores_eq]
  exact hafter.trans ((hraw t asked).trans hbefore)

variable [Scalar K] {index : Int} {memory memory' : Memory K}

/-- A sample that fails leaves the store as it is. -/
theorem Sampling.store_of_error (hraw : ∀ t, (g.raw t).Leaves (·.stores[g.store]?))
    {fault : Fault K} (h : g.Sampling index memory (.error fault) memory') :
    memory'.stores[g.store]? = memory.stores[g.store]? := by
  cases h with
  | unreachable _ _ hleft => rw [hleft.stores_eq]
  | failed _ _ hasked _ hleft => exact store_of_asking hraw hasked hleft

/-- A property of stores, and of the uses before, that each further use preserves. -/
structure IsInvariant (g : GridSource K) (P : List Int → SampleStore (Transform K) → Prop) :
    Prop where
  /-- A sample that is stored is used again. -/
  found : ∀ used s index value, P used s → index ∈ s.indices →
    P (used ++ [index]) (s.put index value)
  /-- A new sample is stored, and others may make room for it. -/
  fetched : ∀ used s index value, P used s →
    P (used ++ [index]) ((s.put index value).trim g.settings.capacity)

/-- A sample is a use of its index. -/
theorem Sampling.keeps_of_ok {P : List Int → SampleStore (Transform K) → Prop} {used : List Int}
    (hP : g.IsInvariant P) (hraw : ∀ t, (g.raw t).Leaves (·.stores[g.store]?))
    {value : Transform K} (h : g.Sampling index memory (.ok value) memory')
    (hkeeps : g.Keeps P used memory) : g.Keeps P (used ++ [index]) memory' := by
  obtain ⟨s, hs, hused⟩ := hkeeps
  cases h with
  | found hfind =>
    rw [samples_eq hs] at hfind ⊢
    have hmem : index ∈ s.indices := SampleStore.find?_isSome_iff.mp (by rw [hfind]; rfl)
    exact ⟨_, stores_putStore hs _, hP.found _ _ _ _ hused hmem⟩
  | fetched _ _ hasked _ hleft =>
    have hkept := (store_of_asking hraw hasked hleft).trans hs
    rw [samples_eq hkept]
    exact ⟨_, stores_putStore hkept _, hP.fetched _ _ _ _ hused⟩

/-- With a whole capacity a store lists the last distinct indices that were used. -/
theorem isInvariant_lastUsed {capacity : Int} (hcapacity : g.settings.capacity = .whole capacity) :
    g.IsInvariant fun used s => s.indices = SampleStore.lastUsed capacity.toNat used where
  found used s index value hused hmem := by
    have hfit : s.indices.length ≤ capacity.toNat := by
      rw [hused]
      exact SampleStore.length_lastUsed_le _ _
    rw [SampleStore.indices_put_of_mem hmem hfit, hused, ← SampleStore.lastUsed_concat]
  fetched used s index value hused := by
    rw [hcapacity, SampleStore.indices_trim_put, hused, ← SampleStore.lastUsed_concat]

/-- A sample that fails was not listed. -/
theorem Sampling.not_mem_of_error {fault : Fault K}
    (h : g.Sampling index memory (.error fault) memory') : index ∉ g.cached memory := by
  cases h with
  | unreachable hfind => exact SampleStore.find?_eq_none_iff.mp hfind
  | failed hfind => exact SampleStore.find?_eq_none_iff.mp hfind

/-- A raw computation whose calls are counted is called once if the index is not listed and the
grid point can be reached, and else not at all. -/
theorem Sampling.calls_eq {calls n : Nat} {raw : Instant K → Run K (Transform K)}
    (hcounted : g.raw = counted calls raw) (hraw : ∀ t, (raw t).Leaves (·.calls[calls]?))
    {result : Except (Fault K) (Transform K)} (h : g.Sampling index memory result memory')
    (hcount : memory.calls[calls]? = some n) :
    memory'.calls[calls]? =
      some (if index ∉ g.cached memory ∧ (g.asks memory index).isOk then n + 1 else n) := by
  have hcalled : ∀ (t : Instant K) (asked : Memory K), memory.Noted asked →
      ((g.raw t).after asked).calls[calls]? = some (n + 1) := by
    intro t asked hasked
    rw [hcounted]
    exact calls_after_counted (hraw t) (by rw [hasked.calls_eq, hcount])
  cases h with
  | found hfind =>
    have hmem : index ∈ g.cached memory :=
      SampleStore.find?_isSome_iff.mp (by rw [hfind]; rfl)
    rw [if_neg (fun h => h.1 hmem)]
    exact hcount
  | unreachable _ hasks hleft =>
    rw [if_neg (fun h => by simp [hasks, Except.isOk, Except.toBool] at h), hleft.calls_eq, hcount]
  | failed hfind hasks hasked _ hleft =>
    rw [if_pos ⟨SampleStore.find?_eq_none_iff.mp hfind, by rw [hasks]; rfl⟩, hleft.calls_eq,
      hcalled _ _ hasked]
  | fetched hfind hasks hasked _ hleft =>
    rw [if_pos ⟨SampleStore.find?_eq_none_iff.mp hfind, by rw [hasks]; rfl⟩]
    exact (congrArg (·[calls]?) hleft.calls_eq).trans (hcalled _ _ hasked)

end Steps

section Requests

variable [Scalar K]

/-- The grid points around an instant. An instant too far away has none. -/
def window (g : GridSource K) (date : Instant K) : List Int :=
  match Grid.indices g.settings date with
  | .ok points => points
  | .error _ => []

/-- The grid points that a request comes to, each with the memory that it finds. -/
def moments (g : GridSource K) (date : Instant K) (memory : Memory K) : List (Int × Memory K) :=
  Run.moments g.sample (g.window date) memory

/-- The grid points that a request samples with success, in order. -/
def sampled (g : GridSource K) (date : Instant K) (memory : Memory K) : List Int :=
  Run.passed g.sample (g.window date) memory

/-- Joins the samples of a request. -/
def join (g : GridSource K) (date : Instant K) (samples : List (Transform K)) :
    Run K (Computed K) := do
  Run.computed (← Transform.interpolate date samples g.settings.cartesian g.settings.angular)

/-- A request finds its grid points, samples them and joins the samples. -/
theorem serve_eq (g : GridSource K) (date : Instant K) : g.serve date =
    ofExcept (Grid.indices g.settings date) >>= fun points =>
      points.mapM g.sample >>= g.join date := by
  simp only [serve, Grid.request, Grid.requestBy, bind_assoc]
  rfl

/-- Joining samples leaves the sample stores as they are. -/
theorem leaves_join (g : GridSource K) (date : Instant K) (samples : List (Transform K)) :
    (g.join date samples).Leaves (·.stores) := by
  intro memory
  have hjoined := Transform.interpolate_computes date samples g.settings.cartesian
    g.settings.angular memory
  rw [join, Run.after_bind]
  cases hresult : Run.outcome (Transform.interpolate date samples g.settings.cartesian
      g.settings.angular) memory with
  | ok t => exact hjoined.2.stores_eq
  | error fault => exact hjoined.2.stores_eq

variable {points capacity : Int} {date : Instant K} {used : List Int} {memory : Memory K}
  {P : List Int → SampleStore (Transform K) → Prop}

/-- The samples of a request are uses of its grid points, up to the first that fails. -/
theorem Keeps.mapM_sample (hP : g.IsInvariant P)
    (hraw : ∀ t, (g.raw t).Leaves (·.stores[g.store]?)) (hkeeps : g.Keeps P used memory)
    (indices : List Int) :
    g.Keeps P (used ++ Run.passed g.sample indices memory)
      ((indices.mapM g.sample).after memory) := by
  refine Run.mapM_invariant (P := g.Keeps P) ?_ ?_ hkeeps indices
  · intro done index memory value hkeeps hresult
    have hstep := g.sample_sampling index memory
    rw [hresult] at hstep
    exact hstep.keeps_of_ok hP hraw hkeeps
  · intro done index memory fault hkeeps hresult
    have hstep := g.sample_sampling index memory
    rw [hresult] at hstep
    exact hkeeps.of_store_eq (hstep.store_of_error hraw)

/-- A request uses the grid points that it samples, whether it succeeds or fails. -/
theorem Keeps.serve (hP : g.IsInvariant P) (hraw : ∀ t, (g.raw t).Leaves (·.stores[g.store]?))
    (hkeeps : g.Keeps P used memory) (date : Instant K) :
    g.Keeps P (used ++ g.sampled date memory) ((g.serve date).after memory) := by
  have hsampled := hkeeps.mapM_sample hP hraw (g.window date)
  rw [sampled, serve_eq, Run.after_bind, Run.outcome_ofExcept, Run.after_ofExcept]
  cases hpoints : Grid.indices g.settings date with
  | error fault =>
    rw [window, hpoints] at hsampled ⊢
    exact hsampled
  | ok points =>
    rw [window, hpoints] at hsampled ⊢
    change g.Keeps P _ ((points.mapM g.sample >>= g.join date).after memory)
    rw [Run.after_bind]
    cases (points.mapM g.sample).outcome memory with
    | error fault => exact hsampled
    | ok samples =>
      have hjoin := g.leaves_join date samples ((points.mapM g.sample).after memory)
      exact hsampled.of_store_eq (congrArg (·[g.store]?) hjoin)

/-- With a whole capacity the grid points that are sampled are the indices used last. -/
theorem Lists.serve (hraw : ∀ t, (g.raw t).Leaves (·.stores[g.store]?))
    (hcapacity : g.settings.capacity = .whole capacity)
    (hlists : g.Lists (SampleStore.lastUsed capacity.toNat used) memory) (date : Instant K) :
    g.Lists (SampleStore.lastUsed capacity.toNat (used ++ g.sampled date memory))
      ((g.serve date).after memory) :=
  Keeps.serve (isInvariant_lastUsed hcapacity) hraw hlists date

/-- A request that succeeds finds its grid points and samples them all. -/
theorem window_of_serve_eq_ok {c : Computed K} (h : (g.serve date).outcome memory = .ok c) :
    Grid.indices g.settings date = .ok (g.window date) ∧
      g.sampled date memory = g.window date := by
  rw [serve_eq, Run.outcome_bind, Run.outcome_ofExcept] at h
  obtain ⟨points, hpoints, h⟩ := exists_of_bind_eq_ok h
  rw [Run.after_ofExcept, Run.outcome_bind] at h
  obtain ⟨samples, hsamples, -⟩ := exists_of_bind_eq_ok h
  have hwindow : g.window date = points := by rw [window, hpoints]
  rw [sampled, hwindow]
  exact ⟨hpoints, Run.passed_of_mapM_eq_ok hsamples⟩

/-- A request fails with the first of its samples that fails, and ends there. -/
theorem serve_of_failure {moment : Int × Memory K} (hmoment : moment ∈ g.moments date memory)
    {fault : Fault K} (hfails : (g.sample moment.1).outcome moment.2 = .error fault) :
    (g.serve date).outcome memory = .error fault ∧
      (g.serve date).after memory = (g.sample moment.1).after moment.2 := by
  rw [serve_eq]
  cases hpoints : Grid.indices g.settings date with
  | error fault =>
    rw [moments, window, hpoints] at hmoment
    cases hmoment
  | ok points =>
    rw [moments, window, hpoints] at hmoment
    obtain ⟨hresult, hleft⟩ := Run.mapM_of_failure hmoment hfails
    change (points.mapM g.sample >>= g.join date).outcome memory = .error fault ∧
      (points.mapM g.sample >>= g.join date).after memory = (g.sample moment.1).after moment.2
    rw [Run.outcome_bind_of_error hresult, Run.after_bind_of_error hresult]
    exact ⟨rfl, hleft⟩

/-- There are as many grid points around an instant as the settings say. -/
theorem length_of_indices_eq_ok {settings : GridSettings K}
    (hcount : settings.points = .whole points) {indices : List Int}
    (h : Grid.indices settings date = .ok indices) : indices.length = points.toNat := by
  obtain ⟨elapsed, -, h⟩ := exists_of_bind_eq_ok h
  obtain ⟨step, -, h⟩ := exists_of_bind_eq_ok h
  obtain ⟨last, -, h⟩ := exists_of_bind_eq_ok h
  rw [hcount] at h
  obtain rfl := Except.ok.inj h
  simp

/-- The grid points around an instant are as many as the settings say at most, and distinct. -/
theorem window_spec (hcount : g.settings.points = .whole points) (date : Instant K) :
    (g.window date).Nodup ∧ (g.window date).length ≤ points.toNat := by
  cases hindices : Grid.indices g.settings date with
  | error fault => simp [window, hindices]
  | ok indices =>
    rw [window, hindices]
    refine ⟨(Grid.indices_increasing hindices).imp fun h => by omega, ?_⟩
    exact (length_of_indices_eq_ok hcount hindices).le

end Requests

end FrameKinematics.GridSource
