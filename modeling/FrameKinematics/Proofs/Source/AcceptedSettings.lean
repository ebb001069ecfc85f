import FrameKinematics.Proofs.Document.QuantityOrder
import FrameKinematics.Proofs.Source.GridTransparency
import FrameKinematics.Proofs.Source.SampleHistory

/-!
# Settings that are accepted

Settings of interpolation are refused if there are fewer than two grid points, if the step is not
positive, or if there is room for fewer samples than grid points. A step that is no number is not
positive and refused. But a count of grid points or a capacity that is no number is not less than
anything and accepted. If both are numbers, accepted settings are what they should be, and a source
never stores more samples than its capacity. If the capacity is no number, the source never drops
a sample; if the count of grid points is no number, it never answers.
-/

namespace FrameKinematics

namespace GridSettings

section Checks

variable {K : Type} [Scalar K] {s : GridSettings K}

/-- Settings pass their check if they pass each of its three parts. -/
theorem check_eq_ok_iff : s.check = .ok () ↔ s.points.less (.whole 2) = false ∧
    s.step.isPositive = true ∧ s.capacity.less s.points = false := by
  rw [check, checkPoints, checkStep, checkCapacity]
  cases s.points.less (.whole 2) <;> cases s.step.isPositive <;>
    cases s.capacity.less s.points <;>
    simp [throw, throwThe, MonadExceptOf.throw, bind, Except.bind, pure, Except.pure]

/-- The settings of a document have passed their check. -/
theorem check_of_ofDocument {d : Document K} (h : ofDocument d = .ok s) : s.check = .ok () := by
  cases d with
  | table entries =>
    obtain ⟨cartesian, -, h⟩ := exists_of_bind_eq_ok h
    obtain ⟨angular, -, h⟩ := exists_of_bind_eq_ok h
    obtain ⟨points, -, h⟩ := exists_of_bind_eq_ok h
    obtain ⟨_, hpoints, h⟩ := exists_of_bind_eq_ok h
    obtain ⟨step, -, h⟩ := exists_of_bind_eq_ok h
    obtain ⟨_, hstep, h⟩ := exists_of_bind_eq_ok h
    obtain ⟨capacity, -, h⟩ := exists_of_bind_eq_ok h
    obtain ⟨_, hcapacity, h⟩ := exists_of_bind_eq_ok h
    obtain rfl := Except.ok.inj h
    rw [check, hpoints, bind_eq_of_ok rfl, hstep, bind_eq_of_ok rfl, hcapacity]
  | _ => cases h

end Checks

/-- The settings that a source is meant to work with. -/
structure IsSound (s : GridSettings Float) : Prop where
  two_le_points : s.points.AtLeast (.whole 2)
  step_pos : (Quantity.whole 0).Below s.step
  points_le_capacity : s.capacity.AtLeast s.points

variable {s : GridSettings Float}

/-- Sound settings are those that pass their check and whose counts are numbers. -/
theorem isSound_iff : s.IsSound ↔
    s.check = .ok () ∧ s.points.isNumber = true ∧ s.capacity.isNumber = true := by
  have htwo : (Quantity.whole 2 : Quantity Float).isNumber = true := rfl
  rw [check_eq_ok_iff, Quantity.isPositive, Quantity.less_iff]
  constructor
  · rintro ⟨hpoints, hstep, hcapacity⟩
    obtain ⟨hnumber, -, hpoints⟩ := Quantity.atLeast_iff.mp hpoints
    obtain ⟨hnumber', -, hcapacity⟩ := Quantity.atLeast_iff.mp hcapacity
    exact ⟨⟨hpoints, hstep, hcapacity⟩, hnumber, hnumber'⟩
  · rintro ⟨⟨hpoints, hstep, hcapacity⟩, hnumber, hnumber'⟩
    exact ⟨Quantity.atLeast_iff.mpr ⟨hnumber, htwo, hpoints⟩, hstep,
      Quantity.atLeast_iff.mpr ⟨hnumber', hnumber, hcapacity⟩⟩

end GridSettings

namespace SampleStore

variable {α : Type} {capacity : Quantity Float} {s : SampleStore α}

/-- A store that is not empty has at most as many samples as its capacity says. -/
def Fits (capacity : Quantity Float) (s : SampleStore α) : Prop :=
  s.indices = [] ∨ capacity.AtLeast (.whole s.indices.length)

/-- What is left of a store when it is trimmed fits. -/
theorem fits_trim (hcapacity : capacity.isNumber = true) (s : SampleStore α) :
    Fits capacity (s.trim capacity) := by
  obtain ⟨entries⟩ := s
  induction entries with
  | nil => exact .inl rfl
  | cons entry entries ih =>
    simp only [trim, dropExcess] at ih ⊢
    split_ifs with hless
    · exact ih
    · refine .inr (Quantity.atLeast_iff.mpr ⟨hcapacity, rfl, ?_⟩)
      simpa [indices] using hless

/-- A store that fits still fits when one of its samples is used again. -/
theorem Fits.put (hfits : Fits capacity s) {index : Int} (hmem : index ∈ s.indices) (value : α) :
    Fits capacity (s.put index value) := by
  have hfits := hfits.resolve_left (List.ne_nil_of_mem hmem)
  have hshorter : (s.indices.filter fun i => i != index).length < s.indices.length :=
    List.length_filter_lt_length_iff_exists.mpr ⟨index, hmem, by simp⟩
  refine .inr (hfits.trans (Quantity.atLeast_whole ?_))
  rw [indices_put, List.length_append, List.length_singleton]
  exact_mod_cast hshorter

/-- If the capacity is no number, nothing is dropped. -/
theorem trim_of_isNumber_eq_false (hcapacity : capacity.isNumber = false) (s : SampleStore α) :
    s.trim capacity = s := by
  obtain ⟨entries⟩ := s
  cases entries with
  | nil => rfl
  | cons entry entries => simp [trim, dropExcess, Quantity.less_eq_false (.inl hcapacity)]

end SampleStore

namespace GridSource

variable {g : GridSource Float} {used : List Int} {new memory : Memory Float}

/-- With a capacity that is a number, the stored samples always fit into it. -/
theorem isInvariant_fits (hcapacity : g.settings.capacity.isNumber = true) :
    g.IsInvariant fun _ s => s.Fits g.settings.capacity where
  found _ _ _ value hfits hmem := hfits.put hmem value
  fetched _ s index value _ := SampleStore.fits_trim hcapacity (s.put index value)

/-- With a capacity that is no number, each sample that was ever used stays. -/
theorem isInvariant_dedup (hcapacity : g.settings.capacity.isNumber = false) :
    g.IsInvariant fun used s => s.indices = used.dedup where
  found used s index value hused _ := by
    rw [SampleStore.indices_put, hused, SampleStore.dedup_concat]
  fetched used s index value hused := by
    rw [SampleStore.trim_of_isNumber_eq_false hcapacity, SampleStore.indices_put, hused,
      SampleStore.dedup_concat]

/-- Samples that are stored were used. -/
theorem isInvariant_unused : g.IsInvariant fun used s => used = [] → s.indices = [] where
  found _ _ _ _ _ _ hunused := by simp at hunused
  fetched _ _ _ _ _ hunused := by simp at hunused

/-- A property that the samples keep holds of those that are stored. -/
theorem Keeps.cached {P : List Int → SampleStore (Transform Float) → Prop}
    (h : g.Keeps P used memory) : ∃ s, s.indices = g.cached memory ∧ P used s := by
  obtain ⟨s, hs, hused⟩ := h
  exact ⟨s, by rw [GridSource.cached, samples_eq hs], hused⟩

/-- Without a whole count of grid points there are none around any instant. -/
theorem exists_indices_eq_error {settings : GridSettings Float}
    (hpoints : settings.points.whole? = none) (date : Instant Float) :
    ∃ fault, Grid.indices settings date = .error fault := by
  cases h : Grid.indices settings date with
  | error fault => exact ⟨fault, rfl⟩
  | ok points =>
    obtain ⟨elapsed, -, h⟩ := exists_of_bind_eq_ok h
    obtain ⟨step, -, h⟩ := exists_of_bind_eq_ok h
    obtain ⟨last, -, h⟩ := exists_of_bind_eq_ok h
    rw [hpoints] at h
    cases h

/-- Then a request samples nothing and fails. -/
theorem serve_of_no_points (hpoints : g.settings.points.whole? = none) (date : Instant Float)
    (memory : Memory Float) : g.sampled date memory = [] ∧
      ∃ fault, (g.serve date).outcome memory = .error fault := by
  obtain ⟨fault, hfault⟩ := exists_indices_eq_error hpoints date
  refine ⟨by rw [sampled, window, hfault]; rfl, fault, ?_⟩
  rw [serve_eq, hfault]
  rfl

/-- So requests use no sample. -/
theorem Requested.used_eq_nil (hpoints : g.settings.points.whole? = none)
    (h : g.Requested new used memory) : used = [] := by
  induction h with
  | new => rfl
  | request date _ ih => rw [ih, (serve_of_no_points hpoints date _).1, List.append_nil]
  | other _ _ ih => exact ih

/-- How many samples a source with accepted settings stores after some uses. -/
structure StoresWithin (g : GridSource Float) (used : List Int) (memory : Memory Float) : Prop where
  of_numbers : g.settings.points.isNumber = true → g.settings.capacity.isNumber = true →
    g.settings.capacity.AtLeast (.whole (g.cached memory).length)
  /-- Each sample that was ever used is still there. -/
  of_no_capacity : g.settings.capacity.isNumber = false → g.cached memory = used.dedup
  of_no_points : g.settings.points.isNumber = false → g.cached memory = [] ∧
    ∀ date, ∃ fault, (g.serve date).outcome memory = .error fault

/-- Whatever the raw source does, as long as it does not use the store itself, requests are within
the settings. -/
theorem Requested.storesWithin (hcheck : g.settings.check = .ok ())
    (hraw : ∀ t, (g.raw t).Leaves (·.stores[g.store]?)) (hnew : new.stores[g.store]? = some {})
    (h : g.Requested new used memory) : g.StoresWithin used memory where
  of_numbers hpoints hcapacity := by
    have hsound := GridSettings.isSound_iff.mpr ⟨hcheck, hpoints, hcapacity⟩
    obtain ⟨s, hs, hfits⟩ := (h.keeps (isInvariant_fits hcapacity) (.inl rfl) hraw hnew).cached
    rw [← hs]
    rcases hfits with hempty | hfits
    · rw [hempty]
      exact hsound.points_le_capacity.trans
        (hsound.two_le_points.trans (Quantity.atLeast_whole (by decide)))
    · exact hfits
  of_no_capacity hcapacity := by
    obtain ⟨s, hs, hused⟩ := (h.keeps (isInvariant_dedup hcapacity) rfl hraw hnew).cached
    rw [← hs, hused]
  of_no_points hpoints := by
    have hwhole : g.settings.points.whole? = none := by
      cases hcount : g.settings.points with
      | real x => rfl
      | _ => simp [hcount, Quantity.isNumber] at hpoints
    refine ⟨?_, fun date => (serve_of_no_points hwhole date memory).2⟩
    obtain ⟨s, hs, hused⟩ := (h.keeps isInvariant_unused (fun _ => rfl) hraw hnew).cached
    rw [← hs, hused (h.used_eq_nil hwhole)]

end GridSource

namespace GridSettings

/-- What is true of the settings that a document gives. -/
structure Accepted (s : GridSettings Float) : Prop where
  step_pos : (Quantity.whole 0).Below s.step
  isSound_iff_isNumber : s.IsSound ↔ s.points.isNumber = true ∧ s.capacity.isNumber = true
  creates : ∀ (raw : Source Float) (memory : Memory Float),
    (Source.newInterpolating raw s).outcome memory =
        .ok (.interpolating raw s memory.stores.size) ∧
      ((Source.newInterpolating raw s).after memory).stores = memory.stores.push {}
  stores : ∀ g : GridSource Float, g.settings = s →
    (∀ t, (g.raw t).Leaves (·.stores[g.store]?)) →
    ∀ (new memory : Memory Float) (used : List Int), new.stores[g.store]? = some {} →
    g.Requested new used memory → g.StoresWithin used memory

/-- A document only gives settings that a source can be created with. They are sound, and the
source stores no more samples than it has room for, unless the count of grid points or the capacity
is no number. -/
theorem accepted_of_ofDocument {d : Document Float} {s : GridSettings Float}
    (h : ofDocument d = .ok s) : s.Accepted := by
  have hcheck := check_of_ofDocument h
  obtain ⟨-, hstep, -⟩ := check_eq_ok_iff.mp hcheck
  refine ⟨Quantity.less_iff.mp hstep, ?_, fun raw memory => ?_, ?_⟩
  · rw [isSound_iff, and_iff_right hcheck]
  · obtain ⟨hsource, -, hstores, -⟩ := Source.newInterpolating_spec raw hcheck memory
    exact ⟨hsource, hstores⟩
  · intro g hsettings hraw new memory used hnew hrequested
    exact hrequested.storesWithin (hsettings ▸ hcheck) hraw hnew

section Examples

open GridSource

/-- What is no number. -/
def unordered : Quantity Float := .real (0.0 / 0.0)

/-- The quotient of two zeros is not a number. -/
theorem unordered_isNumber : unordered.isNumber = false := by decide +kernel

/-- Two grid points a minute apart, and a capacity that is no number. -/
def unlimited : GridSettings Float := { sparse with capacity := unordered }

/-- A source that interpolates with such settings. -/
def unlimitedEnding : GridSource Float := ⟨unlimited, "Raw", Source.ending.ask, 0⟩

/-- Two grid points a minute apart as a document, with some capacity. -/
def sparseDocument (capacity : Document Float) : Document Float :=
  .table [("grid_points", .whole 2), ("step", .whole 60), ("cache_size", capacity)]

/-- With room for two samples no more than two are kept. If the capacity is no number, a sample of a
request that failed and the two of another one are all kept. -/
theorem sparse_unlimited_accepted :
    ofDocument (sparseDocument (.whole 2)) = .ok sparse ∧ sparse.Accepted ∧
      sparse.capacity.AtLeast (.whole (sparseEnding.cached
        ((sparseEnding.serve ⟨-60, 0.0⟩).after freshMemory)).length) ∧
      ofDocument (sparseDocument (.real (0.0 / 0.0))) = .ok unlimited ∧ unlimited.Accepted ∧
      unlimitedEnding.cached ((unlimitedEnding.serve ⟨-180, 0.0⟩).after
        ((unlimitedEnding.serve .j2000).after freshMemory)) = [0, -3, -2] := by
  have hfirst : unlimitedEnding.sampled .j2000 freshMemory = [0] := by decide +kernel
  have hsecond : unlimitedEnding.sampled ⟨-180, 0.0⟩
      ((unlimitedEnding.serve .j2000).after freshMemory) = [-3, -2] := by decide +kernel
  have hnew : unlimitedEnding.Requested freshMemory [] freshMemory := .new
  have hrequested := (hnew.request .j2000).request ⟨-180, 0.0⟩
  rw [hfirst, hsecond] at hrequested
  have hsparse : ofDocument (sparseDocument (.whole 2)) = .ok sparse := rfl
  have hunlimited : ofDocument (sparseDocument (.real (0.0 / 0.0))) = .ok unlimited := rfl
  have haccepted := accepted_of_ofDocument hsparse
  have haccepted' := accepted_of_ofDocument hunlimited
  have hbounded := haccepted.stores sparseEnding rfl leaves_ending freshMemory _ _ rfl
    (.request ⟨-60, 0.0⟩ .new)
  have hunbounded := haccepted'.stores unlimitedEnding rfl leaves_ending freshMemory _ _ rfl
    hrequested
  exact ⟨hsparse, haccepted, hbounded.of_numbers rfl rfl, hunlimited, haccepted',
    hunbounded.of_no_capacity unordered_isNumber⟩

/-- A count of grid points and a capacity that are no numbers are accepted, although the one is not
at least two and the other not at least the count of grid points. -/
theorem unordered_counts_accepted :
    ofDocument (.table [("grid_points", .real (0.0 / 0.0))]) =
        .ok { (standard : GridSettings Float) with points := unordered } ∧
      ¬ unordered.AtLeast (.whole 2) ∧
      ofDocument (.table [("cache_size", .real (0.0 / 0.0))]) =
        .ok { (standard : GridSettings Float) with capacity := unordered } ∧
      ¬ unordered.AtLeast (standard : GridSettings Float).points := by
  have hnot (q : Quantity Float) : ¬ unordered.AtLeast q := fun h => by
    have hnumber := (Quantity.atLeast_iff.mp h).1
    rw [unordered_isNumber] at hnumber
    cases hnumber
  exact ⟨rfl, hnot _, rfl, hnot _⟩

end Examples

end GridSettings

end FrameKinematics
