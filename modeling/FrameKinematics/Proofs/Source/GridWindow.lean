import FrameKinematics.Proofs.Calendar.ElapsedSeconds
import FrameKinematics.Source.Grid

/-!
# The window of grid points around an instant

In exact arithmetic the grid point of an index lies its number of steps after J2000.0, however the
step is given. So the last grid point not after an instant has the greatest whole number of steps
that have elapsed as its index. The window takes half of its points up to this one, rounded up, and
the others behind it. With two points or more it has points on both sides of the instant, and no
request is extrapolated.
-/

namespace FrameKinematics

namespace Quantity

/-- The real number that a quantity is. -/
noncomputable def amount : Quantity ℝ → ℝ
  | real x => x
  | whole n => n
  | flag b => if b then 1 else 0

/-- The amount of a quantity always exists as a real number. -/
theorem toScalar_real (q : Quantity ℝ) : q.toScalar = .ok q.amount := by
  cases q with
  | real x => rfl
  | whole n => exact Scalar.ofInt_real n
  | flag b =>
    have hone : (1.0 : ℝ) = 1 := Scalar.one_literal
    have hzero : (0.0 : ℝ) = 0 := Scalar.zero_literal
    change (.ok (if b then (1.0 : ℝ) else 0.0) : Except (Fault ℝ) ℝ) = _
    rw [hone, hzero, amount]

/-- A quantity is positive if its real number is. -/
theorem isPositive_iff (q : Quantity ℝ) : q.isPositive = true ↔ 0 < q.amount := by
  cases q with
  | real x =>
    have hfloor : (Scalar.floor (-x) : Except Unbounded Int) = .ok ⌊-x⌋ := rfl
    simp [isPositive, less, scalarLess, hfloor, amount, Int.floor_lt]
  | whole n => simp [isPositive, less, amount]
  | flag b => cases b <;> simp [isPositive, less, amount]

/-- A whole number is the real number that it stands for. -/
theorem amount_of_whole? {q : Quantity ℝ} {n : Int} (h : q.whole? = some n) : q.amount = n := by
  cases q with
  | real x => cases h
  | whole k =>
    cases h
    rfl
  | flag b =>
    cases h
    cases b <;> simp [amount]

end Quantity

namespace Grid

/-- The grid point of an index. -/
noncomputable def point (step : ℝ) (index : Int) : Instant ℝ := Instant.j2000.later (index * step)

/-- The fraction of a grid point is a fraction of a second. -/
theorem point_fraction_mem (step : ℝ) (index : Int) : (point step index).fraction ∈ Set.Ico 0 1 :=
  Instant.later_fraction_mem _ _

/-- A grid point lies its index times the step after J2000.0. -/
theorem elapsed_point (step : ℝ) (index : Int) : (point step index).elapsed = index * step := by
  have hepoch : (Instant.j2000 : Instant ℝ).elapsed = 0 := by
    rw [Instant.elapsed, Instant.j2000, Scalar.zero_literal, Int.cast_zero, add_zero]
  rw [point, Instant.elapsed_later, hepoch, zero_add]

/-- Every index has a grid point. A whole step gives the same one as a real step does. -/
theorem date_real (step : Quantity ℝ) (index : Int) :
    date step (.whole index) = .ok (point step.amount index) := by
  cases hwhole : step.whole? with
  | some seconds =>
    have hmade : (date step (.whole index) : Except (Fault ℝ) (Instant ℝ)) =
        Instant.make (index * seconds) 0.0 := by
      rw [date, hwhole]
      rfl
    rw [hmade, Instant.make_real, Quantity.amount_of_whole? hwhole]
    refine congrArg Except.ok (Instant.eq_of_elapsed_eq
      ⟨Int.fract_nonneg _, Int.fract_lt_one _⟩ (point_fraction_mem _ _) ?_)
    rw [Instant.elapsed_make, elapsed_point, Scalar.zero_literal, add_zero, Int.cast_mul]
  | none =>
    have hshifted : (date step (.whole index) : Except (Fault ℝ) (Instant ℝ)) =
        (Quantity.whole index).toScalar >>= fun i =>
          step.toScalar >>= fun s => Instant.j2000.shift (i * s) := by
      rw [date, hwhole]
    rw [hshifted, Quantity.toScalar_real, Quantity.toScalar_real]
    exact Instant.shift_real _ _

/-- The index of the last grid point not after an instant. -/
noncomputable def lastIndex (step : ℝ) (t : Instant ℝ) : Int := ⌊t.elapsed / step⌋

/-- The grid points around an instant always exist as long as their number is whole. -/
theorem indices_real {settings : GridSettings ℝ} {n : Int}
    (hpoints : settings.points.whole? = some n) (t : Instant ℝ) :
    indices settings t = .ok ((List.range n.toNat).map fun i : Nat =>
      lastIndex settings.step.amount t - (n - 1) / 2 + i) := by
  rw [indices, Instant.sinceJ2000_real, Quantity.toScalar_real, hpoints]
  rfl

section Sides

variable {step : ℝ} {t : Instant ℝ}

/-- Grid points up to the last index are not after an instant. -/
theorem notAfter_point_iff (hstep : 0 < step) (ht : t.fraction ∈ Set.Ico 0 1) (index : Int) :
    (point step index).notAfter t = true ↔ index ≤ lastIndex step t := by
  rw [Instant.notAfter_iff (point_fraction_mem _ _) ht, elapsed_point, lastIndex, Int.le_floor,
    le_div_iff₀ hstep]

/-- Grid points behind the last index are after it. -/
theorem before_point_iff (hstep : 0 < step) (ht : t.fraction ∈ Set.Ico 0 1) (index : Int) :
    t.before (point step index) = true ↔ lastIndex step t < index := by
  rw [Instant.before_iff ht (point_fraction_mem _ _), elapsed_point, lastIndex, Int.floor_lt,
    div_lt_iff₀ hstep]

/-- Grid points come in the order of their indices. -/
theorem point_before_point (hstep : 0 < step) {i j : Int} (hij : i < j) :
    (point step i).before (point step j) = true := by
  rw [Instant.before_iff (point_fraction_mem _ _) (point_fraction_mem _ _), elapsed_point,
    elapsed_point]
  exact mul_lt_mul_of_pos_right (by exact_mod_cast hij) hstep

end Sides

/-- In a run of whole numbers the first ones are those up to a bound. -/
theorem countP_run {p : Int → Bool} {first last : Int} {before after : Nat}
    (hp : ∀ k, p k = true ↔ k ≤ last) (hbefore : first + before = last + 1) :
    ((List.range (before + after)).map fun i : Nat => first + i).countP p = before ∧
      ((List.range (before + after)).map fun i : Nat => first + i).countP (! p ·) = after := by
  have hlow : ∀ i ∈ List.range before, p (first + i) = true := fun i hi => by
    rw [List.mem_range] at hi
    rw [hp]
    omega
  have hhigh : ∀ i ∈ List.range after, p (first + (before + i : Nat)) = false := fun i _ => by
    rw [← Bool.not_eq_true, hp]
    omega
  rw [List.range_add, List.map_append, List.map_map, List.countP_append, List.countP_append,
    List.countP_map, List.countP_map, List.countP_map, List.countP_map,
    List.countP_eq_length.mpr (by simpa using hlow),
    List.countP_eq_zero.mpr (by simpa using hhigh),
    List.countP_eq_zero.mpr (by simpa using hlow),
    List.countP_eq_length.mpr (by simpa using hhigh)]
  simp

variable {K : Type} [Scalar K]

/-- A window of grid points goes around an instant, where `place` gives the instants of grid points:
there is one pair of neighbours on the grid with the instant between them, or at the first one, and
the window is a run of indices with both of them; there are as many grid points of the window up to
the instant as after it, or one more or less; and grid points come in order. -/
structure Brackets (place : Int → Instant K) (window : List Int) (count : Int) (t : Instant K) :
    Prop where
  neighbours : ∃! last, (place last).notAfter t = true ∧ t.before (place (last + 1)) = true
  between : ∀ last, (place last).notAfter t = true → t.before (place (last + 1)) = true →
    last ∈ window ∧ last + 1 ∈ window
  run : ∃ first : Int, window = (List.range count.toNat).map fun i : Nat => first + i
  balanced : ((window.countP fun k => (place k).notAfter t : Int) -
    window.countP fun k => t.before (place k)).natAbs ≤ 1
  increasing : (window.map place).Pairwise fun s t => s.before t = true

/-- With a positive step and two points or more the window of an instant goes around it. -/
theorem indices_bracket {settings : GridSettings ℝ} {n : Int} {t : Instant ℝ} (ht : t.Made)
    (hpoints : settings.points.whole? = some n) (htwo : 2 ≤ n)
    (hstep : settings.step.isPositive = true) :
    ∃ place window, (∀ k, date settings.step (.whole k) = .ok (place k)) ∧
      indices settings t = .ok window ∧ Brackets place window n t := by
  have hpositive := (settings.step.isPositive_iff).mp hstep
  have hnotAfter := notAfter_point_iff hpositive ht.fraction_mem
  have hbefore := before_point_iff hpositive ht.fraction_mem
  generalize hlast : lastIndex settings.step.amount t = last at hnotAfter hbefore
  have hneighbours (k : Int) : (point settings.step.amount k).notAfter t = true ∧
      t.before (point settings.step.amount (k + 1)) = true ↔ k = last := by
    rw [hnotAfter, hbefore]
    omega
  have hmem (k : Int) (hlow : last - (n - 1) / 2 ≤ k) (hhigh : k < last - (n - 1) / 2 + n) :
      k ∈ (List.range n.toNat).map fun i : Nat => last - (n - 1) / 2 + i := by
    refine List.mem_map.mpr ⟨(k - (last - (n - 1) / 2)).toNat, ?_, ?_⟩
    · rw [List.mem_range]
      omega
    · omega
  refine ⟨point settings.step.amount, _, date_real settings.step, indices_real hpoints t, ?_⟩
  rw [hlast]
  refine ⟨⟨last, (hneighbours last).mpr rfl, fun k hk => (hneighbours k).mp hk⟩, ?_, ⟨_, rfl⟩,
    ?_, ?_⟩
  · intro k hk hk'
    obtain rfl := (hneighbours k).mp ⟨hk, hk'⟩
    exact ⟨hmem k (by omega) (by omega), hmem (k + 1) (by omega) (by omega)⟩
  · -- Half of the points, rounded up, are not after the instant, and the others are after it.
    have hsplit : n.toNat = ((n - 1) / 2 + 1).toNat + (n - 1 - (n - 1) / 2).toNat := by omega
    have hafter : (fun k => t.before (point settings.step.amount k)) =
        fun k => !(point settings.step.amount k).notAfter t := by
      funext k
      rw [Bool.eq_iff_iff, hbefore, Bool.not_eq_true', ← Bool.not_eq_true, hnotAfter, not_le]
    have hlength : last - (n - 1) / 2 + ((n - 1) / 2 + 1).toNat = last + 1 := by omega
    obtain ⟨hup, hdown⟩ := countP_run hnotAfter hlength
    rw [hsplit, hafter, hup, hdown]
    omega
  · rw [List.pairwise_map, List.pairwise_map]
    exact List.pairwise_lt_range.imp fun h => point_before_point hpositive (by omega)

/-- Four points, and a step of three quarters of a second. -/
noncomputable def fourPoints : GridSettings ℝ :=
  ⟨.whole 4, .real 0.75, .whole 4, .of .withSecond, .of .withSecond⟩

/-- At a grid point one second and a half before J2000.0 the window goes around it. -/
theorem fourPoints_bracket :
    (⟨-2, 0.5⟩ : Instant ℝ).Made ∧ fourPoints.points.whole? = some 4 ∧ (2 : Int) ≤ 4 ∧
      fourPoints.step.isPositive = true ∧
      ∃ place window, (∀ k, date fourPoints.step (.whole k) = .ok (place k)) ∧
        indices fourPoints ⟨-2, 0.5⟩ = .ok window ∧ Brackets place window 4 ⟨-2, 0.5⟩ := by
  have hmade : (⟨-2, 0.5⟩ : Instant ℝ).Made := Instant.made_of_fraction_mem (by norm_num)
  have hstep : fourPoints.step.isPositive = true := by
    rw [Quantity.isPositive_iff]
    norm_num [fourPoints, Quantity.amount]
  exact ⟨hmade, rfl, by decide, hstep, indices_bracket hmade rfl (by decide) hstep⟩

end Grid

end FrameKinematics
