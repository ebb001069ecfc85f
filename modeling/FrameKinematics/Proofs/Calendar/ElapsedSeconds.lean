import FrameKinematics.Proofs.Calendar.CanonicalInstants
import FrameKinematics.Proofs.Calendar.NearestLabel

/-!
# Instants by their elapsed seconds

Over the real numbers an instant that is made has a fraction of less than a second. So it is
determined by the seconds since J2000.0, comparisons of instants are comparisons of these seconds,
and shifts are exact: a shift splits its duration and carries what the two fractions amount to, but
the seconds since J2000.0 just grow by the duration, so the durations of shifts add up, and the time
between two instants is the duration of the shift from the one to the other.
-/

namespace FrameKinematics.Instant

variable {s t : Instant ℝ}

/-- Over the real numbers an instant that is made has a fraction of less than a second. -/
theorem Made.fraction_mem (ht : Made t) : t.fraction ∈ Set.Ico 0 1 := by
  obtain ⟨seconds, offset, hmake⟩ := ht.exists_make
  rw [make_real] at hmake
  obtain rfl := Except.ok.inj hmake
  exact ⟨Int.fract_nonneg offset, Int.fract_lt_one offset⟩

/-- An instant with a fraction of less than a second is made of its two parts. -/
theorem made_of_fraction_mem (ht : t.fraction ∈ Set.Ico 0 1) : t.Made := by
  refine @Made.make _ _ t.seconds t.fraction t ?_
  rw [make_real, Int.floor_eq_zero_iff.mpr ht, add_zero, Int.fract_eq_self.mpr ht]

/-- The fraction of a later instant is a fraction of a second. -/
theorem later_fraction_mem (t : Instant ℝ) (duration : ℝ) :
    (t.later duration).fraction ∈ Set.Ico 0 1 :=
  ⟨Int.fract_nonneg _, Int.fract_lt_one _⟩

/-- Instants with fractions of less than a second are determined by their elapsed seconds. -/
theorem eq_of_elapsed_eq (hs : s.fraction ∈ Set.Ico 0 1) (ht : t.fraction ∈ Set.Ico 0 1)
    (h : s.elapsed = t.elapsed) : s = t := by
  obtain ⟨hseconds, hfraction⟩ := (lexicographic hs.1 hs.2 ht.1 ht.2).2.2.mp h
  exact Instant.ext hseconds hfraction

/-- Instants with fractions of less than a second are compared as their elapsed seconds. -/
theorem before_iff (hs : s.fraction ∈ Set.Ico 0 1) (ht : t.fraction ∈ Set.Ico 0 1) :
    s.before t = true ↔ s.elapsed < t.elapsed := by
  rw [elapsed, elapsed, (lexicographic hs.1 hs.2 ht.1 ht.2).1]
  simp [before]

@[inherit_doc before_iff]
theorem notAfter_iff (hs : s.fraction ∈ Set.Ico 0 1) (ht : t.fraction ∈ Set.Ico 0 1) :
    s.notAfter t = true ↔ s.elapsed ≤ t.elapsed := by
  rw [elapsed, elapsed, (lexicographic hs.1 hs.2 ht.1 ht.2).2.1]
  simp [notAfter]

/-- The durations of two shifts add up. -/
theorem later_later (t : Instant ℝ) (s u : ℝ) : (t.later s).later u = t.later (s + u) := by
  refine eq_of_elapsed_eq (later_fraction_mem _ _) (later_fraction_mem _ _) ?_
  rw [elapsed_later, elapsed_later, elapsed_later, add_assoc]

/-- No time later it is the same instant. -/
theorem later_zero (ht : t.fraction ∈ Set.Ico 0 1) : t.later 0 = t := by
  refine eq_of_elapsed_eq (later_fraction_mem _ _) ht ?_
  rw [elapsed_later, add_zero]

/-- The time since another instant leads from that instant to this one. -/
theorem later_elapsed_sub (ht : t.fraction ∈ Set.Ico 0 1) (origin : Instant ℝ) :
    origin.later (t.elapsed - origin.elapsed) = t := by
  refine eq_of_elapsed_eq (later_fraction_mem _ _) ht ?_
  rw [elapsed_later, add_sub_cancel]

/-- Shifts of two instants, forward and back, and the durations between them fit exactly. -/
structure ShiftsAreExact (t origin : Instant ℝ) : Prop where
  /-- Two shifts in turn lead to the same whole seconds and the same fraction as one shift by the
  sum of their durations. -/
  shift_shift : ∀ a b : ℝ, ∃ between after,
    t.shift a = .ok between ∧ between.shift b = .ok after ∧ t.shift (a + b) = .ok after
  /-- The duration of a shift is the time since the instant that was shifted. -/
  since_shift : ∀ a : ℝ, ∃ after, t.shift a = .ok after ∧ after.since t = .ok a
  /-- The time since another instant leads from that instant to this one. -/
  shift_since : ∃ duration, t.since origin = .ok duration ∧ origin.shift duration = .ok t
  /-- The time since an earlier or later instant may be taken in two steps. -/
  since_add_since : ∀ other : Instant ℝ, ∃ near far, t.since origin = .ok near ∧
    origin.since other = .ok far ∧ t.since other = .ok (near + far)

/-- Instants that are made are shifted exactly, however often a fraction is carried into the whole
seconds on the way. -/
theorem shifts_exact (ht : t.Made) (origin : Instant ℝ) : ShiftsAreExact t origin where
  shift_shift a b := by
    refine ⟨t.later a, t.later (a + b), shift_real t a, ?_, shift_real t (a + b)⟩
    rw [shift_real, later_later]
  since_shift a := by
    refine ⟨t.later a, shift_real t a, ?_⟩
    rw [since_real, elapsed_later, add_sub_cancel_left]
  shift_since := by
    refine ⟨t.elapsed - origin.elapsed, since_real t origin, ?_⟩
    rw [shift_real, later_elapsed_sub ht.fraction_mem]
  since_add_since other := by
    refine ⟨_, _, since_real t origin, since_real origin other, ?_⟩
    rw [since_real, sub_add_sub_cancel]

/-- A quarter of a second before J2000.0. -/
noncomputable def quarterBefore : Instant ℝ := ⟨-1, 0.75⟩

/-- Three eighths of a second back are a whole second back and five eighths forward, and there the
two fractions carry a second again. -/
theorem quarterBefore_shifts_exact : quarterBefore.Made ∧
    quarterBefore.shift (-0.375) = .ok ⟨-1, 0.375⟩ ∧ ShiftsAreExact quarterBefore j2000 := by
  have hmade : quarterBefore.Made := made_of_fraction_mem ⟨by norm_num [quarterBefore],
    by norm_num [quarterBefore]⟩
  refine ⟨hmade, ?_, shifts_exact hmade j2000⟩
  rw [shift_real]
  refine congrArg Except.ok (eq_of_elapsed_eq (later_fraction_mem _ _) (by norm_num) ?_)
  rw [elapsed_later]
  norm_num [elapsed, quarterBefore]

end FrameKinematics.Instant
