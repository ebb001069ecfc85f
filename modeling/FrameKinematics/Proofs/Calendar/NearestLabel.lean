import FrameKinematics.Proofs.Scalar.Rounding

/-!
# Instants and labels in exact arithmetic

Over the real numbers, an instant is its number of seconds since J2000.0, and a number of seconds
after the label of J2000.0 has a nearest label. Shifting by whole microseconds that are even in
number shifts the nearest label.
-/

namespace FrameKinematics

namespace Instant

/-- The seconds since J2000.0. -/
def elapsed (t : Instant ℝ) : ℝ := t.seconds + t.fraction

/-- The seconds since J2000.0 always exist as a real number. -/
theorem sinceJ2000_real (t : Instant ℝ) :
    (t.sinceJ2000 : Except (Fault ℝ) ℝ) = .ok t.elapsed := by
  rw [sinceJ2000, since, Scalar.ofInt_real]
  change Except.ok (((t.seconds - 0 : Int) : ℝ) + (t.fraction - 0.0)) = _
  rw [Int.sub_zero, Scalar.zero_literal, sub_zero, elapsed]

/-- So do the seconds since another instant. -/
theorem since_real (t origin : Instant ℝ) :
    (t.since origin : Except (Fault ℝ) ℝ) = .ok (t.elapsed - origin.elapsed) := by
  rw [since, Scalar.ofInt_real]
  refine congrArg Except.ok ?_
  rw [elapsed, elapsed]
  push_cast
  ring

/-- Splitting a real duration needs no carry. -/
theorem split_real (x : ℝ) :
    (split x : Except (Fault ℝ) (Int × ℝ)) = .ok (⌊x⌋, Int.fract x) := by
  have hrest : ¬(1.0 : ℝ) ≤ x - ⌊x⌋ := by
    rw [Scalar.one_literal, not_le]
    exact Int.fract_lt_one x
  rw [split, Scalar.wholePart_real]
  change (Scalar.ofInt ⌊x⌋ >>= fun whole => _ : Except (Fault ℝ) (Int × ℝ)) = _
  rw [Scalar.ofInt_real]
  change (if (1.0 : ℝ) ≤ x - ⌊x⌋ then _ else _) = _
  rw [if_neg hrest]
  rfl

/-- An instant is made so that its fraction is less than a second, and it has the elapsed seconds
that were given. -/
theorem make_real (seconds : Int) (offset : ℝ) :
    (make seconds offset : Except (Fault ℝ) (Instant ℝ)) =
      .ok ⟨seconds + ⌊offset⌋, Int.fract offset⟩ := by
  rw [make, split_real]
  rfl

/-- An instant that is made of seconds and an offset has all of both as its elapsed seconds. -/
theorem elapsed_make (seconds : Int) (offset : ℝ) :
    (⟨seconds + ⌊offset⌋, Int.fract offset⟩ : Instant ℝ).elapsed = seconds + offset := by
  rw [elapsed]
  push_cast
  linarith [Int.floor_add_fract offset]

/-- The instant some seconds after an instant, with a fraction of less than a second. -/
noncomputable def later (t : Instant ℝ) (duration : ℝ) : Instant ℝ :=
  ⟨t.seconds + ⌊duration⌋ + ⌊t.fraction + Int.fract duration⌋,
    Int.fract (t.fraction + Int.fract duration)⟩

/-- Every instant can be shifted by every duration. -/
theorem shift_real (t : Instant ℝ) (duration : ℝ) :
    (t.shift duration : Except (Fault ℝ) (Instant ℝ)) = .ok (t.later duration) := by
  rw [shift, split_real]
  exact make_real _ _

/-- A later instant has the duration more in elapsed seconds. -/
theorem elapsed_later (t : Instant ℝ) (duration : ℝ) :
    (t.later duration).elapsed = t.elapsed + duration := by
  refine (elapsed_make (t.seconds + ⌊duration⌋) (t.fraction + Int.fract duration)).trans ?_
  rw [elapsed]
  push_cast
  linarith [Int.floor_add_fract duration]

/-- Instants with fractions of less than a second come in the order of their elapsed seconds. -/
theorem before_of_elapsed_lt {s t : Instant ℝ} (hs : 0 ≤ s.fraction) (ht : t.fraction < 1)
    (hlt : s.elapsed < t.elapsed) : s.before t = true := by
  rw [elapsed, elapsed] at hlt
  have hbound : (s.seconds : ℝ) < t.seconds + 1 := by linarith
  have hle : s.seconds < t.seconds + 1 := by exact_mod_cast hbound
  rw [before, Bool.or_eq_true, Bool.and_eq_true, decide_eq_true_eq, beq_iff_eq, decide_eq_true_eq]
  rcases lt_or_eq_of_le (Int.lt_add_one_iff.mp hle) with hseconds | hseconds
  · exact .inl hseconds
  · rw [hseconds] at hlt
    exact .inr ⟨hseconds, by linarith⟩

end Instant

namespace Label

/-- The seconds from the label of J2000.0 to a label. -/
noncomputable def elapsed (l : Label) : ℝ := (l.micros - j2000.micros : Int) / 1000000

/-- The label nearest to some seconds after the label of J2000.0. -/
noncomputable def nearest (elapsed : ℝ) : Label :=
  ⟨j2000.micros + Scalar.nearestWhole (elapsed * 1000000)⟩

/-- Shifting by an even number of microseconds shifts the nearest label. -/
theorem micros_nearest_add (elapsed : ℝ) (n : Int) :
    (nearest (elapsed + (2 * n : Int) / 1000000)).micros = (nearest elapsed).micros + 2 * n := by
  have hsum : (elapsed + (2 * n : Int) / 1000000) * 1000000 =
      elapsed * 1000000 + (2 * n : Int) := by ring
  rw [nearest, nearest, hsum, Scalar.nearestWhole_add_two_mul, add_assoc]

/-- Later seconds have later nearest labels. -/
theorem micros_nearest_mono {x y : ℝ} (hxy : x ≤ y) :
    (nearest x).micros ≤ (nearest y).micros := by
  have hscaled : x * 1000000 ≤ y * 1000000 := by linarith
  exact Int.add_le_add_left (Scalar.nearestWhole_mono hscaled) _

/-- A label is the nearest one to its own seconds. -/
@[simp] theorem nearest_elapsed (l : Label) : nearest l.elapsed = l := by
  rw [nearest, elapsed, div_mul_cancel₀ _ (by norm_num), Scalar.nearestWhole_intCast]
  ext1
  exact add_sub_cancel _ _

/-- A label is shifted to the one some microseconds later, as long as that is in range. -/
theorem later_of_inRange {K : Type} {l : Label} {micros : Int}
    (h : (⟨l.micros + micros⟩ : Label).inRange = true) :
    (l.later micros : Except (Fault K) Label) = .ok ⟨l.micros + micros⟩ := by
  rw [later, add?]
  simp [h]

/-- In range, adding a duration to the label of J2000.0 gives the nearest label. -/
theorem later_microseconds {elapsed : ℝ} (h : (nearest elapsed).inRange = true) :
    (Scalar.microseconds elapsed >>= fun micros => j2000.later micros :
      Except (Fault ℝ) Label) = .ok (nearest elapsed) := by
  rw [Scalar.microseconds_real]
  exact later_of_inRange h

end Label

end FrameKinematics
