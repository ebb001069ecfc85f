import FrameKinematics.Proofs.Calendar.ElapsedSeconds
import FrameKinematics.Proofs.Motion.Consistency
import FrameKinematics.Proofs.Motion.FixedAxis
import FrameKinematics.Proofs.Rotation.MatrixForm
import FrameKinematics.Proofs.Transform.Extrapolation

/-!
# Transforms that turn about a fixed axis

A transform is extrapolated in its three parts. Instants are moved on the time line, and the fraction
of a second tells whole seconds apart. The translation has a constant acceleration, and the rotation
goes on about its axis if it has one. In all three the times of two extrapolations add up, so the
extrapolations of such a transform are a one-parameter group.
-/

namespace FrameKinematics

/-- With a constant acceleration a motion goes on for one time and then for another. -/
theorem Motion.shift_shift (m : Motion ℝ) (s t : ℝ) : (m.shift s).shift t = m.shift (s + t) := by
  ext1
  · simp only [shift, Scalar.half_literal]
    module
  · simp only [shift]
    module
  · rfl

namespace Transform

variable {t : Transform ℝ}

/-- An extrapolated rigid transform is rigid. -/
theorem IsRigid.extrapolated (ht : t.IsRigid) (s : ℝ) : (t.extrapolated s).IsRigid := by
  cases t with
  | neutral => exact ht
  | dated date c a => exact AngularMotion.hasUnitNorm_extrapolated s ht

/-- About a fixed axis, two extrapolations are one by the sum of the times. -/
theorem extrapolated_extrapolated (haxis : t.angular.HasFixedAxis) (s u : ℝ) :
    (t.extrapolated s).extrapolated u = t.extrapolated (s + u) := by
  cases t with
  | neutral => rfl
  | dated date c a =>
    have hangular : (a.extrapolated s).extrapolated u = a.extrapolated (s + u) :=
      AngularMotion.HasFixedAxis.extrapolated_extrapolated haxis s u
    simp only [Transform.extrapolated, date.later_later, c.shift_shift, hangular]

/-- After no time a transform is what it was. -/
theorem extrapolated_zero (hdate : t.date.Made) : t.extrapolated 0 = t := by
  cases t with
  | neutral => rfl
  | dated date c a =>
    have hlater : date.later 0 = date := Instant.later_zero hdate.fraction_mem
    simp only [Transform.extrapolated, hlater, Motion.shift_zero, AngularMotion.extrapolated_zero]

/-- The extrapolations of a rigid transform that turns about a fixed axis are a one-parameter group:
they never fail, one after another is one for the sum of the times, and after no time the transform
is what it was. -/
theorem shift_oneParameterGroup (hrigid : t.IsRigid) (haxis : t.angular.HasFixedAxis) :
    (∀ s u, ∃ first second, t.shift s = .ok first ∧ first.shift u = .ok second ∧
      t.shift (s + u) = .ok second) ∧
    (t.date.Made → t.shift 0 = .ok t) := by
  constructor
  · intro s u
    have hsecond := (hrigid.extrapolated s).shift_eq u
    rw [extrapolated_extrapolated haxis] at hsecond
    exact ⟨_, _, hrigid.shift_eq s, hsecond, hrigid.shift_eq (s + u)⟩
  · intro hdate
    rw [hrigid.shift_eq, extrapolated_zero hdate]

/-- A transform that turns about a slanted axis, stops after a second and turns back. -/
noncomputable def turningBack : Transform ℝ :=
  dated ⟨5, 0.25⟩ ⟨⟨1, -1, 0.5⟩, ⟨0, 0.4, 1⟩, ⟨0.2, 0, -1⟩⟩
    ⟨Rotation.slanted, ⟨0.5, 1, 1⟩, ⟨-0.5, -1, -1⟩⟩

/-- The first shift ends where the rate vanishes. -/
theorem turningBack_oneParameterGroup :
    turningBack.IsRigid ∧ turningBack.angular.HasFixedAxis ∧ turningBack.date.Made ∧
      (∃ first second, turningBack.shift 1 = .ok first ∧ first.shift 0.5 = .ok second ∧
        turningBack.shift (1 + 0.5) = .ok second) ∧
      turningBack.shift 0 = .ok turningBack := by
  have hrigid : turningBack.IsRigid := Rotation.slanted_hasUnitNorm
  have haxis : turningBack.angular.HasFixedAxis := by
    ext <;> norm_num [turningBack, angular]
  have hmake : (Instant.make 5 0.25 : Except (Fault ℝ) (Instant ℝ)) = .ok turningBack.date := by
    have hfloor : ⌊(0.25 : ℝ)⌋ = 0 := by norm_num [Int.floor_eq_iff]
    rw [Instant.make_real, Int.fract, hfloor, Int.cast_zero, sub_zero, add_zero]
    rfl
  have hdate := Instant.Made.make hmake
  exact ⟨hrigid, haxis, hdate, (shift_oneParameterGroup hrigid haxis).1 1 0.5,
    (shift_oneParameterGroup hrigid haxis).2 hdate⟩

end Transform

end FrameKinematics
