import FrameKinematics.Proofs.Motion.ExtrapolatedRate
import FrameKinematics.Proofs.Motion.SteadyRotation

/-!
# Rotation about a fixed axis

Where the rate of an angular motion is parallel to its acceleration, both turns of an extrapolation
are about one axis. The rate keeps its place and grows linearly, and the angles of all turns add up.
So an extrapolation that goes on for a second time is one for the sum of the times, also where the
rate vanishes in between and the frame turns back.
-/

namespace FrameKinematics

/-- Vectors whose vector product vanishes are multiples of one vector. -/
theorem Vec3.exists_smul_of_cross_eq_zero {u v : Vec3 ℝ} (h : u.cross v = 0) :
    ∃ (n : Vec3 ℝ) (a b : ℝ), u = a • n ∧ v = b • n := by
  by_cases hv : v = 0
  · exact ⟨u, 1, 0, (one_smul ℝ u).symm, by rw [hv, zero_smul]⟩
  · have hsquare : v.dot v ≠ 0 := by
      rw [← norm_sq]
      exact pow_ne_zero 2 (mt norm_eq_zero.mp hv)
    have hprojected : (v.dot v) • u = (v.dot u) • v := by
      rw [← sub_eq_zero, ← cross_cross, h, cross_zero]
    refine ⟨v, (v.dot v)⁻¹ * v.dot u, 1, ?_, (one_smul ℝ v).symm⟩
    rw [mul_smul, ← hprojected, smul_smul, inv_mul_cancel₀ hsquare, one_smul]

namespace AngularMotion

open Rotation

variable {a : AngularMotion ℝ}

/-- The rate is parallel to the acceleration. Either of them may vanish. -/
def HasFixedAxis (a : AngularMotion ℝ) : Prop := a.rate.cross a.acceleration = 0

/-- An extrapolation about an axis: the angles of the two turns add up. -/
theorem extrapolated_about {n : Vec3 ℝ} {α β : ℝ} (hrate : a.rate = α • n)
    (hacceleration : a.acceleration = β • n) (dt : ℝ) :
    a.extrapolated dt =
      ⟨(swing n (α * dt + β * (0.5 * dt * dt))).mul a.rotation, (α + dt * β) • n, β • n⟩ := by
  have hparallel : (β • n).cross (α • n) = 0 := by
    rw [Vec3.smul_cross, Vec3.cross_smul, Vec3.cross_self, smul_zero, smul_zero]
  have hkept (φ : ℝ) : (swing (β • n) φ).apply (α • n) = α • n :=
    (swing_apply_eq_self_iff _ _ _).mpr (.inl hparallel)
  rw [extrapolated, steady, hrate, hacceleration]
  ext1
  · rw [andThen_rotation, ← mul_mul, swing_smul, swing_smul, swing_mul_swing, add_comm]
  · rw [andThen_rate, hkept, smul_smul, ← add_smul, add_comm]
  · rw [andThen_acceleration, hkept, Vec3.zero_eq, apply_zero, Vec3.smul_cross, hparallel, smul_zero,
      add_zero, sub_zero]

/-- About a fixed axis an angular motion goes on for one time and then for another. -/
theorem HasFixedAxis.extrapolated_extrapolated (h : a.HasFixedAxis) (s t : ℝ) :
    (a.extrapolated s).extrapolated t = a.extrapolated (s + t) := by
  obtain ⟨n, α, β, hrate, hacceleration⟩ := Vec3.exists_smul_of_cross_eq_zero h
  have hfirst := extrapolated_about hrate hacceleration s
  have hangle : (α + s * β) * t + β * (0.5 * t * t) + (α * s + β * (0.5 * s * s)) =
      α * (s + t) + β * (0.5 * (s + t) * (s + t)) := by ring
  have hspeed : α + s * β + t * β = α + (s + t) * β := by ring
  rw [hfirst, extrapolated_about rfl rfl t, extrapolated_about hrate hacceleration, ← mul_mul,
    swing_mul_swing, hangle, hspeed]

/-- A steady angular motion goes on for one time and then for another. -/
theorem steady_extrapolated_extrapolated (r : Rotation ℝ) (w : Vec3 ℝ) (s t : ℝ) :
    ((steady r w).extrapolated s).extrapolated t = (steady r w).extrapolated (s + t) := by
  have hsteady : (steady r w).HasFixedAxis := by
    rw [HasFixedAxis, steady, Vec3.zero_eq, Vec3.cross_zero]
  exact hsteady.extrapolated_extrapolated s t

end AngularMotion

end FrameKinematics
