import FrameKinematics.Proofs.Motion.Extrapolation
import FrameKinematics.Proofs.Rotation.RotationVector

/-!
# Rotation at a rate that stays

The turns of a frame about one axis form a group: the angles add up, also past full turns, because
sine and cosine obey their addition theorems. The rate is found again from two of the rotations, in
either order, as long as the frame turns by less than half a turn between them.
-/

namespace FrameKinematics

namespace Rotation

/-- Turns at one rate, one after the other, are one turn for the sum of the times. -/
theorem swing_mul_swing (w : Vec3 ℝ) (s t : ℝ) :
    (swing w s).mul (swing w t) = swing w (s + t) := by
  by_cases hrate : w = 0
  · subst hrate
    simp
  have hnorm : w.norm ≠ 0 := mt Vec3.norm_eq_zero.mp hrate
  have hangle : 0.5 * (w.norm * (s + t)) = 0.5 * (w.norm * s) + 0.5 * (w.norm * t) := by ring
  have hlength := Vec3.norm_mul_norm w
  have hsines (a b : ℝ) : a / w.norm * (b / w.norm) * (w.norm * w.norm) = a * b := by
    field_simp
  ext
  · simp only [swing, mul, Quaternion.mul, hangle, Real.cos_add]
    rw [← hsines (Real.sin _) (Real.sin _), hlength]
    ring
  all_goals
    simp only [swing, mul, Quaternion.mul, hangle, Real.sin_add]
    ring

/-- A turn at a multiple of a rate is a turn at the rate for this multiple of the time. -/
theorem swing_smul (k : ℝ) (w : Vec3 ℝ) (t : ℝ) : swing (k • w) t = swing w (k * t) := by
  by_cases hk : k = 0
  · simp [hk]
  have hcancel (sine : ℝ) : sine / (k * w.norm) * k = sine / w.norm := by field_simp
  -- The length has the sign of `k` only where this is positive; cosine and sine do the rest.
  rcases abs_choice k with habs | habs
  · have hangle : 0.5 * (k * w.norm * t) = 0.5 * (w.norm * (k * t)) := by ring
    apply ext_parts
    · rw [swing_w, swing_w, Vec3.norm_smul, habs, hangle]
    · rw [swing_vector, swing_vector, Vec3.norm_smul, habs, hangle, smul_smul, neg_mul, hcancel]
  · have hangle : 0.5 * (-k * w.norm * t) = -(0.5 * (w.norm * (k * t))) := by ring
    apply ext_parts
    · rw [swing_w, swing_w, Vec3.norm_smul, habs, hangle, Real.cos_neg]
    · rw [swing_vector, swing_vector, Vec3.norm_smul, habs, hangle, Real.sin_neg, smul_smul,
        neg_mul, neg_mul, neg_div_neg_eq, hcancel]

/-- Before half a turn forward, the rotation vector of a swing is minus the rate times the time. -/
private theorem toVector_swing_of_pos {w : Vec3 ℝ} {t : ℝ} (ht : 0 < t)
    (hless : w.norm * t < Real.pi) : (swing w t).toVector = -(t • w) := by
  by_cases hrate : w = 0
  · rw [hrate, zero_swing, toVector_identity, smul_zero, neg_zero]
  have hnorm : 0 < w.norm := lt_of_le_of_ne w.norm_nonneg (Ne.symm (mt Vec3.norm_eq_zero.mp hrate))
  have hangle : 0 < 0.5 * (w.norm * t) := by positivity
  have hacute : 0.5 * (w.norm * t) < Real.pi / 2 := by linarith
  have hsin := Real.sin_pos_of_pos_of_lt_pi hangle (by linarith)
  have hlength : (swing w t).quaternion.vector.norm = Real.sin (0.5 * (w.norm * t)) := by
    rw [swing_vector, Vec3.norm_smul, abs_neg, abs_of_pos (div_pos hsin hnorm),
      div_mul_cancel₀ _ hnorm.ne']
  have hcancel (sine : ℝ) (hsine : sine ≠ 0) :
      2 * (0.5 * (w.norm * t)) / sine * -(sine / w.norm) = -t := by
    field_simp
    norm_num
  rw [toVector_of_acute hangle.le hacute rfl hlength, swing_vector, smul_smul, hcancel _ hsin.ne',
    neg_smul]

/-- The vector of a turn by less than half a turn. A frame that turns one way sees a fixed vector
turn the other way. -/
theorem toVector_swing {w : Vec3 ℝ} {t : ℝ} (hless : w.norm * |t| < Real.pi) :
    (swing w t).toVector = -(t • w) := by
  rcases lt_trichotomy t 0 with hneg | rfl | hpos
  · -- A turn back in time is a turn at the opposite rate.
    have hopposite : swing w t = swing ((-1 : ℝ) • w) (-t) := by
      rw [swing_smul, neg_one_mul, neg_neg]
    have hless' : ((-1 : ℝ) • w).norm * -t < Real.pi := by
      rwa [Vec3.norm_smul, abs_neg, abs_one, one_mul, ← abs_of_neg hneg]
    rw [hopposite, toVector_swing_of_pos (neg_pos.mpr hneg) hless', smul_smul, neg_mul_neg, mul_one]
  · rw [swing_zero, toVector_identity, zero_smul, neg_zero]
  · rw [abs_of_pos hpos] at hless
    exact toVector_swing_of_pos hpos hless

end Rotation

namespace AngularMotion

open Rotation

variable (r : Rotation ℝ) (w : Vec3 ℝ) (t : ℝ)

/-- Without an acceleration the rate stays, and the frame turns about it. -/
theorem steady_extrapolated : (steady r w).extrapolated t = steady ((swing w t).mul r) w := by
  unfold extrapolated steady
  ext1 <;> simp

/-- A steady angular motion is steady at all times. -/
theorem steady_rotation_extrapolated :
    steady ((steady r w).extrapolated t).rotation w = (steady r w).extrapolated t := by
  rw [steady_extrapolated]
  rfl

variable {r w t} in
/-- The rate is found again from two rotations that are less than half a turn apart. -/
theorem estimateRate_steady (hr : r.HasUnitNorm) (ht : t ≠ 0) (hless : w.norm * |t| < Real.pi) :
    estimateRate r ((swing w t).mul r) t = .ok w := by
  have hevolution : ((swing w t).mul r).mul r.revert = swing w t := by
    rw [mul_mul, hr.mul_revert_self, mul_identity]
  rw [estimateRate_eq hr ((hasUnitNorm_swing w t).mul hr), hevolution, toVector_swing hless,
    neg_neg, Vec3.div_eq_smul, smul_smul, inv_mul_cancel₀ ht, one_smul]

end AngularMotion

end FrameKinematics
