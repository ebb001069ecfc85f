import FrameKinematics.Proofs.Rotation.VectorRoundTrip

/-!
# Estimated rates

The rate between two rotations is taken from the vector of the rotation that leads from the one to
the other. A frame that turns at this rate comes to the second rotation, also if the two are half a
turn apart, and whatever the sign of the time. A rate that turns the frame by less than half a turn
is found again from the rotations at the beginning and at the end.
-/

namespace FrameKinematics.AngularMotion

open Rotation

variable {r : Rotation ℝ} {dt : ℝ}

/-- A steady rotation is shifted along itself, by a swing about its rate. -/
theorem shift_steady (hr : r.HasUnitNorm) (w : Vec3 ℝ) (dt : ℝ) :
    (steady r w).shift dt = .ok (steady ((swing w dt).mul r) w) := by
  have hunit : (steady r w).rotation.HasUnitNorm := hr
  rw [shift_eq dt hunit, steady_extrapolated]

/-- A turn at a rate for some time does not depend on the time that the rate is taken over. -/
theorem swing_div (v : Vec3 ℝ) (hdt : dt ≠ 0) : swing (v / dt) dt = swing v 1 := by
  rw [Vec3.div_eq_smul, swing_smul, inv_mul_cancel₀ hdt]

/-- A frame turns at an estimated rate by the angle between the two rotations. -/
theorem norm_estimated (r : Rotation ℝ) (hdt : dt ≠ 0) :
    ((-r.toVector) / dt).norm * |dt| = r.angle := by
  rw [Vec3.div_eq_smul, Vec3.norm_smul, Vec3.norm_neg, norm_toVector, abs_inv, mul_right_comm,
    inv_mul_cancel₀ (abs_ne_zero.mpr hdt), one_mul]

/-- Estimation finds the rate of a steady rotation by less than half a turn, and a steady rotation at
an estimated rate, which is by half a turn at most, ends where it was estimated to end. -/
theorem estimateRate_inverts_shift :
    (∀ (r : Rotation ℝ) (w : Vec3 ℝ) (dt : ℝ), r.HasUnitNorm → dt ≠ 0 → w.norm * |dt| < Real.pi →
      ∃ b, (steady r w).shift dt = .ok b ∧ estimateRate r b.rotation dt = .ok w) ∧
    ∀ (start finish : Rotation ℝ) (dt : ℝ), start.HasUnitNorm → finish.HasUnitNorm → dt ≠ 0 →
      ∃ w b, estimateRate start finish dt = .ok w ∧ w.norm * |dt| ≤ Real.pi ∧
        (steady start w).shift dt = .ok b ∧ b.rotation.same finish = true := by
  constructor
  · intro r w dt hr hdt hless
    exact ⟨_, shift_steady hr w dt, estimateRate_steady hr hdt hless⟩
  · intro start finish dt hstart hfinish hdt
    have hevolution := hfinish.mul hstart.revert
    refine ⟨_, _, estimateRate_eq hstart hfinish dt, ?_, shift_steady hstart _ dt, ?_⟩
    · rw [norm_estimated _ hdt]
      exact (angle_mem_Icc _).2
    · have hturn := mul_same hevolution.swing_neg_toVector_same start.same_self
      rw [mul_mul, hstart.revert_mul_self, mul_identity] at hturn
      rwa [← swing_div _ hdt] at hturn

/-- Three radians back in time, and half a turn to a quaternion with the other sign. -/
theorem slanted_flipped_estimateRate :
    (slanted.HasUnitNorm ∧ (-1 : ℝ) ≠ 0 ∧ nearHalfTurn.norm * |-1| < Real.pi ∧
      ∃ b, (steady slanted nearHalfTurn).shift (-1) = .ok b ∧
        estimateRate slanted b.rotation (-1) = .ok nearHalfTurn) ∧
    (slanted.HasUnitNorm ∧ (flipped.opposite.mul slanted).HasUnitNorm ∧ (-2 : ℝ) ≠ 0 ∧
      ∃ w b, estimateRate slanted (flipped.opposite.mul slanted) (-2) = .ok w ∧
        w.norm * |-2| ≤ Real.pi ∧ (steady slanted w).shift (-2) = .ok b ∧
        b.rotation.same (flipped.opposite.mul slanted) = true) := by
  have hless : nearHalfTurn.norm * |-1| < Real.pi := by
    rw [abs_neg, abs_one, mul_one]
    exact nearHalfTurn_norm_lt_pi
  have hfinish := flipped_hasUnitNorm.opposite.mul slanted_hasUnitNorm
  exact ⟨⟨slanted_hasUnitNorm, by norm_num, hless,
      estimateRate_inverts_shift.1 _ _ _ slanted_hasUnitNorm (by norm_num) hless⟩,
    slanted_hasUnitNorm, hfinish, by norm_num,
    estimateRate_inverts_shift.2 _ _ _ slanted_hasUnitNorm hfinish (by norm_num)⟩

end FrameKinematics.AngularMotion
