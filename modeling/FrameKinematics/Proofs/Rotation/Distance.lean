import FrameKinematics.Proofs.Motion.ChangeOfAxes
import FrameKinematics.Proofs.Rotation.MatrixRoundTrip
import FrameKinematics.Proofs.Rotation.Opposite

/-!
# The distance of two rotations

The distance is the angle of the rotation that leads from one to the other. The cosine of half the
angle of a product is made of the scalar parts and the vector parts of the two factors, and by the
inequality of Cauchy and Schwarz it is not below the cosine of the sum of the two half angles. So a
product turns by the sum of the two angles at most, which is the triangle inequality. Angles do not
depend on the axes, and so the distance stays when a further rotation is composed on either side.
-/

namespace FrameKinematics

/-- A matrix is determined by the images of the unit vectors. -/
theorem Mat3.eq_of_apply_eq {a b : Mat3 ℝ} (h : ∀ v, a.apply v = b.apply v) : a = b := by
  have hcolumn (a : Mat3 ℝ) : a = Mat3.transpose
      ⟨a.apply .unitX, a.apply .unitY, a.apply .unitZ⟩ := by
    ext <;> simp [apply, transpose, Vec3.dot, Vec3.unitX, Vec3.unitY, Vec3.unitZ]
  rw [hcolumn a, hcolumn b, h, h, h]

namespace Rotation

variable {r s t : Rotation ℝ}

section Angle

/-- The inverse turns by the same angle about the opposite axis. -/
theorem angle_revert (r : Rotation ℝ) : r.revert.angle = r.angle := by
  have hvector : r.revert.quaternion.vector = -r.quaternion.vector := rfl
  rw [angle_eq, angle_eq, hvector, Vec3.norm_neg]
  rfl

/-- Only the identity, by either of its quaternions, has no angle. -/
theorem HasUnitNorm.angle_eq_zero_iff (hr : r.HasUnitNorm) :
    r.angle = 0 ↔ identity.same r = true := by
  constructor
  · intro hangle
    obtain ⟨hscalar, hlength⟩ := hr.half_angle
    rw [hangle, mul_zero, Real.cos_zero] at hscalar
    rw [hangle, mul_zero, Real.sin_zero] at hlength
    have hvector := Vec3.norm_eq_zero.mp hlength.symm
    rw [same_iff_eq_or_eq_opposite]
    rcases (abs_eq zero_le_one).mp hscalar.symm with hw | hw
    · left
      apply ext_parts
      · rw [identity_w, hw]
      · rw [identity_vector, hvector]
    · right
      apply ext_parts
      · rw [identity_w, opposite_w, hw, neg_neg]
      · rw [identity_vector, opposite_vector, hvector, neg_zero]
  · intro hsame
    rw [← angle_of_same hsame, angle_of_vector_eq_zero identity_vector]

/-- The scalar part of a product is what the scalar product of the vector parts leaves of the
product of the scalar parts. -/
theorem mul_w (r s : Rotation ℝ) :
    (r.mul s).quaternion.w =
      r.quaternion.w * s.quaternion.w - r.quaternion.vector.dot s.quaternion.vector := by
  simp only [mul, Quaternion.mul, Quaternion.vector, Vec3.dot]
  ring

/-- Two rotations, one after the other, turn by the sum of their angles at most. -/
theorem HasUnitNorm.angle_mul_le (hr : r.HasUnitNorm) (hs : s.HasUnitNorm) :
    (r.mul s).angle ≤ r.angle + s.angle := by
  obtain ⟨hnonneg, hle⟩ := (r.mul s).angle_mem_Icc
  rcases le_total Real.pi (r.angle + s.angle) with hwide | hnarrow
  · exact hle.trans hwide
  have hschwarz := Vec3.abs_dot_le_norm_mul_norm r.quaternion.vector s.quaternion.vector
  have hcos : Real.cos (0.5 * r.angle + 0.5 * s.angle) ≤ Real.cos (0.5 * (r.mul s).angle) := by
    rw [Real.cos_add, hr.half_angle.1, hr.half_angle.2, hs.half_angle.1, hs.half_angle.2,
      (hr.mul hs).half_angle.1, mul_w]
    calc |r.quaternion.w| * |s.quaternion.w| -
          r.quaternion.vector.norm * s.quaternion.vector.norm
        ≤ |r.quaternion.w * s.quaternion.w| -
            |r.quaternion.vector.dot s.quaternion.vector| := by
          rw [abs_mul]
          exact sub_le_sub_left hschwarz _
      _ ≤ |r.quaternion.w * s.quaternion.w -
            r.quaternion.vector.dot s.quaternion.vector| := abs_sub_abs_le_abs_sub _ _
  -- Between no turn and half a turn the cosine decreases.
  have hr_nonneg := r.angle_mem_Icc.1
  have hs_nonneg := s.angle_mem_Icc.1
  have hhalf := (Real.strictAntiOn_cos.le_iff_ge ⟨by linarith, by linarith⟩
    ⟨by linarith, by linarith⟩).mp hcos
  linarith

end Angle

section Difference

/-- The rotation that leads from `r` to `s`. -/
noncomputable def difference (r s : Rotation ℝ) : Rotation ℝ := r.revert.mul s

/-- The difference of unit quaternions is one. -/
theorem hasUnitNorm_difference (hr : r.HasUnitNorm) (hs : s.HasUnitNorm) :
    (r.difference s).HasUnitNorm :=
  hr.revert.mul hs

/-- The distance of rotations with unit quaternions is the angle of their difference. -/
theorem HasUnitNorm.distance_eq (hr : r.HasUnitNorm) (hs : s.HasUnitNorm) :
    r.distance s = .ok (r.difference s).angle :=
  bind_eq_of_ok (hr.revert.compose_eq hs)

/-- The way back is the inverse of the way there. -/
theorem difference_comm (r s : Rotation ℝ) : s.difference r = (r.difference s).revert := by
  rw [difference, difference, revert_mul, revert_revert]

/-- The way from `r` to `t` leads through `s`. -/
theorem HasUnitNorm.difference_mul_difference (hs : s.HasUnitNorm) (r t : Rotation ℝ) :
    (r.difference s).mul (s.difference t) = r.difference t := by
  have hthrough : s.mul (s.revert.mul t) = t := by
    rw [← mul_mul, hs.mul_revert_self, identity_mul]
  rw [difference, difference, mul_mul, hthrough, difference]

/-- A rotation that is composed after both does not change the difference. -/
theorem HasUnitNorm.difference_mul_left (ht : t.HasUnitNorm) (r s : Rotation ℝ) :
    (t.mul r).difference (t.mul s) = r.difference s := by
  rw [difference, revert_mul, mul_mul, ht.revert_mul_mul, difference]

/-- A rotation that is composed before both changes the axes of the difference. -/
theorem difference_mul_right (r s t : Rotation ℝ) :
    (r.mul t).difference (s.mul t) = turned t.revert (r.difference s) := by
  simp only [difference, turned, revert_mul, revert_revert, mul_mul]

/-- Nothing leads from a rotation to another one only if they are the same. -/
theorem HasUnitNorm.difference_same_identity_iff (hr : r.HasUnitNorm) :
    identity.same (r.difference s) = true ↔ r.same s = true := by
  constructor
  · intro hsame
    have hback := mul_same r.same_self hsame
    rwa [mul_identity, difference, ← mul_mul, hr.mul_revert_self, identity_mul] at hback
  · intro hsame
    have hback := mul_same r.revert.same_self hsame
    rwa [hr.revert_mul_self] at hback

end Difference

/-- Rotations with unit quaternions are the same if they turn every vector alike. -/
theorem HasUnitNorm.same_iff_apply_eq (hr : r.HasUnitNorm) (hs : s.HasUnitNorm) :
    r.same s = true ↔ ∀ v, r.apply v = s.apply v := by
  refine ⟨apply_of_same, fun hact => hr.same_of_matrix_eq hs (Mat3.eq_of_apply_eq fun v => ?_)⟩
  rw [← hr.apply_eq_matrix_apply, hact, hs.apply_eq_matrix_apply]

variable {a b c : Rotation ℝ}

/-- On rotations with unit quaternions the distance is a metric, of which half a turn is the largest
value: it never fails, is symmetric, vanishes between rotations that are the same, which are those
that turn every vector alike, and obeys the triangle inequality. It does not change when a rotation
is composed after both or before both. -/
theorem distance_biinvariant (ha : a.HasUnitNorm) (hb : b.HasUnitNorm) (hc : c.HasUnitNorm) :
    ∃ ab ba bc ac, a.distance b = .ok ab ∧ b.distance a = .ok ba ∧ b.distance c = .ok bc ∧
      a.distance c = .ok ac ∧
      ab ∈ Set.Icc 0 Real.pi ∧ ab = ba ∧
      (ab = 0 ↔ a.same b = true) ∧ (a.same b = true ↔ ∀ v, a.apply v = b.apply v) ∧
      ac ≤ ab + bc ∧
      (∃ ca cb, c.compose a = .ok ca ∧ c.compose b = .ok cb ∧ ca.distance cb = .ok ab) ∧
      ∃ ac' bc', a.compose c = .ok ac' ∧ b.compose c = .ok bc' ∧ ac'.distance bc' = .ok ab := by
  refine ⟨_, _, _, _, ha.distance_eq hb, hb.distance_eq ha, hb.distance_eq hc, ha.distance_eq hc,
    angle_mem_Icc _, ?symmetric, ?separates, ha.same_iff_apply_eq hb, ?triangle,
    ⟨_, _, hc.compose_eq ha, hc.compose_eq hb, ?after⟩,
    _, _, ha.compose_eq hc, hb.compose_eq hc, ?before⟩
  case symmetric => rw [difference_comm b a, angle_revert]
  case separates =>
    rw [(hasUnitNorm_difference ha hb).angle_eq_zero_iff, ha.difference_same_identity_iff]
  case triangle =>
    rw [← hb.difference_mul_difference]
    exact (hasUnitNorm_difference ha hb).angle_mul_le (hasUnitNorm_difference hb hc)
  case after => rw [(hc.mul ha).distance_eq (hc.mul hb), hc.difference_mul_left]
  case before =>
    rw [(ha.mul hc).distance_eq (hb.mul hc), difference_mul_right, hc.revert.angle_turned]

/-- A third of a turn, which exchanges the three axes. -/
noncomputable def cyclic : Rotation ℝ := ⟨⟨0.5, 0.5, 0.5, 0.5⟩⟩

/-- The turn that moves the axes in a cycle is a rotation. -/
theorem cyclic_hasUnitNorm : cyclic.HasUnitNorm := by
  norm_num [cyclic, HasUnitNorm, Quaternion.HasUnitNorm, Quaternion.normSq]

/-- The distances between three rotations satisfy all of this. -/
theorem slanted_flipped_cyclic_distances :
    slanted.HasUnitNorm ∧ flipped.HasUnitNorm ∧ cyclic.HasUnitNorm ∧
      ∃ ab ba bc ac, slanted.distance flipped = .ok ab ∧ flipped.distance slanted = .ok ba ∧
        flipped.distance cyclic = .ok bc ∧ slanted.distance cyclic = .ok ac ∧
        ab ∈ Set.Icc 0 Real.pi ∧ ab = ba ∧ (ab = 0 ↔ slanted.same flipped = true) ∧
        (slanted.same flipped = true ↔ ∀ v, slanted.apply v = flipped.apply v) ∧
        ac ≤ ab + bc ∧
        (∃ ca cb, cyclic.compose slanted = .ok ca ∧ cyclic.compose flipped = .ok cb ∧
          ca.distance cb = .ok ab) ∧
        ∃ ac' bc', slanted.compose cyclic = .ok ac' ∧ flipped.compose cyclic = .ok bc' ∧
          ac'.distance bc' = .ok ab :=
  ⟨slanted_hasUnitNorm, flipped_hasUnitNorm, cyclic_hasUnitNorm,
    distance_biinvariant slanted_hasUnitNorm flipped_hasUnitNorm cyclic_hasUnitNorm⟩

end Rotation

end FrameKinematics
