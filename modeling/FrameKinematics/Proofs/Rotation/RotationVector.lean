import FrameKinematics.Proofs.Linear.ScalarProduct
import FrameKinematics.Proofs.Rotation.Composition

/-!
# The vector of a rotation

The vector of a rotation is its axis, scaled by its angle. A rotation that turns nothing has no axis
of its own, but it has no angle either, so for every quaternion the vector is a multiple of the vector
part. The angle is read off a quaternion that is given by the cosine and the sine of an acute angle.
-/

namespace FrameKinematics

/-- The length of a multiple is the multiple of the length, without its sign. -/
theorem Vec3.norm_smul (k : ℝ) (u : Vec3 ℝ) : (k • u).norm = |k| * u.norm := by
  have hsquare : (k • u).dot (k • u) = k ^ 2 * u.dot u := by
    rw [dot_smul, smul_dot]
    ring
  rw [norm, norm, hsquare, Scalar.sqrt_real, Scalar.sqrt_real, Real.sqrt_mul (sq_nonneg k),
    Real.sqrt_sq_eq_abs]

namespace Rotation

variable {r : Rotation ℝ}

/-- The angle is twice the argument of the half-angle's cosine and sine. -/
theorem angle_eq (r : Rotation ℝ) :
    r.angle = 2 * Complex.arg ⟨|r.quaternion.w|, r.quaternion.vector.norm⟩ := by
  rw [angle, Scalar.two_literal, Scalar.abs_real]
  rfl

/-- A quaternion without a vector part does not turn. -/
theorem angle_of_vector_eq_zero (h : r.quaternion.vector = 0) : r.angle = 0 := by
  rw [angle_eq, Vec3.norm_eq_zero.mpr h]
  exact (congrArg (2 * ·) (Complex.arg_ofReal_of_nonneg (abs_nonneg _))).trans (mul_zero 2)

/-- The angle is at most half a turn. -/
theorem angle_mem_Icc (r : Rotation ℝ) : r.angle ∈ Set.Icc 0 Real.pi := by
  rw [angle_eq]
  generalize hz : (⟨|r.quaternion.w|, r.quaternion.vector.norm⟩ : ℂ) = z
  have hre : 0 ≤ z.re := by
    rw [← hz]
    exact abs_nonneg _
  have him : 0 ≤ z.im := by
    rw [← hz]
    exact Vec3.norm_nonneg _
  have hnonneg := Complex.arg_nonneg_iff.mpr him
  have hacute := Complex.arg_le_pi_div_two_iff.mpr (.inl hre)
  constructor <;> linarith

/-- The cosine of half the angle is the scalar part of the quaternion, up to the sign, and the sine is
the length of the vector part. -/
theorem HasUnitNorm.half_angle (hr : r.HasUnitNorm) :
    Real.cos (0.5 * r.angle) = |r.quaternion.w| ∧
      Real.sin (0.5 * r.angle) = r.quaternion.vector.norm := by
  have hunit : r.quaternion.normSq = 1 := hr
  have hhalf : 0.5 * r.angle = Complex.arg ⟨|r.quaternion.w|, r.quaternion.vector.norm⟩ := by
    rw [angle_eq]
    ring
  have hlength : ‖(⟨|r.quaternion.w|, r.quaternion.vector.norm⟩ : ℂ)‖ = 1 := by
    rw [Complex.norm_def, Complex.normSq_mk, abs_mul_abs_self, Vec3.norm_mul_norm, Real.sqrt_eq_one,
      ← hunit]
    simp only [Quaternion.normSq, Quaternion.vector]
    ring
  constructor
  · rw [hhalf, Complex.cos_arg (norm_ne_zero_iff.mp (by rw [hlength]; exact one_ne_zero)), hlength,
      div_one]
  · rw [hhalf, Complex.sin_arg, hlength, div_one]

/-- The axis of a rotation that turns something. Of the two quaternions of a rotation the one whose
scalar part is not negative is taken. -/
theorem axis_eq (h : r.quaternion.vector ≠ 0) :
    r.axis = ((if 0 ≤ r.quaternion.w then 1 else -1) / r.quaternion.vector.norm) •
      r.quaternion.vector := by
  have hnorm : r.quaternion.vector.norm ≠ 0 := mt Vec3.norm_eq_zero.mp h
  rw [axis, Scalar.zero_literal]
  split_ifs with hnonneg hzero hzero
  · exact absurd (beq_iff_eq.mp hzero) hnorm
  · rw [Vec3.div_eq_smul, one_div]
  · rw [Quaternion.vector_neg, Vec3.norm_neg] at hzero
    exact absurd (beq_iff_eq.mp hzero) hnorm
  · rw [Quaternion.vector_neg, Vec3.norm_neg, Vec3.div_eq_smul, smul_neg, neg_div, one_div, neg_smul]

/-- The vector of a rotation is a multiple of the vector part of its quaternion. -/
theorem toVector_eq_smul (r : Rotation ℝ) :
    r.toVector =
      (r.angle * ((if 0 ≤ r.quaternion.w then 1 else -1) / r.quaternion.vector.norm)) •
        r.quaternion.vector := by
  rw [toVector]
  by_cases h : r.quaternion.vector = 0
  · rw [angle_of_vector_eq_zero h, zero_smul, zero_mul, zero_smul]
  · rw [axis_eq h, smul_smul]

/-- The vector of a rotation by twice an acute angle. -/
theorem toVector_of_acute {a : ℝ} (ha : 0 ≤ a) (hacute : a < Real.pi / 2)
    (hscalar : r.quaternion.w = Real.cos a) (hnorm : r.quaternion.vector.norm = Real.sin a) :
    r.toVector = (2 * a / Real.sin a) • r.quaternion.vector := by
  have hcos : 0 < Real.cos a := Real.cos_pos_of_mem_Ioo ⟨by linarith, hacute⟩
  have hangle : r.angle = 2 * a := by
    have harg := Complex.arg_cos_add_sin_mul_I (θ := a) ⟨by linarith, by linarith⟩
    have hpolar : (⟨Real.cos a, Real.sin a⟩ : ℂ) = Complex.cos a + Complex.sin a * Complex.I := by
      apply Complex.ext <;> simp [Complex.cos_ofReal_re, Complex.sin_ofReal_re]
    rw [angle_eq, hnorm, hscalar, abs_of_pos hcos, hpolar, harg]
  rw [toVector_eq_smul, hangle, hnorm, hscalar, if_pos hcos.le, mul_one_div]

/-- The scalar part of the identity is one. -/
theorem identity_w : (identity : Rotation ℝ).quaternion.w = 1 :=
  Scalar.one_literal

/-- The identity has no vector part. -/
theorem identity_vector : (identity : Rotation ℝ).quaternion.vector = 0 := by
  ext <;> simp [identity, Quaternion.one, Quaternion.vector]

/-- The rotation vector of the identity is zero. -/
@[simp] theorem toVector_identity : (identity : Rotation ℝ).toVector = 0 := by
  rw [toVector_eq_smul, identity_vector, smul_zero]

end Rotation

end FrameKinematics
