import FrameKinematics.Proofs.Linear.EntryBounds
import FrameKinematics.Proofs.Rotation.MatrixReading

/-!
# The error of a reading

The matrix of the quaternion that is read from the trace and the antisymmetric part of a matrix is a
multiple of this matrix, up to an error that is linear in the errors of its rows, its columns and its
cofactors. The first of these errors bounds the other two, unless the matrix reverses space. So the
matrix of the quaternion is as close to the matrix as the latter is to orthogonal, up to a factor,
and both are the same for a rotation matrix.
-/

namespace FrameKinematics

namespace Quaternion

variable (m : Mat3 ℝ)

/-- The square of the norm is four times the scalar part, up to the errors of the matrix. -/
theorem normSq_ofTrace : (ofTrace m).normSq =
    4 * (ofTrace m).w + (2 * m.cofactorError.trace + m.rowError.trace) := by
  simp [ofTrace, normSq, Mat3.trace, Mat3.cofactorError, Mat3.cofactors, Mat3.rowError,
    Mat3.mulTranspose, Mat3.apply, Mat3.one, Vec3.dot, Vec3.unitX, Vec3.unitY, Vec3.unitZ]
  ring

/-- The theorem of Cayley and Hamilton for the transposed matrix, which stands for the cofactors of a
rotation matrix, leaves only terms with the errors of the matrix. -/
theorem matrix_ofTrace_sub : (ofTrace m).matrix - (ofTrace m).normSq • m =
    (2 * m.cofactorError.trace + m.rowError.trace) • (.one - m) -
      (4 * m.cofactorError.trace) • .one +
      (2 : ℝ) • (m.cofactorError + m.cofactorError.transpose - m.rowError - m.columnError) := by
  ext <;>
    simp [ofTrace, normSq, matrix, Mat3.trace, Mat3.cofactorError, Mat3.cofactors, Mat3.rowError,
      Mat3.columnError, Mat3.transpose, Mat3.mulTranspose, Mat3.apply, Mat3.one, Vec3.dot,
      Vec3.unitX, Vec3.unitY, Vec3.unitZ] <;>
    ring

variable {u : Quaternion ℝ} {m} {α : ℝ}

/-- Half a turn about an axis only changes signs. -/
theorem IsAxial.within_mul (hu : u.IsAxial) (hm : m.Within α) : (m.mul u.matrix).Within α := by
  have hneg {x : ℝ} (hx : |x| ≤ α) : |-x| ≤ α := (abs_neg x).trans_le hx
  cases hu
  · rwa [mul_matrix_neutral]
  · rw [mul_matrix_first]
    exact ⟨⟨hm.top.x, hneg hm.top.y, hneg hm.top.z⟩,
      ⟨hm.middle.x, hneg hm.middle.y, hneg hm.middle.z⟩,
      ⟨hm.bottom.x, hneg hm.bottom.y, hneg hm.bottom.z⟩⟩
  · rw [mul_matrix_second]
    exact ⟨⟨hneg hm.top.x, hm.top.y, hneg hm.top.z⟩,
      ⟨hneg hm.middle.x, hm.middle.y, hneg hm.middle.z⟩,
      ⟨hneg hm.bottom.x, hm.bottom.y, hneg hm.bottom.z⟩⟩
  · rw [mul_matrix_third]
    exact ⟨⟨hneg hm.top.x, hneg hm.top.y, hm.top.z⟩,
      ⟨hneg hm.middle.x, hneg hm.middle.y, hm.middle.z⟩,
      ⟨hneg hm.bottom.x, hneg hm.bottom.y, hm.bottom.z⟩⟩

@[inherit_doc IsAxial.within_mul]
theorem IsAxial.rowError_mul (hu : u.IsAxial) (m : Mat3 ℝ) :
    (m.mul u.matrix).rowError = m.rowError := by
  cases hu
  · rw [mul_matrix_neutral]
  · rw [mul_matrix_first]
    ext <;> simp [Mat3.rowError, Mat3.mulTranspose, Mat3.apply, Vec3.dot]
  · rw [mul_matrix_second]
    ext <;> simp [Mat3.rowError, Mat3.mulTranspose, Mat3.apply, Vec3.dot]
  · rw [mul_matrix_third]
    ext <;> simp [Mat3.rowError, Mat3.mulTranspose, Mat3.apply, Vec3.dot]

/-- Two half-turns about an axis are none. -/
theorem IsAxial.mul_mul_self (hu : u.IsAxial) (m : Mat3 ℝ) :
    (m.mul u.matrix).mul u.matrix = m := by
  cases hu
  · simp only [mul_matrix_neutral]
  · simp only [mul_matrix_first, neg_neg]
  · simp only [mul_matrix_second, neg_neg]
  · simp only [mul_matrix_third, neg_neg]

end Quaternion

/-- The rows of a matrix are orthonormal up to a small error, and it does not reverse space. -/
structure Mat3.IsNearRotation (m : Mat3 ℝ) (ε : ℝ) : Prop where
  rows : m.rowError.Within ε
  det_nonneg : 0 ≤ m.det
  small : ε ≤ 1 / 100

namespace Mat3.IsNearRotation

open FrameKinematics.Quaternion (ofTrace pivot reading)

variable {m : Mat3 ℝ} {ε : ℝ}

/-- The deviation of a matrix from a rotation is not negative. -/
theorem nonneg (hm : m.IsNearRotation ε) : 0 ≤ ε :=
  hm.rows.nonneg

/-- No entry is larger than two, which is far from sharp. -/
theorem within_two (hm : m.IsNearRotation ε) : m.Within 2 := by
  have htrace := (abs_le.mp hm.rows.abs_trace_le).2
  have hsmall := hm.small
  refine .of_normSq (by norm_num) ?_
  rw [normSq_eq]
  linarith

/-- The columns are orthonormal up to an error of the same size. -/
theorem columns (hm : m.IsNearRotation ε) : m.columnError.Within (3 * ε) := by
  refine .of_normSq (by linarith [hm.nonneg]) ?_
  rw [normSq_columnError]
  exact hm.rows.normSq_le

/-- The determinant is one plus half the trace of the error of the rows, up to a term of second
order. It is the root of its square that is not negative. -/
theorem le_det (hm : m.IsNearRotation ε) : 1 + m.rowError.trace / 2 - 5 * ε ^ 2 ≤ m.det := by
  obtain ⟨hlow, hhigh⟩ := abs_le.mp hm.rows.abs_trace_le
  have hsecond := (abs_le.mp hm.rows.cofactors.abs_trace_le).1
  have hthird := (abs_le.mp hm.rows.abs_det_le).1
  have hsquare := m.det_sq_eq
  have hε := hm.nonneg
  have hsmall := hm.small
  have hcube : ε ^ 3 ≤ ε ^ 2 / 100 := by nlinarith [sq_nonneg ε]
  have hfourth : ε ^ 4 ≤ ε ^ 2 / 100 := by nlinarith [sq_nonneg ε, pow_nonneg hε 3]
  have htrace : m.rowError.trace ^ 2 ≤ 9 * ε ^ 2 := by nlinarith
  have hmixed : -(3 * ε ^ 3) ≤ ε ^ 2 * m.rowError.trace := by nlinarith [sq_nonneg ε]
  have hexpanded : (1 + m.rowError.trace / 2 - 5 * ε ^ 2) ^ 2 = 1 + m.rowError.trace +
      m.rowError.trace ^ 2 / 4 - 10 * ε ^ 2 - 5 * (ε ^ 2 * m.rowError.trace) + 25 * ε ^ 4 := by
    ring
  by_contra hlarge
  have hgap := pow_lt_pow_left₀ (not_le.mp hlarge) hm.det_nonneg two_ne_zero
  rw [hexpanded, hsquare] at hgap
  linarith [sq_nonneg ε]

/-- The cofactors are the entries up to an error of the same size. -/
theorem cofactors (hm : m.IsNearRotation ε) : m.cofactorError.Within (6 * ε) := by
  have hdet := hm.le_det
  have hsecond := (abs_le.mp hm.rows.cofactors.abs_trace_le).2
  refine .of_normSq (by linarith [hm.nonneg]) ?_
  rw [normSq_cofactorError]
  linarith

/-- The traces of the deviations are bounded by the deviation of the entries. -/
theorem abs_traces_le (hm : m.IsNearRotation ε) :
    |2 * m.cofactorError.trace + m.rowError.trace| ≤ 39 * ε := by
  obtain ⟨hlow, hhigh⟩ := abs_le.mp hm.cofactors.abs_trace_le
  obtain ⟨hlow', hhigh'⟩ := abs_le.mp hm.rows.abs_trace_le
  exact abs_le.mpr ⟨by linarith, by linarith⟩

/-- The error of a reading, before it is divided by the square of its norm. -/
theorem ofTrace_within (hm : m.IsNearRotation ε) :
    ((ofTrace m).matrix - (ofTrace m).normSq • m).Within (221 * ε) := by
  have hfour : |4 * m.cofactorError.trace| ≤ 72 * ε := by
    obtain ⟨hlow, hhigh⟩ := abs_le.mp hm.cofactors.abs_trace_le
    exact abs_le.mpr ⟨by linarith, by linarith⟩
  have hfirst := (Within.one.sub hm.within_two).smul hm.abs_traces_le
  have hsecond := Within.one.smul hfour
  have hthird := (((hm.cofactors.add hm.cofactors.transpose).sub hm.rows).sub hm.columns).smul
    (abs_two (α := ℝ)).le
  rw [Quaternion.matrix_ofTrace_sub]
  refine ((hfirst.sub hsecond).add hthird).mono ?_
  linarith

/-- Half a turn first does not change how near a matrix is to a rotation. -/
theorem mul_axial (hm : m.IsNearRotation ε) {u : Quaternion ℝ} (hu : u.IsAxial) :
    (m.mul u.matrix).IsNearRotation ε where
  rows := by
    rw [hu.rowError_mul]
    exact hm.rows
  det_nonneg := by
    rw [det_mul, Quaternion.det_matrix, hu.hasUnitNorm, one_pow, mul_one]
    exact hm.det_nonneg
  small := hm.small

/-- The square of the norm of a reading whose large component is at least one is well above three. -/
theorem three_le_normSq_ofTrace (hm : m.IsNearRotation ε) (hlarge : 1 ≤ (ofTrace m).w) :
    3 ≤ (ofTrace m).normSq := by
  have herrors := (abs_le.mp hm.abs_traces_le).1
  have hsmall := hm.small
  rw [Quaternion.normSq_ofTrace]
  linarith

/-- The matrix of the quaternion that is read from a matrix which is nearly a rotation is as near to
this matrix, up to a factor. -/
theorem ofMatrix_within (hm : m.IsNearRotation ε) :
    ((Quaternion.ofMatrix m).matrix - m).Within (100 * ε) := by
  have hu := Quaternion.isAxial_pivot m
  have hnear := hm.mul_axial hu
  have hnorm : 3 ≤ (reading m (pivot m)).normSq := by
    rw [hu.normSq_reading]
    exact hnear.three_le_normSq_ofTrace (Quaternion.one_le_radicand_pivot m)
  have herror := hu.within_mul hnear.ofTrace_within
  rw [sub_mul_eq, smul_mul_eq, hu.mul_mul_self, ← Quaternion.matrix_mul, ← hu.normSq_reading]
    at herror
  have hfactor : |(reading m (pivot m)).normSq⁻¹| ≤ 1 / 3 := by
    rw [abs_inv, abs_of_nonneg (by linarith), inv_eq_one_div]
    exact one_div_le_one_div_of_le three_pos hnorm
  rw [Quaternion.matrix_ofMatrix, inv_smul_sub _ _ (by linarith)]
  refine (herror.smul hfactor).mono ?_
  linarith [hm.nonneg]

end Mat3.IsNearRotation

end FrameKinematics
