import FrameKinematics.Proofs.Rotation.MatrixAcceptance

/-!
# From rotations to matrices and back

A rotation matrix is a matrix near a rotation without any error, so the quaternion that is read from
it has this matrix. Two unit quaternions with one matrix are equal or opposite, since the product of
the one with the conjugate of the other has the identity matrix. So a rotation is found again from
its matrix, up to the sign of its quaternion.
-/

namespace FrameKinematics

namespace Mat3.IsSpecialOrthogonal

variable {m : Mat3 ℝ}

/-- The rows of a rotation matrix do not deviate from orthonormal ones. -/
theorem rowError_within_zero (hm : m.IsSpecialOrthogonal) : m.rowError.Within 0 :=
  Within.sub_zero_iff.mpr hm.mul_transpose

/-- A rotation matrix is near a rotation with no deviation at all. -/
theorem isNearRotation (hm : m.IsSpecialOrthogonal) : m.IsNearRotation 0 where
  rows := hm.rowError_within_zero
  det_nonneg := by
    rw [hm.det_eq_one]
    exact zero_le_one
  small := by norm_num

/-- The quaternion that is read from a rotation matrix has this matrix. -/
theorem matrix_ofMatrix (hm : m.IsSpecialOrthogonal) : (Quaternion.ofMatrix m).matrix = m := by
  have herror := hm.isNearRotation.ofMatrix_within
  rw [mul_zero] at herror
  exact Within.sub_zero_iff.mp herror

end Mat3.IsSpecialOrthogonal

namespace Quaternion

variable {p q : Quaternion ℝ}

/-- The trace of the matrix of a quaternion. -/
theorem trace_matrix (q : Quaternion ℝ) : q.matrix.trace = 4 * (q.w * q.w) - q.normSq := by
  simp only [Mat3.trace, matrix, normSq]
  ring

/-- Only two unit quaternions have the identity matrix, whose trace is three. -/
theorem HasUnitNorm.eq_one_or_eq_neg_one (hq : q.HasUnitNorm) (hmatrix : q.matrix = .one) :
    q = one ∨ q = -one := by
  have hthree : (Mat3.one : Mat3 ℝ).trace = 3 := by
    norm_num [Mat3.trace, Mat3.one, Vec3.unitX, Vec3.unitY, Vec3.unitZ]
  have htrace := q.trace_matrix
  rw [hmatrix, hthree, hq] at htrace
  have hscalar : q.w * q.w = 1 := by linarith
  have hsquares : q.x * q.x + q.y * q.y + q.z * q.z = 0 := by
    unfold HasUnitNorm normSq at hq
    linarith
  have hxx := mul_self_nonneg q.x
  have hyy := mul_self_nonneg q.y
  have hzz := mul_self_nonneg q.z
  have hx : q.x = 0 := mul_self_eq_zero.mp (by linarith)
  have hy : q.y = 0 := mul_self_eq_zero.mp (by linarith)
  have hz : q.z = 0 := mul_self_eq_zero.mp (by linarith)
  rcases mul_self_eq_one_iff.mp hscalar with hw | hw
  · left
    ext <;> simp [one, hw, hx, hy, hz]
  · right
    ext <;> simp [one, hw, hx, hy, hz]

/-- Unit quaternions with one matrix are equal or opposite. -/
theorem HasUnitNorm.eq_or_eq_neg_of_matrix_eq (hp : p.HasUnitNorm) (hq : q.HasUnitNorm)
    (hmatrix : p.matrix = q.matrix) : p = q ∨ p = -q := by
  have hone : (q.conjugate.mul p).matrix = .one := by
    rw [matrix_mul, hmatrix, ← matrix_mul, hq.conjugate_mul_self, matrix_one]
  have hback : q.mul (q.conjugate.mul p) = p := by
    have hinverse : q.mul q.conjugate = one := by simpa using hq.conjugate.conjugate_mul_self
    rw [← mul_mul, hinverse, one_mul_eq]
  rcases (hq.conjugate.mul hp).eq_one_or_eq_neg_one hone with hsame | hopposite
  · left
    rw [← hback, hsame, mul_one_eq]
  · right
    rw [← hback, hopposite]
    ext <;> simp [Quaternion.mul, one]

end Quaternion

namespace Rotation

variable {r s : Rotation ℝ} {m : Mat3 ℝ}

/-- A rotation matrix is accepted and read. -/
theorem ofMatrix_of_isSpecialOrthogonal (hm : m.IsSpecialOrthogonal) :
    ofMatrix m = .ok ⟨.ofMatrix m⟩ := by
  refine ofMatrix_eq_ok_iff.mpr ⟨⟨hm.rowError_within_zero.mono (by norm_num), ?_⟩, rfl⟩
  rw [hm.det_eq_one]
  exact zero_le_one

/-- Rotations with unit quaternions are the same if their matrices are. -/
theorem HasUnitNorm.same_of_matrix_eq (hr : r.HasUnitNorm) (hs : s.HasUnitNorm)
    (hmatrix : r.matrix = s.matrix) : r.same s = true :=
  same_iff.mpr (Quaternion.HasUnitNorm.eq_or_eq_neg_of_matrix_eq hr hs hmatrix)

/-- The matrix of a rotation with a unit quaternion is read as the same rotation. A rotation matrix is
read, without any undefined operation, as a rotation with this matrix and a unit quaternion whose
scalar part is not negative. -/
theorem matrix_roundTrip :
    (∀ r : Rotation ℝ, r.HasUnitNorm → ∃ s, ofMatrix r.matrix = .ok s ∧ s.same r = true) ∧
      ∀ m : Mat3 ℝ, m.IsSpecialOrthogonal → m.IsReadSafely ∧
        ∃ s, ofMatrix m = .ok s ∧ s.HasUnitNorm ∧ 0 ≤ s.quaternion.w ∧ s.matrix = m := by
  constructor
  · intro r hr
    have hmatrix : r.matrix.IsSpecialOrthogonal := Quaternion.HasUnitNorm.isSpecialOrthogonal hr
    have hunit : (⟨.ofMatrix r.matrix⟩ : Rotation ℝ).HasUnitNorm :=
      Quaternion.hasUnitNorm_ofMatrix r.matrix
    exact ⟨_, ofMatrix_of_isSpecialOrthogonal hmatrix,
      hunit.same_of_matrix_eq hr hmatrix.matrix_ofMatrix⟩
  · intro m hm
    exact ⟨Quaternion.isReadSafely m, _, ofMatrix_of_isSpecialOrthogonal hm,
      Quaternion.hasUnitNorm_ofMatrix m, Quaternion.ofMatrix_w_nonneg m, hm.matrix_ofMatrix⟩

/-- Half a turn about the line between the first two axes: two diagonal entries are equal, and the
scalar part of the quaternion is zero. -/
noncomputable def exchange : Mat3 ℝ := ⟨⟨0, 1, 0⟩, ⟨1, 0, 0⟩, ⟨0, 0, -1⟩⟩

/-- A half-turn is found again from its matrix, and an exchange of axes is read safely. -/
theorem flipped_exchange_roundTrip :
    (∃ s, ofMatrix flipped.matrix = .ok s ∧ s.same flipped = true) ∧ exchange.IsReadSafely ∧
      ∃ s, ofMatrix exchange = .ok s ∧ s.HasUnitNorm ∧ 0 ≤ s.quaternion.w ∧
        s.matrix = exchange := by
  have hexchange : exchange.IsSpecialOrthogonal := by
    constructor
    · ext <;> norm_num [exchange, Mat3.mul, Mat3.mulTranspose, Mat3.transpose, Mat3.apply, Mat3.one,
        Vec3.dot, Vec3.unitX, Vec3.unitY, Vec3.unitZ]
    · ext <;> norm_num [exchange, Mat3.mul, Mat3.mulTranspose, Mat3.transpose, Mat3.apply, Mat3.one,
        Vec3.dot, Vec3.unitX, Vec3.unitY, Vec3.unitZ]
    · norm_num [exchange, Mat3.det, Vec3.dot]
  exact ⟨matrix_roundTrip.1 flipped flipped_hasUnitNorm, matrix_roundTrip.2 exchange hexchange⟩

end Rotation

end FrameKinematics
