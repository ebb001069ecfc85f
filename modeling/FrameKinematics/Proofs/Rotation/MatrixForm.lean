import FrameKinematics.Proofs.Rotation.Composition

/-!
# Rotations as matrices

The matrix of a quaternion takes a vector to the vector part of `q v q*`, whatever the norm of the
quaternion is, and so products of quaternions have products of matrices. For unit quaternions the
shorter formula of `rotate` says the same, and the matrices are orthogonal with determinant one. So
the group of unit quaternions, its action on vectors and the rotation matrices agree.
-/

namespace FrameKinematics

/-- A matrix is orthogonal and keeps the orientation of space. -/
structure Mat3.IsSpecialOrthogonal (m : Mat3 ℝ) : Prop where
  mul_transpose : m.mul m.transpose = .one
  transpose_mul : m.transpose.mul m = .one
  det_eq_one : m.det = 1

namespace Quaternion

variable {q : Quaternion ℝ}

/-- The matrix of a quaternion takes a vector to the vector part of `q v q*`. -/
theorem matrix_apply (q : Quaternion ℝ) (v : Vec3 ℝ) : q.matrix.apply v = q.sandwich v := by
  ext <;> simp [matrix, Mat3.apply, Vec3.dot, sandwich, vector, mul, conjugate] <;> ring

/-- The matrix of a product is the product of the matrices. -/
theorem matrix_mul (p q : Quaternion ℝ) : (p.mul q).matrix = p.matrix.mul q.matrix := by
  ext <;>
    simp [matrix, mul, Mat3.mul, Mat3.mulTranspose, Mat3.apply, Mat3.transpose, Vec3.dot] <;> ring

/-- Conjugation exchanges the rows and the columns of the matrix. -/
theorem matrix_conjugate (q : Quaternion ℝ) : q.conjugate.matrix = q.matrix.transpose := by
  ext <;> simp [matrix, conjugate, Mat3.transpose] <;> ring

/-- The matrix of the quaternion one is the identity. -/
@[simp] theorem matrix_one : (one : Quaternion ℝ).matrix = .one := by
  ext <;> simp [matrix, one, Mat3.one, Vec3.unitX, Vec3.unitY, Vec3.unitZ]

/-- The determinant is homogeneous of degree six in the quaternion. -/
theorem det_matrix (q : Quaternion ℝ) : q.matrix.det = q.normSq ^ 3 := by
  simp [matrix, Mat3.det, Vec3.dot, normSq]
  ring

/-- The matrix of a unit quaternion is a rotation matrix. -/
theorem HasUnitNorm.isSpecialOrthogonal (hq : q.HasUnitNorm) : q.matrix.IsSpecialOrthogonal where
  mul_transpose := by
    have hinverse : q.mul q.conjugate = one := by simpa using hq.conjugate.conjugate_mul_self
    rw [← matrix_conjugate, ← matrix_mul, hinverse, matrix_one]
  transpose_mul := by
    rw [← matrix_conjugate, ← matrix_mul, hq.conjugate_mul_self, matrix_one]
  det_eq_one := by
    rw [det_matrix, hq, one_pow]

end Quaternion

namespace Rotation

variable {r s : Rotation ℝ}

/-- A rotation with a unit quaternion turns vectors as its matrix does. -/
theorem HasUnitNorm.apply_eq_matrix_apply (hr : r.HasUnitNorm) (v : Vec3 ℝ) :
    r.apply v = r.matrix.apply v :=
  (Quaternion.HasUnitNorm.rotate_eq_sandwich v hr).trans (Quaternion.matrix_apply _ v).symm

/-- The matrix of the inverse rotation is the transpose. -/
theorem matrix_revert (r : Rotation ℝ) : r.revert.matrix = r.matrix.transpose :=
  Quaternion.matrix_conjugate r.quaternion

/-- The forms in which two rotations and their compositions are computed agree with each other. -/
structure FormsAgree (r s : Rotation ℝ) (v : Vec3 ℝ) : Prop where
  /-- A rotation turns a vector as its matrix does. -/
  apply_eq : r.apply v = r.matrix.apply v
  /-- It turns it to the vector part of `q v q*`. -/
  apply_eq_sandwich : r.apply v = r.quaternion.sandwich v
  /-- Its matrix is orthogonal with determinant one. -/
  isSpecialOrthogonal : r.matrix.IsSpecialOrthogonal
  /-- The inverse rotation of a vector is the rotation by the inverse. -/
  applyInverse_eq_revert : r.applyInverse v = r.revert.apply v
  /-- It is the product with the transposed matrix. -/
  applyInverse_eq_transpose : r.applyInverse v = r.matrix.transpose.apply v
  /-- Two rotations compose to one with a unit quaternion and the product of the matrices. -/
  exists_compose : ∃ t, r.compose s = .ok t ∧ t.HasUnitNorm ∧ t.matrix = r.matrix.mul s.matrix
  /-- Composition with the inverse of a rotation is composition with its reverted rotation. -/
  exists_composeInverse : ∃ t, r.composeInverse s = .ok t ∧ r.revert.compose s = .ok t

/-- On rotations with unit quaternions the product of quaternions, the two forms of turning a
vector, the matrix and the conjugate all speak of the same rotations of space. -/
theorem forms_agree (hr : r.HasUnitNorm) (hs : s.HasUnitNorm) (v : Vec3 ℝ) : FormsAgree r s v where
  apply_eq := hr.apply_eq_matrix_apply v
  apply_eq_sandwich := Quaternion.HasUnitNorm.rotate_eq_sandwich v hr
  isSpecialOrthogonal := Quaternion.HasUnitNorm.isSpecialOrthogonal hr
  applyInverse_eq_revert := applyInverse_eq v r
  applyInverse_eq_transpose := by
    rw [applyInverse_eq, hr.revert.apply_eq_matrix_apply, matrix_revert]
  exists_compose := ⟨r.mul s, hr.compose_eq hs, hr.mul hs, Quaternion.matrix_mul _ _⟩
  exists_composeInverse := ⟨r.revert.mul s, hr.revert.compose_eq hs, hr.revert.compose_eq hs⟩

/-- A turn by an angle with the cosine -7/25 about an axis between the second and the third one. -/
noncomputable def slanted : Rotation ℝ := ⟨⟨0.6, 0, 0.64, 0.48⟩⟩

/-- The slanted turn has a unit quaternion. -/
theorem slanted_hasUnitNorm : slanted.HasUnitNorm := by
  norm_num [slanted, HasUnitNorm, Quaternion.HasUnitNorm, Quaternion.normSq]

/-- Half a turn about the second axis. -/
noncomputable def flipped : Rotation ℝ := ⟨⟨0, 0, 1, 0⟩⟩

/-- So does the half-turn. -/
theorem flipped_hasUnitNorm : flipped.HasUnitNorm := by
  norm_num [flipped, HasUnitNorm, Quaternion.HasUnitNorm, Quaternion.normSq]

/-- All three forms of these two rotations agree. -/
theorem slanted_flipped_forms_agree :
    slanted.HasUnitNorm ∧ flipped.HasUnitNorm ∧ FormsAgree slanted flipped ⟨1, -2, 3⟩ :=
  ⟨slanted_hasUnitNorm, flipped_hasUnitNorm, forms_agree slanted_hasUnitNorm flipped_hasUnitNorm _⟩

end Rotation

end FrameKinematics
