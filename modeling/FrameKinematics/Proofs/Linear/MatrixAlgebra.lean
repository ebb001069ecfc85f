import FrameKinematics.Proofs.Linear.ScalarProduct
import FrameKinematics.Linear.Matrix

/-!
# The algebra of three by three matrices

Over the real numbers: the matrix of the cofactors, the trace, and the sum of the squares of the
entries. The rows of the cofactors are the vector products of the rows of a matrix, so a matrix and
its cofactors are inverse to each other up to the determinant. How far the rows of a matrix are from
orthonormal determines, up to its sign, the determinant, and how far its columns and its cofactors
are from what they are for a rotation.
-/

namespace FrameKinematics.Mat3

section Rows

variable {K : Type} [Scalar K] (a b : Mat3 K)

/-- Matrices are added row by row. -/
@[simp] theorem add_top : (a + b).top = a.top + b.top := rfl
@[simp, inherit_doc add_top] theorem add_middle : (a + b).middle = a.middle + b.middle := rfl
@[simp, inherit_doc add_top] theorem add_bottom : (a + b).bottom = a.bottom + b.bottom := rfl

/-- Matrices are subtracted row by row. -/
@[simp] theorem sub_top : (a - b).top = a.top - b.top := rfl
@[simp, inherit_doc sub_top] theorem sub_middle : (a - b).middle = a.middle - b.middle := rfl
@[simp, inherit_doc sub_top] theorem sub_bottom : (a - b).bottom = a.bottom - b.bottom := rfl

end Rows

noncomputable instance : SMul ℝ (Mat3 ℝ) :=
  ⟨fun s a => ⟨s • a.top, s • a.middle, s • a.bottom⟩⟩

/-- A multiple of a matrix has the multiples of its rows. -/
@[simp] theorem smul_top (s : ℝ) (a : Mat3 ℝ) : (s • a).top = s • a.top := rfl
@[simp, inherit_doc smul_top]
theorem smul_middle (s : ℝ) (a : Mat3 ℝ) : (s • a).middle = s • a.middle := rfl
@[simp, inherit_doc smul_top]
theorem smul_bottom (s : ℝ) (a : Mat3 ℝ) : (s • a).bottom = s • a.bottom := rfl

/-- The sum of the diagonal entries. -/
noncomputable def trace (a : Mat3 ℝ) : ℝ := a.top.x + a.middle.y + a.bottom.z

/-- The matrix of the cofactors. -/
noncomputable def cofactors (a : Mat3 ℝ) : Mat3 ℝ :=
  ⟨a.middle.cross a.bottom, a.bottom.cross a.top, a.top.cross a.middle⟩

/-- The sum of the squares of the entries. -/
noncomputable def normSq (a : Mat3 ℝ) : ℝ :=
  a.top.dot a.top + a.middle.dot a.middle + a.bottom.dot a.bottom

variable (a m : Mat3 ℝ)

/-- How far the rows of a matrix are from orthonormal. -/
noncomputable def rowError : Mat3 ℝ := m.mulTranspose m - one

/-- How far the columns of a matrix are from orthonormal. -/
noncomputable def columnError : Mat3 ℝ := m.transpose.mulTranspose m.transpose - one

/-- How far the cofactors of a matrix are from the matrix. -/
noncomputable def cofactorError : Mat3 ℝ := m.cofactors - m

variable (b c : Mat3 ℝ) (s : ℝ)

/-- Products are linear on the left. -/
theorem sub_mul_eq : (a - b).mul c = a.mul c - b.mul c := by
  ext <;> simp only [mul, mulTranspose, apply, sub_top, sub_middle, sub_bottom, Vec3.dot_sub,
    Vec3.sub_x, Vec3.sub_y, Vec3.sub_z]

@[inherit_doc sub_mul_eq]
theorem smul_mul_eq : (s • a).mul b = s • a.mul b := by
  ext <;> simp only [mul, mulTranspose, apply, smul_top, smul_middle, smul_bottom, Vec3.dot_smul,
    Vec3.smul_x, Vec3.smul_y, Vec3.smul_z]

/-- The distance to a matrix after a division is the distance to a multiple before. -/
theorem inv_smul_sub {s : ℝ} (hs : s ≠ 0) : s⁻¹ • a - b = s⁻¹ • (a - s • b) := by
  have hentry (x y : ℝ) : s⁻¹ * x - y = s⁻¹ * (x - s * y) := by
    rw [mul_sub, inv_mul_cancel_left₀ hs]
  ext <;> exact hentry _ _

/-- The determinant of a product is the product of the determinants. -/
theorem det_mul : (a.mul b).det = a.det * b.det := by
  simp only [det, mul, mulTranspose, apply, transpose, Vec3.dot, Vec3.cross_x, Vec3.cross_y,
    Vec3.cross_z]
  ring

/-- The determinant near the identity. -/
theorem det_add_one : (a + one).det = 1 + a.trace + a.cofactors.trace + a.det := by
  simp [det, trace, cofactors, one, Vec3.dot, Vec3.unitX, Vec3.unitY, Vec3.unitZ]
  ring

/-- The determinant of the scalar products of the rows is the square of the determinant. -/
theorem det_mulTranspose_self : (m.mulTranspose m).det = m.det ^ 2 := by
  simp [det, mulTranspose, apply, Vec3.dot]
  ring

/-- The square of the determinant deviates from one by the invariants of the deviation of the rows
from orthonormal ones. -/
theorem det_sq_eq :
    m.det ^ 2 = 1 + m.rowError.trace + m.rowError.cofactors.trace + m.rowError.det := by
  have hback : m.rowError + one = m.mulTranspose m := by
    ext <;> simp [rowError]
  rw [← det_mulTranspose_self, ← hback, det_add_one]

/-- The squares of all entries sum up to three and the trace of that deviation. -/
theorem normSq_eq : m.normSq = 3 + m.rowError.trace := by
  simp [normSq, rowError, trace, mulTranspose, apply, one, Vec3.unitX, Vec3.unitY, Vec3.unitZ]
  ring

/-- The columns of a matrix are as far from orthonormal as its rows. -/
theorem normSq_columnError : m.columnError.normSq = m.rowError.normSq := by
  simp [normSq, rowError, columnError, mulTranspose, apply, transpose, one, Vec3.dot, Vec3.unitX,
    Vec3.unitY, Vec3.unitZ]
  ring

/-- The distance of the cofactors of a matrix from the matrix depends on the scalar products of the
rows and the determinant only. -/
theorem normSq_cofactorError :
    m.cofactorError.normSq =
      6 + 3 * m.rowError.trace + m.rowError.cofactors.trace - 6 * m.det := by
  simp [normSq, rowError, cofactorError, cofactors, trace, det, mulTranspose, apply, one, Vec3.dot,
    Vec3.unitX, Vec3.unitY, Vec3.unitZ]
  ring

end FrameKinematics.Mat3
