import Mathlib.Algebra.Order.Field.Power
import FrameKinematics.Proofs.Rotation.ReadingError
import FrameKinematics.Proofs.Rotation.SafeReading

/-!
# The matrices that are accepted

Over the real numbers the scaling of the rows by powers of two does not change the sign of the
determinant. So a matrix is accepted if and only if the scalar products of its rows are those of an
orthonormal basis up to the threshold, and its determinant is not negative. Such a matrix is near a
rotation, and the matrix of the quaternion that is read from it is near to it.
-/

namespace FrameKinematics

/-- Scaling by a power of two multiplies by it. -/
theorem Scalar.timesPower_real (x : ℝ) (n : ℤ) : Scalar.timesPower x n = x * 2 ^ n := by
  have hpow (k : ℕ) : (Scalar.pow 2.0 k : ℝ) = 2 ^ k := by
    rw [Scalar.two_literal]
    rfl
  unfold Scalar.timesPower
  split_ifs with hnegative
  · obtain ⟨k, rfl⟩ : ∃ k : ℕ, n = -k := ⟨n.natAbs, by omega⟩
    rw [hpow, Int.natAbs_neg, Int.natAbs_natCast, zpow_neg, zpow_natCast, div_eq_mul_inv]
  · obtain ⟨k, rfl⟩ : ∃ k : ℕ, n = k := ⟨n.natAbs, by omega⟩
    rw [hpow, Int.natAbs_natCast, zpow_natCast]

namespace Mat3

/-- The determinant is linear in each row. -/
theorem det_smul_rows (a b c : ℝ) (u v w : Vec3 ℝ) :
    det ⟨a • u, b • v, c • w⟩ = a * b * c * det ⟨u, v, w⟩ := by
  simp only [det, Vec3.smul_dot, Vec3.smul_cross, Vec3.cross_smul, Vec3.dot_smul]
  ring

/-- A shifted vector is a multiple by a power of two. -/
theorem shifted_real (u : Vec3 ℝ) (n : ℤ) : shifted u n = (2 ^ n : ℝ) • u := by
  ext <;> simp [shifted, Vec3.map, Scalar.timesPower_real, mul_comm]

/-- The powers of two that the rows are divided by are those that the determinant is multiplied
with, so it has the sign of the determinant of the matrix. -/
theorem reverses_eq (m : Mat3 ℝ) : m.reverses = decide (m.det < 0) := by
  have hrestored (x y z : ℤ) : Scalar.timesPower (Scalar.timesPower
      (det ⟨shifted m.top (-x), shifted m.middle (-y), shifted m.bottom (-z)⟩)
      ((x + y + z) / 2)) (x + y + z - (x + y + z) / 2) = m.det := by
    have htwo : (2 : ℝ) ≠ 0 := two_ne_zero
    have hexponent : -x + -y + -z + (x + y + z) / 2 + (x + y + z - (x + y + z) / 2) = 0 := by
      omega
    have hpowers : (2 : ℝ) ^ (-x) * 2 ^ (-y) * 2 ^ (-z) * 2 ^ ((x + y + z) / 2) *
        2 ^ (x + y + z - (x + y + z) / 2) = 1 := by
      rw [← zpow_add₀ htwo, ← zpow_add₀ htwo, ← zpow_add₀ htwo, ← zpow_add₀ htwo, hexponent,
        zpow_zero]
    simp only [Scalar.timesPower_real, shifted_real, det_smul_rows]
    linear_combination m.det * hpowers
  unfold reverses
  simp only [hrestored, Scalar.zero_literal]

end Mat3

namespace Rotation

/-- The deviation of a matrix is the largest error of the scalar products of its rows. -/
theorem deviation_le_iff (m : Mat3 ℝ) (ε : ℝ) : deviation m ≤ ε ↔ m.rowError.Within ε :=
  Mat3.largestEntry_le_iff m.rowError ε

/-- A matrix is accepted if and only if its rows are orthonormal up to the threshold and its
determinant is not negative. Then the rotation is the one that is read from it. -/
theorem ofMatrix_eq_ok_iff {m : Mat3 ℝ} {ε : ℝ} {r : Rotation ℝ} :
    ofMatrix m ε = .ok r ↔ (m.rowError.Within ε ∧ 0 ≤ m.det) ∧ ⟨.ofMatrix m⟩ = r := by
  rw [← deviation_le_iff]
  unfold ofMatrix
  rw [Mat3.reverses_eq]
  by_cases hnear : deviation m ≤ ε
  · by_cases hdet : 0 ≤ m.det
    · rw [if_neg (not_lt.mpr hnear), if_neg (by simpa using hdet)]
      simp [hnear, hdet, pure, Except.pure]
    · rw [if_neg (not_lt.mpr hnear), if_pos (by simpa using hdet)]
      simp [hdet]
  · rw [if_pos (not_le.mp hnear)]
    simp [hnear]

/-- The matrices that are accepted with the threshold of the library are those whose rows are
orthonormal up to 1e-10 and whose determinant is not negative. Each of them is read without an
undefined operation, as a unit quaternion whose matrix differs from it by 1e-8 at most. -/
theorem ofMatrix_accepted (m : Mat3 ℝ) :
    ((∃ r, ofMatrix m = .ok r) ↔ (m.mulTranspose m - .one).Within 1e-10 ∧ 0 ≤ m.det) ∧
      ∀ r, ofMatrix m = .ok r →
        m.IsReadSafely ∧ r.HasUnitNorm ∧ (r.matrix - m).Within 1e-8 := by
  constructor
  · constructor
    · rintro ⟨r, hr⟩
      exact (ofMatrix_eq_ok_iff.mp hr).1
    · intro haccepted
      exact ⟨_, ofMatrix_eq_ok_iff.mpr ⟨haccepted, rfl⟩⟩
  · intro r hr
    obtain ⟨⟨hrows, hdet⟩, rfl⟩ := ofMatrix_eq_ok_iff.mp hr
    have hnear : m.IsNearRotation 1e-10 := ⟨hrows, hdet, by norm_num⟩
    refine ⟨Quaternion.isReadSafely m, Quaternion.hasUnitNorm_ofMatrix m, ?_⟩
    exact hnear.ofMatrix_within.mono (by norm_num)

/-- Half a turn about the third axis, with a small shear. -/
noncomputable def sheared : Mat3 ℝ := ⟨⟨-1, 1e-11, 0⟩, ⟨0, -1, 0⟩, ⟨0, 0, 1⟩⟩

/-- A matrix that is not quite orthogonal is accepted, and read as a rotation close to it. -/
theorem sheared_accepted : sheared.mul sheared.transpose ≠ .one ∧
    ∃ r, ofMatrix sheared = .ok r ∧
      sheared.IsReadSafely ∧ r.HasUnitNorm ∧ (r.matrix - sheared).Within 1e-8 := by
  have hrows : (sheared.mulTranspose sheared - .one).Within 1e-10 := by
    constructor <;> constructor <;>
      norm_num [sheared, Mat3.mulTranspose, Mat3.apply, Mat3.one, Vec3.dot, Vec3.unitX, Vec3.unitY,
        Vec3.unitZ, abs_le]
  have hdet : 0 ≤ sheared.det := by
    norm_num [sheared, Mat3.det, Vec3.dot]
  have hshear : sheared.mul sheared.transpose ≠ .one := by
    intro hone
    have hentry := congrArg (fun m : Mat3 ℝ => m.top.y) hone
    norm_num [sheared, Mat3.mul, Mat3.mulTranspose, Mat3.transpose, Mat3.apply, Mat3.one, Vec3.dot,
      Vec3.unitX] at hentry
  obtain ⟨r, hr⟩ := (ofMatrix_accepted sheared).1.mpr ⟨hrows, hdet⟩
  exact ⟨hshear, r, hr, (ofMatrix_accepted sheared).2 r hr⟩

end Rotation

end FrameKinematics
