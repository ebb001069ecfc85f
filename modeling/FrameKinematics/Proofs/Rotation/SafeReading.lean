import FrameKinematics.Proofs.Rotation.MatrixReading
import FrameKinematics.Proofs.Scalar.Checked

/-!
# Matrices are read safely

A matrix of real numbers is also one of scalars that notice undefined operations. The quaternion
that the library reads from it is the same over both, so whichever way is taken through the
comparisons of its diagonal entries, every square root is one of a positive number and every divisor
is other than zero. That needs nothing of the matrix.
-/

namespace FrameKinematics

/-- Applies a function to each entry. -/
def Mat3.map {K L : Type} (f : K → L) (a : Mat3 K) : Mat3 L :=
  ⟨a.top.map f, a.middle.map f, a.bottom.map f⟩

/-- Applies a function to each component. -/
def Quaternion.map {K L : Type} (f : K → L) (q : Quaternion K) : Quaternion L :=
  ⟨f q.w, f q.x, f q.y, f q.z⟩

/-- Reading a quaternion from a matrix meets no undefined operation: no square root of a number that
is not positive, and no division by zero. -/
def Mat3.IsReadSafely (m : Mat3 ℝ) : Prop :=
  Quaternion.ofMatrix (m.map Checked.value) = (Quaternion.ofMatrix m).map Checked.value

namespace Quaternion

open Checked

/-- The way that the diagonal entries choose leads through defined operations only. -/
theorem checked_rawOfMatrix (m : Mat3 ℝ) :
    rawOfMatrix (m.map value) = (rawOfMatrix m).map value := by
  have hpositive := radicand_pivot_pos m
  unfold pivot at hpositive
  simp only [rawOfMatrix, Mat3.map, Vec3.map, ofScientific_eq, value_add, value_sub,
    value_lt_value, Scalar.zero_literal]
  split_ifs at hpositive ⊢
  · rw [radicand_neutral] at hpositive
    have hroot := Real.sqrt_pos.mpr hpositive
    have hscale : (0.5 : ℝ) / √(m.top.x + m.middle.y + m.bottom.z + 1.0) ≠ 0 := by
      positivity
    rw [sqrt_value hpositive, value_div 0.5 hroot.ne', value_div 0.25 hscale]
    rfl
  · rw [radicand_first] at hpositive
    have hdivisor := twice_root_ne_zero hpositive
    simp only [sqrt_value hpositive, value_mul, value_div _ hdivisor]
    rfl
  · rw [radicand_second] at hpositive
    have hdivisor := twice_root_ne_zero hpositive
    simp only [sqrt_value hpositive, value_mul, value_div _ hdivisor]
    rfl
  · rw [radicand_third] at hpositive
    have hdivisor := twice_root_ne_zero hpositive
    simp only [sqrt_value hpositive, value_mul, value_div _ hdivisor]
    rfl

/-- Normalising a quaternion that is not zero divides by no zero. -/
theorem checked_normalize {q : Quaternion ℝ} (hq : 0 < q.normSq) :
    (q.map value).normalize = q.normalize.map value := by
  have hroot := (Real.sqrt_pos.mpr hq).ne'
  have hnorm : Scalar.sqrt (q.map value).normSq = value √q.normSq := sqrt_value hq
  have hdefined : (value √q.normSq == (0.0 : Checked)) = false := by
    rw [ofScientific_eq, value_beq_value, Scalar.zero_literal]
    exact decide_eq_false hroot
  have hreal : (Scalar.sqrt q.normSq == (0.0 : ℝ)) = false := by
    simp [hroot]
  simp only [normalize, hnorm, hdefined, hreal, Bool.false_eq_true, if_false]
  simp only [map, value_div _ hroot, Scalar.sqrt_real]

/-- A quaternion is read from any matrix without an undefined operation. -/
theorem isReadSafely (m : Mat3 ℝ) : m.IsReadSafely := by
  have hnorm := normSq_rawOfMatrix_pos m
  have hopposite : 0 < (-rawOfMatrix m).normSq := by rwa [normSq_neg]
  unfold Mat3.IsReadSafely ofMatrix
  rw [checked_rawOfMatrix]
  dsimp only [map]
  rw [ofScientific_eq, Scalar.zero_literal]
  simp only [value_lt_value]
  split_ifs with hnegative
  · exact checked_normalize hopposite
  · exact checked_normalize hnorm

end Quaternion

end FrameKinematics
