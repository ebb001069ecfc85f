import Mathlib.Algebra.Order.ToIntervalMod
import Mathlib.Tactic.Linarith
import FrameKinematics.Proofs.Scalar.Real

/-!
# Remainders in exact arithmetic

A truncating remainder differs from the dividend by a multiple of the divisor, and it is smaller
than the divisor. If it is negative, a positive divisor is added to it, which gives the
representative of the dividend between zero and the divisor.
-/

namespace FrameKinematics.Scalar

variable {x y : ℝ}

/-- The quotient of two real scalars, truncated toward zero. -/
noncomputable def truncatedQuotient (x y : ℝ) : ℤ :=
  if 0 ≤ x / y then ⌊x / y⌋ else ⌈x / y⌉

/-- The truncated quotient is less than one away from the quotient. -/
theorem abs_div_sub_truncatedQuotient_lt (x y : ℝ) : |x / y - truncatedQuotient x y| < 1 := by
  unfold truncatedQuotient
  split_ifs
  · rw [Int.self_sub_floor, Int.abs_fract]
    exact Int.fract_lt_one _
  · rw [abs_sub_comm, abs_of_nonneg (sub_nonneg.mpr (Int.le_ceil _))]
    linarith [Int.ceil_lt_add_one (x / y)]

/-- A remainder is what a multiple of the divisor leaves of the dividend. -/
theorem rem_real (x y : ℝ) : Scalar.rem x y = x - truncatedQuotient x y * y := by
  change x - y * (if 0 ≤ x / y then (⌊x / y⌋ : ℝ) else (⌈x / y⌉ : ℝ)) = _
  rw [truncatedQuotient, Int.cast_ite, mul_comm]

/-- A remainder is smaller than a positive divisor. -/
theorem abs_rem_lt (hy : 0 < y) (x : ℝ) : |Scalar.rem x y| < y := by
  have hrem : Scalar.rem x y = (x / y - truncatedQuotient x y) * y := by
    rw [rem_real, sub_mul, div_mul_cancel₀ x hy.ne']
  rw [hrem, abs_mul, abs_of_pos hy]
  exact mul_lt_of_lt_one_left hy (abs_div_sub_truncatedQuotient_lt x y)

/-- The remainder with the sign of a positive divisor is the representative of the dividend between
zero and the divisor. -/
theorem modulo_real (hy : 0 < y) (x : ℝ) : modulo x y = toIcoMod hy 0 x := by
  obtain ⟨hlower, hupper⟩ := abs_lt.mp (abs_rem_lt hy x)
  have hrem := rem_real x y
  rw [eq_comm, toIcoMod_eq_iff, zero_add, modulo, zero_literal, decide_eq_false hy.not_gt]
  simp only [zsmul_eq_mul]
  split_ifs with hzero hsign
  · rw [beq_iff_eq] at hzero
    exact ⟨Set.left_mem_Ico.mpr hy, truncatedQuotient x y, by linarith⟩
  · have hnonneg : 0 ≤ Scalar.rem x y := by simpa using hsign
    exact ⟨⟨hnonneg, hupper⟩, truncatedQuotient x y, by linarith⟩
  · have hneg : Scalar.rem x y < 0 := by simpa using hsign
    refine ⟨⟨by linarith, by linarith⟩, truncatedQuotient x y - 1, ?_⟩
    push_cast
    linarith

end FrameKinematics.Scalar
