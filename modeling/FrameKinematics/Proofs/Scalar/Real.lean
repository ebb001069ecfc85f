import Mathlib.Analysis.SpecialFunctions.Complex.Arg
import Mathlib.Analysis.SpecialFunctions.Trigonometric.Basic
import FrameKinematics.Scalar

/-!
# The real numbers as scalars

The formulas of the library in exact arithmetic. Here every operation of `Scalar` is the one of
the real numbers, so facts about rings and fields apply to the formulas as they stand.
-/

namespace FrameKinematics

/-- The real numbers, where every scalar has a whole part. -/
noncomputable instance : Scalar ℝ where
  toBEq := instBEqOfDecidableEq
  decidableLT := inferInstance
  decidableLE := inferInstance
  sqrt := Real.sqrt
  sin := Real.sin
  cos := Real.cos
  atan2 y x := Complex.arg ⟨x, y⟩
  pi := Real.pi
  pow x n := x ^ n
  rem x y := x - y * (if 0 ≤ x / y then (⌊x / y⌋ : ℝ) else (⌈x / y⌉ : ℝ))
  floor x := .ok ⌊x⌋

namespace Scalar

/-- The square root of a real scalar. -/
@[simp] theorem sqrt_real (x : ℝ) : Scalar.sqrt x = √x := rfl

/-- The literals that the formulas use stand for themselves. -/
@[simp] theorem zero_literal : (0.0 : ℝ) = 0 := by norm_num

@[simp, inherit_doc zero_literal] theorem one_literal : (1.0 : ℝ) = 1 := by norm_num

@[simp, inherit_doc zero_literal] theorem two_literal : (2.0 : ℝ) = 2 := by norm_num

/-- The literal of one half is one half. -/
theorem half_literal : (0.5 : ℝ) = 1 / 2 := by norm_num

/-- Whole numbers are themselves as reals. -/
theorem ofNat_real (n : Nat) : (Scalar.ofNat n : ℝ) = n := by
  change ((Rat.ofScientific n false 0 : ℚ) : ℝ) = n
  simp [Rat.ofScientific_false_def]

/-- The absolute value of scalars is the one of the reals. -/
theorem abs_real (x : ℝ) : Scalar.abs x = |x| := by
  rw [Scalar.abs, zero_literal, zero_sub]
  split_ifs with hsign
  · rw [abs_of_nonpos hsign]
  · rw [abs_of_pos (not_le.mp hsign)]

/-- The larger of two real scalars is their maximum. -/
theorem larger_real (x y : ℝ) : larger x y = max x y := by
  unfold larger
  split_ifs with hle hself
  · rw [max_eq_left hle]
  · rw [max_eq_right (not_le.mp hle).le]
  · simp at hself

end Scalar

end FrameKinematics
