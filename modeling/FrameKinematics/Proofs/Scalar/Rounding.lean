import Mathlib.Algebra.Order.Floor.Ring
import Mathlib.Tactic.Linarith
import FrameKinematics.Proofs.Scalar.Real
import FrameKinematics.Calendar.TimeScale

/-!
# Whole numbers and rounding in exact arithmetic

Over the real numbers, whole numbers are scalars, every scalar has a whole part, and a duration is
rounded to the nearest microsecond, a half to the even one. Rounding keeps the order, it leaves
whole numbers as they are, and it commutes with even shifts. A second has an even number of
microseconds, so it does not matter that whole seconds are taken apart first.
-/

namespace FrameKinematics

namespace Scalar

/-- Every whole number is a real scalar. -/
theorem ofInt_real (n : Int) : (Scalar.ofInt n : Except (Fault ℝ) ℝ) = .ok (n : ℝ) := by
  have hsigned : (ofInt? n : Option ℝ) =
      some (if n < 0 then -Scalar.ofNat n.natAbs else Scalar.ofNat n.natAbs) := rfl
  have hvalue : (if n < 0 then -Scalar.ofNat n.natAbs else Scalar.ofNat n.natAbs : ℝ) = n := by
    rw [ofNat_real, Nat.cast_natAbs]
    split_ifs with hneg
    · rw [abs_of_neg hneg, Int.cast_neg, neg_neg]
    · rw [abs_of_nonneg (not_lt.mp hneg)]
  rw [ofInt, hsigned, hvalue]

/-- The whole part of a real number is its floor. -/
theorem wholePart_real (x : ℝ) : (wholePart x : Except (Fault ℝ) Int) = .ok ⌊x⌋ := rfl

/-- The whole part of a real scalar in the direction of zero. -/
theorem truncated_real (x : ℝ) :
    (truncated x : Except (Fault ℝ) Int) = .ok (if x < 0 then -⌊-x⌋ else ⌊x⌋) := by
  rw [truncated, truncate, zero_literal]
  split_ifs <;> rfl

/-- The whole number nearest to a real one; a half goes to the even neighbour. -/
noncomputable def nearestWhole (x : ℝ) : Int :=
  if Int.fract x < 0.5 then ⌊x⌋
  else if 0.5 < Int.fract x then ⌊x⌋ + 1
  else ⌊x⌋ + ⌊x⌋ % 2

/-- A real number always has a nearest whole number. -/
theorem nearest_real (x : ℝ) : (nearest x : Except (Fault ℝ) Int) = .ok (nearestWhole x) := by
  rw [nearest, wholePart_real]
  change (ofInt ⌊x⌋ >>= fun whole => _ : Except (Fault ℝ) Int) = _
  rw [ofInt_real]
  change (if x - ⌊x⌋ < (0.5 : ℝ) then _ else _) = _
  rw [nearestWhole, Int.fract]
  split_ifs <;> rfl

/-- Two halves make one. -/
theorem half_add_half : (0.5 : ℝ) + 0.5 = 1 := by norm_num

/-- Rounding moves a number by a half at most. -/
theorem abs_nearestWhole_sub_le (x : ℝ) : |(nearestWhole x : ℝ) - x| ≤ 0.5 := by
  have hhalves := half_add_half
  have hsplit := Int.floor_add_fract x
  have hnonneg := Int.fract_nonneg x
  have hlt := Int.fract_lt_one x
  rw [nearestWhole, abs_le]
  split_ifs with hbelow habove
  · constructor <;> linarith
  · push_cast
    constructor <;> linarith
  · have hrest : ⌊x⌋ % 2 = 0 ∨ ⌊x⌋ % 2 = 1 := Int.emod_two_eq_zero_or_one _
    have hmiddle : Int.fract x = 0.5 := le_antisymm (not_lt.mp habove) (not_lt.mp hbelow)
    rcases hrest with hrest | hrest
    · rw [hrest]
      push_cast
      constructor <;> linarith
    · rw [hrest]
      push_cast
      constructor <;> linarith

/-- A whole number is its own nearest whole number. -/
@[simp] theorem nearestWhole_intCast (n : Int) : nearestWhole n = n := by
  have hhalf : (0 : ℝ) < 0.5 := by norm_num
  simp [nearestWhole, hhalf]

/-- Rounding commutes with even shifts. -/
theorem nearestWhole_add_two_mul (x : ℝ) (n : Int) :
    nearestWhole (x + (2 * n : Int)) = nearestWhole x + 2 * n := by
  rw [nearestWhole, nearestWhole, Int.fract_add_intCast, Int.floor_add_intCast]
  split_ifs <;> omega

/-- Rounding keeps the order. -/
theorem nearestWhole_mono : Monotone nearestWhole := by
  intro x y hxy
  by_contra hless
  rw [not_le] at hless
  -- Otherwise both numbers are the half between the two results.
  have hhalves := half_add_half
  have hx := abs_le.mp (abs_nearestWhole_sub_le x)
  have hy := abs_le.mp (abs_nearestWhole_sub_le y)
  have hstep : (nearestWhole y : ℝ) + 1 ≤ nearestWhole x := by exact_mod_cast hless
  obtain rfl : x = y := by linarith
  exact absurd hless (lt_irrefl _)

/-- Taking whole seconds apart does not change the rounding to microseconds. -/
theorem microseconds_real (x : ℝ) :
    (microseconds x : Except (Fault ℝ) Int) = .ok (nearestWhole (x * 1000000)) := by
  rw [microseconds, microsecondsOf, truncated_real]
  generalize (if x < 0 then -⌊-x⌋ else ⌊x⌋) = whole
  change (ofInt whole >>= fun n => _ : Except (Fault ℝ) Int) = _
  rw [ofInt_real]
  change (nearest (Scalar.ofNat 1000000 * (x - whole)) >>= fun n => _ :
    Except (Fault ℝ) Int) = _
  rw [nearest_real, ofNat_real]
  have hshift := nearestWhole_add_two_mul (((1000000 : Nat) : ℝ) * (x - whole)) (whole * 500000)
  have hsum : ((1000000 : Nat) : ℝ) * (x - whole) + (2 * (whole * 500000) : Int) =
      x * 1000000 := by
    push_cast
    ring
  rw [hsum] at hshift
  rw [hshift]
  change Except.ok (whole * ((1000000 : Nat) : Int) + _) = _
  congr 1
  push_cast
  ring

end Scalar

end FrameKinematics
