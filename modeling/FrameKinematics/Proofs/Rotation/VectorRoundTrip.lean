import Mathlib.Analysis.Real.Pi.Bounds
import FrameKinematics.Proofs.Motion.SteadyRotation
import FrameKinematics.Proofs.Rotation.Opposite

/-!
# Rotations and their vectors

The rotation about a vector turns by its length, so a vector shorter than half a turn is found again
from its rotation. The other way round the vector of a rotation is its axis, scaled by its angle.
Both are taken from the quaternion whose scalar part is not negative, and the cosine and the sine of
half the angle are the parts of this quaternion, so it is the one that the vector gives back. For the
identity, which has no axis, and for half-turns, which have two, nothing is different.
-/

namespace FrameKinematics.Rotation

/-- The rotation about a vector is the turn of a frame at the opposite rate for a unit of time. -/
theorem ofVector_eq (v : Vec3 ℝ) : ofVector v = .ok (swing (-v) 1) := by
  rw [ofVector, Scalar.zero_literal]
  by_cases hv : v = 0
  · refine (if_pos (beq_iff_eq.mpr (Vec3.norm_eq_zero.mpr hv))).trans ?_
    rw [hv, neg_zero, zero_swing]
    rfl
  · have hnorm : ¬(v.norm == 0) = true := by rwa [beq_iff_eq, Vec3.norm_eq_zero]
    rw [if_neg hnorm, ofAxisAngle, Scalar.zero_literal]
    refine (if_neg hnorm).trans (congrArg Except.ok (ext_parts ?_ ?_))
    · rw [swing_w, Vec3.norm_neg, mul_one]
      rfl
    · rw [swing_vector, Vec3.norm_neg, mul_one, neg_smul_neg]
      rfl

variable {r : Rotation ℝ}

/-- The vector of a rotation is as long as its angle. -/
theorem norm_toVector (r : Rotation ℝ) : r.toVector.norm = r.angle := by
  rw [toVector, Vec3.norm_smul, r.norm_axis, mul_one, abs_of_nonneg r.angle_mem_Icc.1]

/-- The vector part of the chosen quaternion points along the axis. -/
theorem norm_vector_smul_axis (r : Rotation ℝ) :
    r.quaternion.vector.norm • r.axis =
      (if 0 ≤ r.quaternion.w then 1 else -1 : ℝ) • r.quaternion.vector := by
  by_cases h : r.quaternion.vector = 0
  · rw [h, Vec3.norm_zero, zero_smul, smul_zero]
  · rw [axis_eq h, smul_smul, mul_div_cancel₀ _ (mt Vec3.norm_eq_zero.mp h)]

/-- The quaternion that is made of the vector of a rotation has the absolute value of the scalar part
as its scalar part, and the vector part along the axis. -/
theorem HasUnitNorm.swing_neg_toVector (hr : r.HasUnitNorm) :
    (swing (-r.toVector) 1).quaternion.w = |r.quaternion.w| ∧
      (swing (-r.toVector) 1).quaternion.vector = r.quaternion.vector.norm • r.axis := by
  obtain ⟨hcos, hsin⟩ := hr.half_angle
  -- Without an angle the quotient is zero, and so is the sine.
  have hcancel : Real.sin (0.5 * r.angle) / r.angle * r.angle = Real.sin (0.5 * r.angle) := by
    refine div_mul_cancel_of_imp fun hangle => ?_
    rw [hangle, mul_zero, Real.sin_zero]
  constructor
  · rw [swing_w, Vec3.norm_neg, norm_toVector, mul_one, hcos]
  · rw [swing_vector, Vec3.norm_neg, norm_toVector, mul_one, neg_smul_neg, toVector, smul_smul,
      hcancel, hsin]

/-- The rotation about the vector of a rotation is the same rotation. -/
theorem HasUnitNorm.swing_neg_toVector_same (hr : r.HasUnitNorm) :
    (swing (-r.toVector) 1).same r = true := by
  obtain ⟨hscalar, hvector⟩ := hr.swing_neg_toVector
  rw [norm_vector_smul_axis] at hvector
  rw [same_iff_eq_or_eq_opposite]
  split_ifs at hvector with hsign
  · rw [abs_of_nonneg hsign] at hscalar
    rw [one_smul] at hvector
    exact .inl (ext_parts hscalar hvector)
  · rw [abs_of_neg (not_le.mp hsign)] at hscalar
    rw [neg_one_smul] at hvector
    exact .inr (ext_parts hscalar hvector)

/-- A vector shorter than half a turn is the vector of its rotation. The angle of a rotation is at
most half a turn, and the rotation about its vector is the same rotation. -/
theorem vector_roundTrip :
    (∀ v : Vec3 ℝ, v.norm < Real.pi →
      ∃ r, ofVector v = .ok r ∧ r.HasUnitNorm ∧ r.toVector = v) ∧
    ∀ r : Rotation ℝ, r.HasUnitNorm →
      r.angle ∈ Set.Icc 0 Real.pi ∧ ∃ s, ofVector r.toVector = .ok s ∧ s.same r = true := by
  constructor
  · intro v hless
    refine ⟨_, ofVector_eq v, hasUnitNorm_swing _ _, ?_⟩
    rw [← Vec3.norm_neg, ← mul_one (-v).norm, ← abs_one] at hless
    rw [toVector_swing hless, one_smul, neg_neg]
  · intro r hr
    exact ⟨r.angle_mem_Icc, _, ofVector_eq _, hr.swing_neg_toVector_same⟩

/-- A vector of the length three. -/
noncomputable def nearHalfTurn : Vec3 ℝ := ⟨2.0, -1.0, 2.0⟩

/-- This vector is shorter than half a turn. -/
theorem nearHalfTurn_norm_lt_pi : nearHalfTurn.norm < Real.pi := by
  have hlength : nearHalfTurn.norm = 3 := by
    rw [nearHalfTurn, Vec3.norm_eq, Real.sqrt_eq_iff_mul_self_eq (by norm_num) (by norm_num)]
    norm_num
  rw [hlength]
  exact Real.pi_gt_three

/-- A vector that is nearly as long as half a turn, a rotation whose scalar part is negative, and a
half-turn. -/
theorem nearHalfTurn_slanted_flipped_roundTrip :
    (nearHalfTurn.norm < Real.pi ∧
      ∃ r, ofVector nearHalfTurn = .ok r ∧ r.HasUnitNorm ∧ r.toVector = nearHalfTurn) ∧
    (slanted.opposite.HasUnitNorm ∧ slanted.opposite.angle ∈ Set.Icc 0 Real.pi ∧
      ∃ s, ofVector slanted.opposite.toVector = .ok s ∧ s.same slanted.opposite = true) ∧
    (flipped.HasUnitNorm ∧ flipped.angle ∈ Set.Icc 0 Real.pi ∧
      ∃ s, ofVector flipped.toVector = .ok s ∧ s.same flipped = true) := by
  have hslanted := slanted_hasUnitNorm.opposite
  exact ⟨⟨nearHalfTurn_norm_lt_pi, vector_roundTrip.1 _ nearHalfTurn_norm_lt_pi⟩,
    ⟨hslanted, vector_roundTrip.2 _ hslanted⟩,
    flipped_hasUnitNorm, vector_roundTrip.2 _ flipped_hasUnitNorm⟩

end FrameKinematics.Rotation
