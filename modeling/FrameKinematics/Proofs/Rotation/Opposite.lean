import FrameKinematics.Proofs.Rotation.MatrixForm
import FrameKinematics.Proofs.Rotation.RotationVector

/-!
# Opposite quaternions

Two rotations are the same if their quaternions are equal or opposite. A product of quaternions
changes its sign with each of the factors, and the matrix and the image of a vector are of even
degree, so opposite quaternions act and compose alike. For the axis one of the two is chosen, the one
whose scalar part is not negative. Of a half-turn that are both, so there the axis changes its
direction with the quaternion, and so does the vector of the rotation.
-/

namespace FrameKinematics

namespace Quaternion

variable (p q : Quaternion ℝ)

/-- The opposite of the opposite quaternion is the quaternion. -/
theorem neg_neg_eq : -(-q) = q := by
  ext <;> exact neg_neg _

/-- A product changes its sign with each of the factors. -/
theorem neg_mul_eq : (-p).mul q = -p.mul q := by
  ext <;> simp [mul] <;> ring

@[inherit_doc neg_mul_eq] theorem mul_neg_eq : p.mul (-q) = -p.mul q := by
  ext <;> simp [mul] <;> ring

/-- The conjugate of the opposite is the opposite of the conjugate. -/
theorem conjugate_neg : (-q).conjugate = -q.conjugate :=
  rfl

/-- The entries of the matrix are of degree two. -/
theorem matrix_neg : (-q).matrix = q.matrix := by
  ext <;> simp [matrix]

/-- The image of a vector is of even degree. -/
theorem neg_rotate (v : Vec3 ℝ) : (-q).rotate v = q.rotate v := by
  ext <;> simp [rotate]

end Quaternion

namespace Rotation

section Signs

variable (r s : Rotation ℝ)

/-- The rotation with the opposite quaternion. -/
noncomputable def opposite (r : Rotation ℝ) : Rotation ℝ := ⟨-r.quaternion⟩

/-- The opposite quaternion has the opposite scalar part. -/
@[simp] theorem opposite_w : r.opposite.quaternion.w = -r.quaternion.w := rfl

/-- The opposite quaternion has the opposite vector part. -/
@[simp] theorem opposite_vector : r.opposite.quaternion.vector = -r.quaternion.vector := rfl

/-- The opposite of the opposite is the rotation itself. -/
@[simp] theorem opposite_opposite : r.opposite.opposite = r :=
  congrArg Rotation.mk (Quaternion.neg_neg_eq r.quaternion)

/-- An opposite first factor gives the opposite product. -/
@[simp] theorem opposite_mul : r.opposite.mul s = (r.mul s).opposite :=
  congrArg Rotation.mk (Quaternion.neg_mul_eq r.quaternion s.quaternion)

/-- An opposite second factor gives the opposite product. -/
@[simp] theorem mul_opposite : r.mul s.opposite = (r.mul s).opposite :=
  congrArg Rotation.mk (Quaternion.mul_neg_eq r.quaternion s.quaternion)

/-- The inverse of the opposite is the opposite of the inverse. -/
@[simp] theorem opposite_revert : r.opposite.revert = r.revert.opposite :=
  congrArg Rotation.mk (Quaternion.conjugate_neg r.quaternion)

/-- Opposite quaternions have the same matrix. -/
theorem opposite_matrix : r.opposite.matrix = r.matrix :=
  Quaternion.matrix_neg r.quaternion

/-- Opposite quaternions turn vectors alike. -/
theorem opposite_apply (v : Vec3 ℝ) : r.opposite.apply v = r.apply v :=
  Quaternion.neg_rotate r.quaternion v

/-- Opposite quaternions have the same angle. -/
theorem opposite_angle : r.opposite.angle = r.angle := by
  rw [angle_eq, angle_eq, opposite_w, opposite_vector, abs_neg, Vec3.norm_neg]

variable {r s}

/-- The opposite of a unit quaternion is one. -/
theorem HasUnitNorm.opposite (hr : r.HasUnitNorm) : r.opposite.HasUnitNorm :=
  (Quaternion.normSq_neg r.quaternion).trans hr

/-- A rotation is the same as itself and as its opposite, and as no other one. -/
theorem same_iff_eq_or_eq_opposite : r.same s = true ↔ r = s ∨ r = s.opposite := by
  rw [same_iff, Rotation.ext_iff, Rotation.ext_iff]
  rfl

/-- A rotation is the same as itself. -/
theorem same_self (r : Rotation ℝ) : r.same r = true :=
  same_iff_eq_or_eq_opposite.mpr (.inl rfl)

/-- A rotation is the same as its opposite. -/
theorem same_opposite (r : Rotation ℝ) : r.same r.opposite = true :=
  same_iff_eq_or_eq_opposite.mpr (.inr r.opposite_opposite.symm)

/-- What is the same as a unit quaternion is one. -/
theorem HasUnitNorm.of_same (hr : r.HasUnitNorm) (hsame : r.same s = true) : s.HasUnitNorm := by
  rcases same_iff_eq_or_eq_opposite.mp hsame with rfl | rfl
  · exact hr
  · simpa using hr.opposite

/-- Inverses and products of the same rotations are the same. -/
theorem revert_same (hsame : r.same s = true) : r.revert.same s.revert = true := by
  rw [same_iff_eq_or_eq_opposite] at hsame ⊢
  rcases hsame with rfl | rfl
  · exact .inl rfl
  · exact .inr s.opposite_revert

@[inherit_doc revert_same]
theorem mul_same {t u : Rotation ℝ} (hsame : r.same s = true) (hsame' : t.same u = true) :
    (r.mul t).same (s.mul u) = true := by
  rw [same_iff_eq_or_eq_opposite] at hsame hsame' ⊢
  rcases hsame with rfl | rfl <;> rcases hsame' with rfl | rfl <;> simp

end Signs

section Axis

variable {r : Rotation ℝ}

/-- For a rotation that turns nothing the first axis stands. -/
theorem axis_of_vector_eq_zero (h : r.quaternion.vector = 0) : r.axis = .unitX := by
  have hnorm (q : Quaternion ℝ) (hq : q.vector = 0) : (q.vector.norm == 0.0) = true := by
    rw [hq, Vec3.norm_zero, Scalar.zero_literal, beq_iff_eq]
  have hchosen : (if (0.0 : ℝ) ≤ r.quaternion.w then r.quaternion else -r.quaternion).vector = 0 := by
    split_ifs
    · exact h
    · rw [Quaternion.vector_neg, h, neg_zero]
  exact if_pos (hnorm _ hchosen)

/-- The axis is a unit vector. -/
theorem norm_axis (r : Rotation ℝ) : r.axis.norm = 1 := by
  by_cases h : r.quaternion.vector = 0
  · rw [axis_of_vector_eq_zero h]
    exact Vec3.norm_of_dot_self (by simp [Vec3.unitX, Vec3.dot])
  · have hnorm : r.quaternion.vector.norm ≠ 0 := mt Vec3.norm_eq_zero.mp h
    have hsign : |if 0 ≤ r.quaternion.w then (1 : ℝ) else -1| = 1 := by
      split_ifs <;> simp
    rw [axis_eq h, Vec3.norm_smul, abs_div, hsign, abs_of_nonneg (Vec3.norm_nonneg _),
      one_div_mul_cancel hnorm]

/-- Unless the scalar part is zero, it tells which of the two quaternions is chosen. -/
theorem opposite_axis (hw : r.quaternion.w ≠ 0) : r.opposite.axis = r.axis := by
  by_cases h : r.quaternion.vector = 0
  · have h' : r.opposite.quaternion.vector = 0 := by rw [opposite_vector, h, neg_zero]
    rw [axis_of_vector_eq_zero h, axis_of_vector_eq_zero h']
  · have h' : r.opposite.quaternion.vector ≠ 0 := by rwa [opposite_vector, neg_ne_zero]
    rw [axis_eq h, axis_eq h', opposite_w, opposite_vector, Vec3.norm_neg]
    rcases lt_or_gt_of_ne hw with hneg | hpos
    · rw [if_pos (neg_nonneg.mpr hneg.le), if_neg hneg.not_ge, neg_div, neg_smul, smul_neg]
    · rw [if_neg (by linarith), if_pos hpos.le, neg_div, neg_smul_neg]

/-- Of a half-turn either quaternion is taken as it is. -/
theorem HasUnitNorm.opposite_axis_of_halfTurn (hr : r.HasUnitNorm) (hw : r.quaternion.w = 0) :
    r.opposite.axis = -r.axis := by
  have h : r.quaternion.vector ≠ 0 := by
    intro hzero
    obtain ⟨hx, hy, hz⟩ := Vec3.mk.inj hzero
    simp [HasUnitNorm, Quaternion.HasUnitNorm, Quaternion.normSq, hw, hx, hy, hz] at hr
  have h' : r.opposite.quaternion.vector ≠ 0 := by rwa [opposite_vector, neg_ne_zero]
  rw [axis_eq h, axis_eq h', opposite_w, opposite_vector, Vec3.norm_neg, hw, neg_zero, smul_neg]

/-- The rotations without a scalar part are the half-turns. -/
theorem HasUnitNorm.angle_of_halfTurn (hr : r.HasUnitNorm) (hw : r.quaternion.w = 0) :
    r.angle = Real.pi := by
  obtain ⟨hnonneg, hle⟩ := r.angle_mem_Icc
  have hcos : Real.cos (0.5 * r.angle) = Real.cos (Real.pi / 2) := by
    rw [hr.half_angle.1, hw, abs_zero, Real.cos_pi_div_two]
  have hhalf := Real.injOn_cos ⟨by linarith, by linarith⟩ ⟨by linarith, by linarith⟩ hcos
  linarith

end Axis

section Same

variable {r s : Rotation ℝ}

/-- Rotations that are the same have the same matrix. -/
theorem matrix_of_same (hsame : r.same s = true) : r.matrix = s.matrix := by
  rcases same_iff_eq_or_eq_opposite.mp hsame with rfl | rfl
  · rfl
  · exact s.opposite_matrix

/-- Rotations that are the same turn vectors alike. -/
theorem apply_of_same (hsame : r.same s = true) (v : Vec3 ℝ) : r.apply v = s.apply v := by
  rcases same_iff_eq_or_eq_opposite.mp hsame with rfl | rfl
  · rfl
  · exact s.opposite_apply v

/-- Rotations that are the same have the same angle. -/
theorem angle_of_same (hsame : r.same s = true) : r.angle = s.angle := by
  rcases same_iff_eq_or_eq_opposite.mp hsame with rfl | rfl
  · rfl
  · exact s.opposite_angle

/-- Rotations that are the same have the same axis, unless they are half-turns. -/
theorem axis_of_same (hsame : r.same s = true) (hw : r.quaternion.w ≠ 0) : r.axis = s.axis := by
  rcases same_iff_eq_or_eq_opposite.mp hsame with rfl | rfl
  · rfl
  · exact opposite_axis (neg_ne_zero.mp hw)

/-- Half-turns that are the same but differ have opposite axes. -/
theorem HasUnitNorm.axis_of_halfTurns (hr : r.HasUnitNorm) (hsame : r.same s = true)
    (hw : r.quaternion.w = 0) (hne : r ≠ s) : r.axis = -s.axis := by
  rcases same_iff_eq_or_eq_opposite.mp hsame with rfl | rfl
  · exact absurd rfl hne
  · exact (hr.of_same hsame).opposite_axis_of_halfTurn (neg_eq_zero.mp hw)

/-- The axes of the same rotation are equal, unless a half-turn has changed its quaternion. -/
theorem HasUnitNorm.axis_eq_iff (hr : r.HasUnitNorm) (hsame : r.same s = true) :
    r.axis = s.axis ↔ (r.quaternion.w = 0 → r = s) := by
  constructor
  · intro haxis hw
    by_contra hne
    have hunit : s.axis.dot s.axis = 1 := by rw [← Vec3.norm_sq, norm_axis, one_pow]
    rw [hr.axis_of_halfTurns hsame hw hne] at haxis
    have hreversed := congrArg s.axis.dot haxis
    rw [Vec3.dot_neg, hunit] at hreversed
    norm_num at hreversed
  · intro hequal
    by_cases hw : r.quaternion.w = 0
    · rw [hequal hw]
    · exact axis_of_same hsame hw

@[inherit_doc HasUnitNorm.axis_eq_iff]
theorem HasUnitNorm.toVector_eq_iff (hr : r.HasUnitNorm) (hsame : r.same s = true) :
    r.toVector = s.toVector ↔ (r.quaternion.w = 0 → r = s) := by
  constructor
  · intro hvector hw
    rw [toVector, toVector, ← angle_of_same hsame, hr.angle_of_halfTurn hw] at hvector
    have haxis := smul_right_injective (Vec3 ℝ) Real.pi_ne_zero hvector
    exact (hr.axis_eq_iff hsame).mp haxis hw
  · intro hequal
    rw [toVector, toVector, angle_of_same hsame, (hr.axis_eq_iff hsame).mpr hequal]

/-- One rotation does what another one does, and composes as it does. Only half-turns show, by their
axes and their vectors, which of the two quaternions they have. -/
structure ActsAs (r s : Rotation ℝ) : Prop where
  matrix_eq : r.matrix = s.matrix
  apply_eq : ∀ v, r.apply v = s.apply v
  applyInverse_eq : ∀ v, r.applyInverse v = s.applyInverse v
  angle_eq : r.angle = s.angle
  axisIn_eq_iff : ∀ convention,
    r.axisIn convention = s.axisIn convention ↔ (r.quaternion.w = 0 → r = s)
  toVector_eq_iff : r.toVector = s.toVector ↔ (r.quaternion.w = 0 → r = s)
  /-- Half-turns with opposite quaternions have opposite axes and opposite vectors. -/
  of_halfTurns : r.quaternion.w = 0 → r ≠ s → r.axis = -s.axis ∧ r.toVector = -s.toVector
  revert_same : r.revert.same s.revert = true
  /-- Compositions with the same rotations exist and are the same. -/
  exists_compose : ∀ t u : Rotation ℝ, t.HasUnitNorm → t.same u = true →
    ∃ a b, r.compose t = .ok a ∧ s.compose u = .ok b ∧ a.same b = true
  exists_composeInverse : ∀ t u : Rotation ℝ, t.HasUnitNorm → t.same u = true →
    ∃ a b, r.composeInverse t = .ok a ∧ s.composeInverse u = .ok b ∧ a.same b = true

/-- Rotations with unit quaternions that are the same act as each other. -/
theorem actsAs_of_same (hr : r.HasUnitNorm) (hsame : r.same s = true) : r.ActsAs s where
  matrix_eq := matrix_of_same hsame
  apply_eq := apply_of_same hsame
  applyInverse_eq := apply_of_same (Rotation.revert_same hsame)
  angle_eq := angle_of_same hsame
  axisIn_eq_iff
    | .vectorOperator => hr.axis_eq_iff hsame
    | .frameTransform => neg_inj.trans (hr.axis_eq_iff hsame)
  toVector_eq_iff := hr.toVector_eq_iff hsame
  of_halfTurns hw hne := by
    have haxis := hr.axis_of_halfTurns hsame hw hne
    refine ⟨haxis, ?_⟩
    rw [toVector, toVector, angle_of_same hsame, haxis, smul_neg]
  revert_same := Rotation.revert_same hsame
  exists_compose t u ht hsame' := by
    have hs := hr.of_same hsame
    have hu := ht.of_same hsame'
    exact ⟨_, _, hr.compose_eq ht, hs.compose_eq hu, mul_same hsame hsame'⟩
  exists_composeInverse t u ht hsame' := by
    have hs := hr.of_same hsame
    have hu := ht.of_same hsame'
    exact ⟨_, _, hr.revert.compose_eq ht, hs.revert.compose_eq hu,
      mul_same (Rotation.revert_same hsame) hsame'⟩

/-- A half-turn acts as its opposite does. -/
theorem flipped_actsAs_opposite :
    flipped.HasUnitNorm ∧ flipped.same flipped.opposite = true ∧ flipped.ActsAs flipped.opposite :=
  ⟨flipped_hasUnitNorm, flipped.same_opposite,
    actsAs_of_same flipped_hasUnitNorm flipped.same_opposite⟩

/-- Half a turn about the second axis is also half a turn about its opposite. -/
theorem flipped_axis_reversed :
    flipped.HasUnitNorm ∧ flipped.same flipped.opposite = true ∧
      flipped.axis = .unitY ∧ flipped.opposite.axis = -.unitY ∧
      flipped.axis ≠ flipped.opposite.axis ∧ flipped.toVector ≠ flipped.opposite.toVector := by
  have hscalar : flipped.quaternion.w = 0 := rfl
  have hvector : flipped.quaternion.vector = .unitY := by
    ext <;> simp [flipped, Quaternion.vector, Vec3.unitY]
  have hlength : (Vec3.unitY : Vec3 ℝ).norm = 1 :=
    Vec3.norm_of_dot_self (by simp [Vec3.unitY, Vec3.dot])
  have hnonzero : flipped.quaternion.vector ≠ 0 := by
    rw [hvector, ne_eq, ← Vec3.norm_eq_zero, hlength]
    exact one_ne_zero
  have haxis : flipped.axis = .unitY := by
    rw [axis_eq hnonzero, hscalar, if_pos le_rfl, hvector, hlength, div_one, one_smul]
  have hreversed := flipped_hasUnitNorm.opposite_axis_of_halfTurn hscalar
  have hdiffer : ¬(flipped.quaternion.w = 0 → flipped = flipped.opposite) := by
    intro hequal
    have hy := congrArg (fun r => r.quaternion.y) (hequal hscalar)
    norm_num [flipped, opposite] at hy
  refine ⟨flipped_hasUnitNorm, flipped.same_opposite, haxis, ?_, ?_, ?_⟩
  · rw [hreversed, haxis]
  · exact mt (flipped_hasUnitNorm.axis_eq_iff flipped.same_opposite).mp hdiffer
  · exact mt (flipped_hasUnitNorm.toVector_eq_iff flipped.same_opposite).mp hdiffer

end Same

end Rotation

end FrameKinematics
