import FrameKinematics.Proofs.Rotation.UnitQuaternion

/-!
# Composition of rotations

Composition normalises the product of two quaternions. For unit quaternions that changes
nothing, so rotations compose like their quaternions, exactly and without failure.
-/

namespace FrameKinematics.Rotation

/-- The quaternion of a rotation has unit norm. -/
def HasUnitNorm (r : Rotation ℝ) : Prop := r.quaternion.HasUnitNorm

/-- The product of the quaternions of two rotations, as it is: `s` turns first. -/
noncomputable def mul (r s : Rotation ℝ) : Rotation ℝ := ⟨r.quaternion.mul s.quaternion⟩

variable {r s : Rotation ℝ} (u v : Vec3 ℝ)

/-- A rotation is determined by the two parts of its quaternion. -/
theorem ext_parts (hscalar : r.quaternion.w = s.quaternion.w)
    (hvector : r.quaternion.vector = s.quaternion.vector) : r = s := by
  obtain ⟨hx, hy, hz⟩ := Vec3.mk.inj hvector
  ext
  · exact hscalar
  · exact hx
  · exact hy
  · exact hz

/-- A quaternion and its opposite stand for the same rotation. -/
theorem same_iff : r.same s = true ↔ r.quaternion = s.quaternion ∨ r.quaternion = -s.quaternion := by
  have hsame (p q : Quaternion ℝ) : p.same q = true ↔ p = q := by
    simp [Quaternion.same, Quaternion.ext_iff, and_assoc]
  rw [same, Bool.or_eq_true, hsame, hsame]

/-- The identity is a unit quaternion. -/
theorem hasUnitNorm_identity : (identity : Rotation ℝ).HasUnitNorm :=
  Quaternion.hasUnitNorm_one

/-- The product of unit quaternions is one. -/
theorem HasUnitNorm.mul (hr : r.HasUnitNorm) (hs : s.HasUnitNorm) : (r.mul s).HasUnitNorm :=
  Quaternion.HasUnitNorm.mul hr hs

/-- The inverse of a unit quaternion is one. -/
theorem HasUnitNorm.revert (hr : r.HasUnitNorm) : r.revert.HasUnitNorm :=
  Quaternion.HasUnitNorm.conjugate hr

/-- The quaternion of a rotation that is already of unit norm is not changed by normalisation. -/
theorem normalized_of_hasUnitNorm {q : Quaternion ℝ} (hq : q.HasUnitNorm) :
    normalized q = .ok ⟨q⟩ := by
  simp only [normalized, hq.isZero_eq_false, hq.normalize_eq, Bool.false_eq_true, if_false]
  rfl

/-- Rotations with unit quaternions compose by the product of these. -/
theorem HasUnitNorm.compose_eq (hr : r.HasUnitNorm) (hs : s.HasUnitNorm) :
    r.compose s = .ok (r.mul s) :=
  normalized_of_hasUnitNorm (hr.mul hs)

/-- Rotations compose associatively. -/
theorem mul_mul (r s t : Rotation ℝ) : (r.mul s).mul t = r.mul (s.mul t) :=
  congrArg Rotation.mk (Quaternion.mul_mul r.quaternion s.quaternion t.quaternion)

/-- The identity is neutral on the left. -/
@[simp] theorem identity_mul (r : Rotation ℝ) : identity.mul r = r :=
  congrArg Rotation.mk (Quaternion.one_mul_eq r.quaternion)

/-- The identity is neutral on the right. -/
@[simp] theorem mul_identity (r : Rotation ℝ) : r.mul identity = r :=
  congrArg Rotation.mk (Quaternion.mul_one_eq r.quaternion)

/-- The identity is its own inverse. -/
@[simp] theorem identity_revert : (identity : Rotation ℝ).revert = identity := by
  ext <;> simp [revert, identity, Quaternion.conjugate, Quaternion.one]

/-- The inverse of the inverse is the rotation. -/
@[simp] theorem revert_revert (r : Rotation ℝ) : r.revert.revert = r :=
  congrArg Rotation.mk (Quaternion.conjugate_conjugate r.quaternion)

/-- The inverse of a product is the product of the inverses in the other order. -/
theorem revert_mul (r s : Rotation ℝ) : (r.mul s).revert = s.revert.mul r.revert :=
  congrArg Rotation.mk (Quaternion.conjugate_mul r.quaternion s.quaternion)

/-- A unit quaternion is undone by its inverse. -/
theorem HasUnitNorm.revert_mul_self (hr : r.HasUnitNorm) : r.revert.mul r = identity :=
  congrArg Rotation.mk (Quaternion.HasUnitNorm.conjugate_mul_self hr)

/-- A unit quaternion undoes its inverse. -/
theorem HasUnitNorm.mul_revert_self (hr : r.HasUnitNorm) : r.mul r.revert = identity := by
  simpa using hr.revert.revert_mul_self

/-- The inverse rotation of vectors is the rotation by the inverse. -/
@[simp] theorem applyInverse_eq (r : Rotation ℝ) : r.applyInverse v = r.revert.apply v := rfl

/-- The identity leaves vectors as they are. -/
@[simp] theorem identity_apply : (identity : Rotation ℝ).apply v = v :=
  Quaternion.rotate_one v

/-- Rotations of vectors are linear. -/
@[simp] theorem apply_add (r : Rotation ℝ) : r.apply (u + v) = r.apply u + r.apply v :=
  Quaternion.rotate_add u v r.quaternion

@[simp, inherit_doc apply_add]
theorem apply_sub (r : Rotation ℝ) : r.apply (u - v) = r.apply u - r.apply v :=
  Quaternion.rotate_sub u v r.quaternion

@[simp, inherit_doc apply_add]
theorem apply_neg (r : Rotation ℝ) : r.apply (-v) = -r.apply v :=
  Quaternion.rotate_neg v r.quaternion

@[simp, inherit_doc apply_add]
theorem apply_smul (r : Rotation ℝ) (k : ℝ) : r.apply (k • v) = k • r.apply v :=
  Quaternion.rotate_smul v r.quaternion k

@[simp, inherit_doc apply_add]
theorem apply_zero (r : Rotation ℝ) : r.apply 0 = 0 :=
  Quaternion.rotate_zero r.quaternion

/-- A product of rotations turns a vector by one after the other. -/
theorem HasUnitNorm.mul_apply (hr : r.HasUnitNorm) (hs : s.HasUnitNorm) :
    (r.mul s).apply v = r.apply (s.apply v) :=
  Quaternion.HasUnitNorm.rotate_mul v hr hs

/-- Rotations keep vector products. -/
theorem HasUnitNorm.apply_cross (hr : r.HasUnitNorm) :
    r.apply (u.cross v) = (r.apply u).cross (r.apply v) :=
  Quaternion.HasUnitNorm.rotate_cross u v hr

/-- Rotations keep scalar products. -/
theorem HasUnitNorm.apply_dot (hr : r.HasUnitNorm) : (r.apply u).dot (r.apply v) = u.dot v :=
  Quaternion.HasUnitNorm.rotate_dot u v hr

/-- The inverse rotation undoes a rotation. -/
theorem HasUnitNorm.revert_apply_apply (hr : r.HasUnitNorm) : r.revert.apply (r.apply v) = v := by
  rw [← hr.revert.mul_apply v hr, hr.revert_mul_self, identity_apply]

/-- A rotation undoes its inverse. -/
theorem HasUnitNorm.apply_revert_apply (hr : r.HasUnitNorm) : r.apply (r.revert.apply v) = v := by
  simpa using hr.revert.revert_apply_apply v

end FrameKinematics.Rotation
