import FrameKinematics.Proofs.Linear.ScalarProduct
import FrameKinematics.Proofs.Motion.ChangeOfFrame
import FrameKinematics.Proofs.Source.Runs
import FrameKinematics.Motion.Rodrigues

/-!
# Modified Rodrigues parameters in exact arithmetic

All parameters stand for a rotation by a unit quaternion, so they are turned back without failure.
Where the rotation is the identity, the parameters vanish and their derivatives are the rate and the
acceleration up to a factor of minus four.
-/

namespace FrameKinematics

namespace AngularMotion

/-- The quaternion of some parameters. -/
noncomputable def quaternionOf (p : Vec3 ℝ) : Quaternion ℝ :=
  let k := 1.0 / (1.0 + p.dot p)
  let x := (2.0 * k) • p
  ⟨2.0 * k - 1.0, x.x, x.y, x.z⟩

/-- The quaternion of parameters has unit norm, for all parameters. -/
theorem hasUnitNorm_quaternionOf (p : Vec3 ℝ) : (quaternionOf p).HasUnitNorm := by
  have hpositive : 0 < 1 + (p.x * p.x + p.y * p.y + p.z * p.z) := by
    linarith [mul_self_nonneg p.x, mul_self_nonneg p.y, mul_self_nonneg p.z]
  simp only [Quaternion.HasUnitNorm, Quaternion.normSq, quaternionOf, Vec3.dot, Vec3.smul_x,
    Vec3.smul_y, Vec3.smul_z, Scalar.one_literal, Scalar.two_literal]
  field_simp
  ring

/-- The rate and the acceleration of parameters with two derivatives are found without failure. -/
theorem exists_ofRodrigues (parameters : Jet (Vec3 ℝ)) :
    ∃ a, ofRodrigues parameters = .ok a ∧ a.rotation = ⟨quaternionOf parameters.value⟩ :=
  ⟨_, bind_eq_of_ok (Rotation.normalized_of_hasUnitNorm (hasUnitNorm_quaternionOf _)), rfl⟩

/-- Parameters that vanish at the moment stand for the identity. -/
theorem ofRodrigues_zero (first second : Vec3 ℝ) :
    ofRodrigues ⟨0, first, second⟩ =
      .ok ⟨.identity, (-4 : ℝ) • first, (-4 : ℝ) • second⟩ := by
  have hidentity : (⟨quaternionOf 0⟩ : Rotation ℝ) = .identity := by
    ext <;> norm_num [quaternionOf, Rotation.identity, Quaternion.one]
  refine (bind_eq_of_ok (Rotation.normalized_of_hasUnitNorm (hasUnitNorm_quaternionOf 0))).trans ?_
  rw [hidentity]
  refine congrArg Except.ok ?_
  ext1
  · rfl
  · simp
    module
  · simp
    module

/-- The parameters of an angular motion that has not turned. -/
theorem toRodrigues_of_identity {a : AngularMotion ℝ} (ha : a.rotation = .identity) :
    a.toRodrigues = ⟨0, (-1 / 4 : ℝ) • a.rate, (-1 / 4 : ℝ) • a.acceleration⟩ := by
  have hw : a.rotation.quaternion.w = 1 := by simp [ha, Rotation.identity, Quaternion.one]
  have hvector : a.rotation.quaternion.vector = 0 := by
    ext <;> simp [ha, Rotation.identity, Quaternion.one, Quaternion.vector]
  have hpositive : ¬a.rotation.quaternion.w < 0.0 := by
    rw [hw]
    norm_num
  rw [toRodrigues, if_neg hpositive, hw, hvector]
  ext1
  · simp
  · simp
    module
  · simp
    module

end AngularMotion

end FrameKinematics
