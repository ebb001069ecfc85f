import FrameKinematics.Proofs.Motion.Paths
import FrameKinematics.Proofs.Rotation.Distance

/-!
# Elementary turns

A frame that turns by an angle about one of its own axes has one of the three elementary matrices:
the coordinate along the axis stays, and the two others mix by the cosine and the sine of the angle.
The rotation of vectors by the opposite angle about the same axis has this matrix.
-/

namespace FrameKinematics

/-- The axes of coordinates. -/
inductive CoordinateAxis where
  | first
  | second
  | third
deriving DecidableEq, Repr

namespace CoordinateAxis

/-- The unit vector along an axis. -/
noncomputable def unit : CoordinateAxis → Vec3 ℝ
  | first => .unitX
  | second => .unitY
  | third => .unitZ

/-- The matrix that takes the coordinates of a fixed vector to those in a frame that has turned by
an angle about an axis. -/
noncomputable def turn (axis : CoordinateAxis) (θ : ℝ) : Mat3 ℝ :=
  let c := Real.cos θ
  let s := Real.sin θ
  match axis with
  | first => ⟨⟨1, 0, 0⟩, ⟨0, c, s⟩, ⟨0, -s, c⟩⟩
  | second => ⟨⟨c, 0, -s⟩, ⟨0, 1, 0⟩, ⟨s, 0, c⟩⟩
  | third => ⟨⟨c, s, 0⟩, ⟨-s, c, 0⟩, ⟨0, 0, 1⟩⟩

variable (axis : CoordinateAxis) (θ : ℝ)

/-- An axis has the length one. -/
theorem norm_unit : axis.unit.norm = 1 := by
  cases axis <;> simp [unit, Vec3.norm_eq, Vec3.unitX, Vec3.unitY, Vec3.unitZ]

/-- A turn about an axis turns vectors as the formula of Rodrigues says. -/
theorem turn_apply (v : Vec3 ℝ) :
    (axis.turn θ).apply v = v - Real.sin θ • axis.unit.cross v +
      (1 - Real.cos θ) • axis.unit.cross (axis.unit.cross v) := by
  cases axis <;> ext <;>
    simp [turn, unit, Mat3.apply, Vec3.dot, Vec3.unitX, Vec3.unitY, Vec3.unitZ] <;> ring

end CoordinateAxis

namespace Rotation

variable (axis : CoordinateAxis) (θ : ℝ)

/-- The rotation of vectors by the opposite of an angle is a turn of the frame by the angle. -/
theorem ofAxisAngle_neg_unit :
    ofAxisAngle axis.unit (-θ) = .ok (swing axis.unit θ) := by
  have hnonzero : axis.unit ≠ 0 := by
    rw [Ne, ← Vec3.norm_eq_zero, axis.norm_unit]
    exact one_ne_zero
  have hframe := ofAxisAngle_eq_swing hnonzero θ
  rwa [axis.norm_unit, div_one] at hframe

/-- A turn about an axis of coordinates has the elementary matrix. -/
theorem matrix_swing_unit : (swing axis.unit θ).matrix = axis.turn θ := by
  apply Mat3.eq_of_apply_eq
  intro v
  rw [← (hasUnitNorm_swing _ _).apply_eq_matrix_apply, swing_apply, axis.norm_unit, one_mul,
    one_mul, div_one, div_one, axis.turn_apply]

end Rotation

end FrameKinematics
