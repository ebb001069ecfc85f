import FrameKinematics.Proofs.Rotation.Composition
import FrameKinematics.Motion.Angular

/-!
# Motions seen from turning frames

An angular motion takes a motion from an old frame to a new one. Angular motions compose like
the changes of frame that they stand for, with the Coriolis, centrifugal and Euler terms of
both, and those whose quaternion has unit norm can be undone.
-/

namespace FrameKinematics

namespace Motion

section Fields

variable {K : Type} [Scalar K] (m n : Motion K)

/-- Motions are added component by component. -/
@[simp] theorem add_position : (m + n).position = m.position + n.position := rfl
@[simp, inherit_doc add_position]
theorem add_velocity : (m + n).velocity = m.velocity + n.velocity := rfl
@[simp, inherit_doc add_position]
theorem add_acceleration : (m + n).acceleration = m.acceleration + n.acceleration := rfl

/-- Motions are subtracted component by component. -/
@[simp] theorem sub_position : (m - n).position = m.position - n.position := rfl
@[simp, inherit_doc sub_position]
theorem sub_velocity : (m - n).velocity = m.velocity - n.velocity := rfl
@[simp, inherit_doc sub_position]
theorem sub_acceleration : (m - n).acceleration = m.acceleration - n.acceleration := rfl

/-- The opposite of a motion has the opposite components. -/
@[simp] theorem neg_position : (-m).position = -m.position := rfl
@[simp, inherit_doc neg_position] theorem neg_velocity : (-m).velocity = -m.velocity := rfl
@[simp, inherit_doc neg_position]
theorem neg_acceleration : (-m).acceleration = -m.acceleration := rfl

end Fields

instance : Zero (Motion ℝ) := ⟨⟨0, 0, 0⟩⟩

/-- The motion at rest in the origin has components of zero. -/
@[simp] theorem position_zero : (0 : Motion ℝ).position = 0 := rfl
@[simp, inherit_doc position_zero] theorem velocity_zero : (0 : Motion ℝ).velocity = 0 := rfl
@[simp, inherit_doc position_zero]
theorem acceleration_zero : (0 : Motion ℝ).acceleration = 0 := rfl

/-- A point at rest in the origin is the neutral element of addition. -/
@[simp] theorem zero_eq : (zero : Motion ℝ) = 0 := by
  simp only [zero, Vec3.zero_eq]
  rfl

noncomputable instance : AddCommGroup (Motion ℝ) where
  add_assoc m n o := by ext1 <;> simp [add_assoc]
  zero_add m := by ext1 <;> simp
  add_zero m := by ext1 <;> simp
  nsmul := nsmulRec
  zsmul := zsmulRec
  neg_add_cancel m := by ext1 <;> simp
  sub_eq_add_neg m n := by ext1 <;> simp [sub_eq_add_neg]
  add_comm m n := by ext1 <;> simp [add_comm]

end Motion

namespace AngularMotion

section Fields

variable (a : AngularMotion ℝ) (m : Motion ℝ)

/-- Positions are turned. -/
@[simp] theorem applyTo_position : (a.applyTo m).position = a.rotation.apply m.position := rfl

/-- Velocities are turned, and get the velocity of the turning frame. -/
@[simp] theorem applyTo_velocity :
    (a.applyTo m).velocity = a.rotation.apply m.velocity - a.rate.cross (a.applyTo m).position :=
  rfl

/-- Accelerations are turned, and get the Coriolis, centrifugal and Euler terms. -/
@[simp] theorem applyTo_acceleration :
    (a.applyTo m).acceleration =
      a.rotation.apply m.acceleration - (2 : ℝ) • a.rate.cross (a.applyTo m).velocity -
        a.rate.cross (a.rate.cross (a.applyTo m).position) -
        a.acceleration.cross (a.applyTo m).position := by
  simp only [applyTo, Scalar.two_literal]

/-- The inverse of an angular motion has the inverse rotation. -/
@[simp] theorem revert_rotation : a.revert.rotation = a.rotation.revert := rfl

/-- The rate of the inverse is the opposite rate, seen from the other side. -/
@[simp] theorem revert_rate : a.revert.rate = -a.rotation.revert.apply a.rate := rfl

/-- The acceleration of the inverse is the opposite one, seen from the other side. -/
@[simp] theorem revert_acceleration :
    a.revert.acceleration = -a.rotation.revert.apply a.acceleration := rfl

/-- The identity does not turn. -/
@[simp] theorem identity_rotation : (identity : AngularMotion ℝ).rotation = .identity := rfl

@[simp, inherit_doc identity_rotation]
theorem identity_rate : (identity : AngularMotion ℝ).rate = 0 := Vec3.zero_eq

@[simp, inherit_doc identity_rotation]
theorem identity_acceleration : (identity : AngularMotion ℝ).acceleration = 0 :=
  Vec3.zero_eq

end Fields

/-- `first` followed by `second`, where the product of the quaternions is taken as it is. -/
@[simps] noncomputable def andThen (first second : AngularMotion ℝ) : AngularMotion ℝ where
  rotation := second.rotation.mul first.rotation
  rate := second.rate + second.rotation.apply first.rate
  acceleration := second.acceleration + second.rotation.apply first.acceleration -
    second.rate.cross (second.rotation.apply first.rate)

variable {a b c : AngularMotion ℝ}

/-- Angular motions whose quaternions have unit norm compose without normalisation. -/
theorem compose_eq (ha : a.rotation.HasUnitNorm) (hb : b.rotation.HasUnitNorm) :
    a.compose b = .ok (a.andThen b) := by
  simp only [compose, hb.compose_eq ha]
  rfl

/-- A sum of motions is seen as the sum of what is seen of both. -/
@[simp] theorem applyTo_add (a : AngularMotion ℝ) (m n : Motion ℝ) :
    a.applyTo (m + n) = a.applyTo m + a.applyTo n := by
  ext1 <;> simp <;> module

/-- The image of the opposite motion is the opposite of the image. -/
@[simp] theorem applyTo_neg (a : AngularMotion ℝ) (m : Motion ℝ) :
    a.applyTo (-m) = -a.applyTo m := by
  ext1 <;> simp <;> module

/-- The image of a difference is the difference of the images. -/
@[simp] theorem applyTo_sub (a : AngularMotion ℝ) (m n : Motion ℝ) :
    a.applyTo (m - n) = a.applyTo m - a.applyTo n := by
  rw [sub_eq_add_neg, applyTo_add, applyTo_neg, ← sub_eq_add_neg]

/-- The identity leaves motions as they are. -/
@[simp] theorem identity_applyTo (m : Motion ℝ) : identity.applyTo m = m := by
  ext1 <;> simp

/-- Two changes of frame, one after the other, are one change of frame. In the acceleration the
rates of both meet, and Jacobi's identity puts them in order. -/
theorem andThen_applyTo (ha : a.rotation.HasUnitNorm) (hb : b.rotation.HasUnitNorm)
    (m : Motion ℝ) : (a.andThen b).applyTo m = b.applyTo (a.applyTo m) := by
  ext1
  · simp [hb.mul_apply _ ha]
  · simp [hb.mul_apply _ ha, hb.apply_cross]
    abel
  · have hjacobi := Vec3.jacobi b.rate (b.rotation.apply a.rate)
      (b.rotation.apply (a.rotation.apply m.position))
    simp [hb.mul_apply _ ha, hb.apply_cross, hjacobi]
    module

/-- Changes of frame are composed in any grouping. -/
theorem andThen_andThen (hb : b.rotation.HasUnitNorm) (hc : c.rotation.HasUnitNorm) :
    (a.andThen b).andThen c = a.andThen (b.andThen c) := by
  ext1
  · simp [Rotation.mul_mul]
  · simp [hc.mul_apply _ hb]
    abel
  · simp [hc.mul_apply _ hb, hc.apply_cross]
    abel

/-- The identity is neutral on the left. -/
@[simp] theorem identity_andThen (a : AngularMotion ℝ) : identity.andThen a = a := by
  ext1 <;> simp

/-- The identity is neutral on the right. -/
@[simp] theorem andThen_identity (a : AngularMotion ℝ) : a.andThen identity = a := by
  ext1 <;> simp

/-- The identity is its own inverse. -/
@[simp] theorem identity_revert : (identity : AngularMotion ℝ).revert = identity := by
  ext1 <;> simp

/-- The inverse of the inverse of a unit quaternion's motion is the motion. -/
theorem revert_revert (ha : a.rotation.HasUnitNorm) : a.revert.revert = a := by
  ext1 <;> simp [ha.apply_revert_apply]

/-- The inverse followed by the angular motion is no motion: the rate and the acceleration
were turned back and reversed. -/
theorem revert_andThen_self (ha : a.rotation.HasUnitNorm) : a.revert.andThen a = identity := by
  ext1
  · simp [ha.mul_revert_self]
  · simp [ha.apply_revert_apply]
  · simp [ha.apply_revert_apply]

/-- An angular motion undoes the change of frame of its inverse. -/
theorem applyTo_revert_applyTo (ha : a.rotation.HasUnitNorm) (m : Motion ℝ) :
    a.applyTo (a.revert.applyTo m) = m := by
  rw [← andThen_applyTo ha.revert ha, revert_andThen_self ha, identity_applyTo]

/-- The inverse of a composition is the composition of the inverses in the other order. -/
theorem revert_andThen (ha : a.rotation.HasUnitNorm) (hb : b.rotation.HasUnitNorm) :
    (a.andThen b).revert = b.revert.andThen a.revert := by
  ext1
  · simp [Rotation.revert_mul]
  · simp [Rotation.revert_mul, ha.revert.mul_apply _ hb.revert, hb.revert_apply_apply]
  · have hcomm := Vec3.neg_cross_comm (a.rotation.revert.apply a.rate)
      (a.rotation.revert.apply (b.rotation.revert.apply b.rate))
    simp [Rotation.revert_mul, ha.revert.mul_apply _ hb.revert, hb.revert_apply_apply,
      ha.revert.apply_cross, hb.revert.apply_cross, ← hcomm]
    abel

/-- To undo a composition, undo the second angular motion first. -/
theorem revert_andThen_applyTo (ha : a.rotation.HasUnitNorm) (hb : b.rotation.HasUnitNorm)
    (m : Motion ℝ) : (a.andThen b).revert.applyTo m = a.revert.applyTo (b.revert.applyTo m) := by
  have ha' : a.revert.rotation.HasUnitNorm := ha.revert
  have hb' : b.revert.rotation.HasUnitNorm := hb.revert
  rw [revert_andThen ha hb, andThen_applyTo hb' ha']

end AngularMotion

end FrameKinematics
