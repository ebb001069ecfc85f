import Mathlib.Algebra.Group.MinimalAxioms
import FrameKinematics.Proofs.Motion.ChangeOfFrame
import FrameKinematics.Transform

/-!
# Placements

A placement is what a transform says besides its instant: a translation and a rotation, both
with two derivatives, where the quaternion of the rotation has unit norm. Placements form a
group, and composition and inversion of transforms are its operations. The shortcuts for the
neutral transform agree with the operations of the group.
-/

namespace FrameKinematics

/-- A translation and a rotation with their derivatives, the rotation by a unit quaternion. -/
@[ext]
structure Placement where
  cartesian : Motion ℝ
  angular : AngularMotion ℝ
  hasUnitNorm : angular.rotation.HasUnitNorm

namespace Placement

variable (g h : Placement)

noncomputable instance : One Placement :=
  ⟨⟨0, .identity, Rotation.hasUnitNorm_identity⟩⟩

/-- The second translation is taken back into the frame before the first rotation. -/
noncomputable instance : Mul Placement where
  mul g h := ⟨g.cartesian + g.angular.revert.applyTo h.cartesian, g.angular.andThen h.angular,
    h.hasUnitNorm.mul g.hasUnitNorm⟩

noncomputable instance : Inv Placement where
  inv g := ⟨-g.angular.applyTo g.cartesian, g.angular.revert, g.hasUnitNorm.revert⟩

/-- The neutral placement has no translation. -/
@[simp] theorem one_cartesian : (1 : Placement).cartesian = 0 := rfl

/-- The neutral placement does not turn. -/
@[simp] theorem one_angular : (1 : Placement).angular = .identity := rfl

/-- The translation of a product is the first one and the second one turned back. -/
@[simp] theorem mul_cartesian :
    (g * h).cartesian = g.cartesian + g.angular.revert.applyTo h.cartesian := rfl

/-- The angular motions of a product follow each other. -/
@[simp] theorem mul_angular : (g * h).angular = g.angular.andThen h.angular := rfl

/-- The translation of the inverse is the opposite one, turned. -/
@[simp] theorem inv_cartesian : g⁻¹.cartesian = -g.angular.applyTo g.cartesian := rfl

/-- The angular motion of the inverse is the inverse one. -/
@[simp] theorem inv_angular : g⁻¹.angular = g.angular.revert := rfl

/-- Placements compose associatively. -/
private theorem mul_assoc' (f g h : Placement) : f * g * h = f * (g * h) := by
  ext1
  · have hback := AngularMotion.revert_andThen_applyTo f.hasUnitNorm g.hasUnitNorm h.cartesian
    simp [hback, add_assoc]
  · simp [AngularMotion.andThen_andThen g.hasUnitNorm h.hasUnitNorm]

/-- A placement is undone by its inverse. -/
private theorem inv_mul_self (g : Placement) : g⁻¹ * g = 1 := by
  ext1
  · simp [AngularMotion.revert_revert g.hasUnitNorm]
  · simp [AngularMotion.revert_andThen_self g.hasUnitNorm]

/-- Placements form a group. -/
noncomputable instance : Group Placement :=
  Group.ofLeftAxioms mul_assoc' (fun g => by ext1 <;> simp) inv_mul_self

/-- A motion seen from the new frame. -/
noncomputable def act (m : Motion ℝ) : Motion ℝ := g.angular.applyTo (m + g.cartesian)

/-- The position of an image is moved and then turned. -/
theorem act_position (m : Motion ℝ) :
    (g.act m).position = g.angular.rotation.apply (m.position + g.cartesian.position) := rfl

/-- A product of placements acts by one after the other. -/
theorem mul_act (m : Motion ℝ) : (g * h).act m = h.act (g.act m) := by
  have hthen := AngularMotion.andThen_applyTo g.hasUnitNorm h.hasUnitNorm
  have hback := AngularMotion.applyTo_revert_applyTo g.hasUnitNorm h.cartesian
  simp only [act, mul_angular, mul_cartesian, hthen]
  simp only [AngularMotion.applyTo_add, hback, add_assoc]

end Placement

namespace Transform

/-- The rotation of a transform is given by a unit quaternion. -/
def IsRigid (t : Transform ℝ) : Prop := t.angular.rotation.HasUnitNorm

/-- Two transforms have the same translation, velocity, acceleration, rotation quaternion,
rotation rate and rotation acceleration. Their instants may differ. -/
def Agrees (s t : Transform ℝ) : Prop := s.cartesian = t.cartesian ∧ s.angular = t.angular

/-- A transform has the translation and the rotation of a placement. -/
def Places (t : Transform ℝ) (g : Placement) : Prop :=
  t.cartesian = g.cartesian ∧ t.angular = g.angular

variable {s t : Transform ℝ} {g h : Placement}

open Classical in
/-- What a rigid transform says besides its instant. Other transforms have no placement, and the
neutral one stands for it. -/
noncomputable def placement (t : Transform ℝ) : Placement :=
  if ht : t.IsRigid then ⟨t.cartesian, t.angular, ht⟩ else 1

/-- A rigid transform has its placement. -/
theorem IsRigid.places (ht : t.IsRigid) : t.Places t.placement := by
  rw [placement, dif_pos ht]
  exact ⟨rfl, rfl⟩

/-- A transform with a placement is rigid. -/
theorem Places.isRigid (ht : t.Places g) : t.IsRigid := by
  rw [IsRigid, ht.2]
  exact g.hasUnitNorm

/-- Transforms with one placement agree. -/
theorem Places.agrees (hs : s.Places g) (ht : t.Places g) : s.Agrees t :=
  ⟨hs.1.trans ht.1.symm, hs.2.trans ht.2.symm⟩

/-- The neutral transform has the neutral placement. -/
theorem neutral_places : (neutral : Transform ℝ).Places 1 := ⟨Motion.zero_eq, rfl⟩

/-- The neutral transform has no other placement. -/
theorem Places.eq_one (h : neutral.Places g) : g = 1 :=
  Placement.ext (h.1.symm.trans neutral_places.1) (h.2.symm.trans neutral_places.2)

/-- Composition never fails on rigid transforms and multiplies their placements. The neutral
transform on either side is no exception. -/
theorem Places.compose (hs : s.Places g) (ht : t.Places h) (date : Instant ℝ) :
    ∃ u, compose date s t = .ok u ∧ u.date = date ∧ u.Places (g * h) := by
  match s, t with
  | neutral, t =>
    refine ⟨dated date t.cartesian t.angular, rfl, rfl, ?_⟩
    rw [hs.eq_one, one_mul]
    exact ht
  | dated _ c a, neutral =>
    refine ⟨dated date c a, rfl, rfl, ?_⟩
    rw [ht.eq_one, mul_one]
    exact hs
  | dated _ c₁ a₁, dated _ c₂ a₂ =>
    refine ⟨dated date (c₁ + a₁.revert.applyTo c₂) (a₁.andThen a₂), ?_, rfl, ?_⟩
    · have hangular : a₁.compose a₂ = .ok (a₁.andThen a₂) :=
        AngularMotion.compose_eq hs.isRigid ht.isRigid
      simp only [Transform.compose, hangular]
      rfl
    · obtain ⟨rfl, rfl⟩ : c₁ = g.cartesian ∧ a₁ = g.angular := hs
      obtain ⟨rfl, rfl⟩ : c₂ = h.cartesian ∧ a₂ = h.angular := ht
      exact ⟨rfl, rfl⟩

/-- The inverse transform has the inverse placement. -/
theorem Places.inverse (ht : t.Places g) : t.inverse.Places g⁻¹ := by
  cases t with
  | neutral =>
    rw [ht.eq_one, inv_one]
    exact neutral_places
  | dated date c a =>
    obtain ⟨rfl, rfl⟩ : c = g.cartesian ∧ a = g.angular := ht
    exact ⟨rfl, rfl⟩

end Transform

end FrameKinematics
