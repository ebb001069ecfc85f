import FrameKinematics.Proofs.Transform.Composition

/-!
# Frozen transforms

A frozen transform keeps its instant, its translation and its rotation and drops their derivatives.
On placements this is a homomorphism of groups: in positions and rotations no derivative occurs, and
where all rates vanish every term of a derivative does. So freezing may be done before or after
composition and inversion, and it is done once for all.
-/

namespace FrameKinematics

section Rest

variable {K : Type} [Scalar K]

/-- A motion at rest has the position that it was given. -/
@[simp] theorem Motion.atRest_position (p : Vec3 K) : (Motion.atRest p).position = p := rfl

/-- A motion at rest has no velocity. -/
@[simp] theorem Motion.atRest_velocity (p : Vec3 ℝ) : (Motion.atRest p).velocity = 0 :=
  Vec3.zero_eq

/-- A motion at rest has no acceleration. -/
@[simp] theorem Motion.atRest_acceleration (p : Vec3 ℝ) : (Motion.atRest p).acceleration = 0 :=
  Vec3.zero_eq

/-- A fixed angular motion has the rotation that it was given. -/
@[simp] theorem AngularMotion.fixed_rotation (r : Rotation K) : (fixed r).rotation = r := rfl

/-- A fixed angular motion has no rate. -/
@[simp] theorem AngularMotion.fixed_rate (r : Rotation ℝ) : (fixed r).rate = 0 :=
  Vec3.zero_eq

/-- A fixed angular motion has no acceleration. -/
@[simp] theorem AngularMotion.fixed_acceleration (r : Rotation ℝ) : (fixed r).acceleration = 0 :=
  Vec3.zero_eq

end Rest

namespace Placement

/-- A placement without its derivatives. -/
noncomputable def frozen : Placement →* Placement where
  toFun g := ⟨.atRest g.cartesian.position, .fixed g.angular.rotation, g.hasUnitNorm⟩
  map_one' := by
    ext1
    · ext1 <;> simp
    · ext1 <;> simp
  map_mul' g h := by
    ext1
    · ext1 <;> simp
    · ext1 <;> simp

/-- A frozen placement rests at its position. -/
theorem frozen_cartesian (g : Placement) :
    (frozen g).cartesian = .atRest g.cartesian.position := rfl

/-- A frozen placement keeps its rotation. -/
theorem frozen_angular (g : Placement) : (frozen g).angular = .fixed g.angular.rotation := rfl

end Placement

namespace Transform

open Placement

variable {s t : Transform ℝ} {g : Placement}

/-- Two transforms have the same instant, too. -/
def Coincides (s t : Transform ℝ) : Prop := s.date = t.date ∧ s.Agrees t

/-- Freezing keeps the instant. -/
@[simp] theorem date_freeze (t : Transform ℝ) : t.freeze.date = t.date := by
  cases t <;> rfl

/-- The inverse has the instant of the transform. -/
@[simp] theorem date_inverse (t : Transform ℝ) : t.inverse.date = t.date := by
  cases t <;> rfl

/-- A frozen transform has the frozen placement. -/
theorem Places.freeze (ht : t.Places g) : t.freeze.Places (frozen g) := by
  cases t with
  | neutral =>
    rw [ht.eq_one, map_one]
    exact neutral_places
  | dated date c a =>
    obtain ⟨rfl, rfl⟩ : c = g.cartesian ∧ a = g.angular := ht
    exact ⟨rfl, rfl⟩

/-- Freezing twice is freezing once. -/
theorem freeze_freeze (t : Transform ℝ) : t.freeze.freeze = t.freeze := by
  cases t <;> rfl

/-- Freezing is an idempotent homomorphism. It may be done before or after the composition of rigid
transforms, which never fails, and before or after inversion. The images of points and of free
vectors stay, and every derivative vanishes. The neutral transform is no exception. -/
theorem freeze_homomorphism (hs : s.IsRigid) (ht : t.IsRigid) (date : Instant ℝ) :
    t.freeze.freeze.Coincides t.freeze ∧
    (∃ u v, compose date s t = .ok u ∧ compose date s.freeze t.freeze = .ok v ∧
      u.freeze.Coincides v) ∧
    t.inverse.freeze.Coincides t.freeze.inverse ∧
    (∀ p, t.freeze.mapPosition p = t.mapPosition p) ∧
    (∀ v, t.freeze.mapVector v = t.mapVector v) ∧
    t.freeze.cartesian.velocity = 0 ∧ t.freeze.cartesian.acceleration = 0 ∧
    t.freeze.angular.rate = 0 ∧ t.freeze.angular.acceleration = 0 := by
  have hfrozen := ht.places.freeze
  refine ⟨?idempotent, ?composition, ?inversion, fun p => ?_, fun v => ?_, ?derivatives⟩
  case idempotent =>
    rw [freeze_freeze]
    exact ⟨rfl, rfl, rfl⟩
  case composition =>
    obtain ⟨u, hu, hdate, hplaces⟩ := hs.places.compose ht.places date
    obtain ⟨v, hv, hdate', hplaces'⟩ := hs.places.freeze.compose hfrozen date
    rw [← map_mul] at hplaces'
    refine ⟨u, v, hu, hv, ?_, hplaces.freeze.agrees hplaces'⟩
    rw [date_freeze, hdate, hdate']
  case inversion =>
    have hplaces := hfrozen.inverse
    rw [← map_inv] at hplaces
    refine ⟨?_, ht.places.inverse.freeze.agrees hplaces⟩
    rw [date_freeze, date_inverse, date_inverse, date_freeze]
  case derivatives =>
    rw [hfrozen.1, hfrozen.2, frozen_cartesian, frozen_angular]
    simp
  · rw [hfrozen.mapPosition_eq, ht.places.mapPosition_eq]
    rfl
  · rw [hfrozen.mapVector_eq, ht.places.mapVector_eq]
    rfl

/-- Freezing goes together with composition, inversion and the images of points for these
transforms. -/
theorem turning_halfTurn_frozen :
    turning.IsRigid ∧ halfTurn.IsRigid ∧
      halfTurn.freeze.freeze.Coincides halfTurn.freeze ∧
      (∃ u v, compose .j2000 turning halfTurn = .ok u ∧
        compose .j2000 turning.freeze halfTurn.freeze = .ok v ∧ u.freeze.Coincides v) ∧
      halfTurn.inverse.freeze.Coincides halfTurn.freeze.inverse ∧
      (∀ p, halfTurn.freeze.mapPosition p = halfTurn.mapPosition p) ∧
      (∀ v, halfTurn.freeze.mapVector v = halfTurn.mapVector v) ∧
      halfTurn.freeze.cartesian.velocity = 0 ∧ halfTurn.freeze.cartesian.acceleration = 0 ∧
      halfTurn.freeze.angular.rate = 0 ∧ halfTurn.freeze.angular.acceleration = 0 :=
  ⟨turning_isRigid, halfTurn_isRigid,
    freeze_homomorphism turning_isRigid halfTurn_isRigid .j2000⟩

end Transform

end FrameKinematics
