import FrameKinematics.Proofs.Transform.Placement

/-!
# Composition of transforms

Composing rigid transforms is applying one after the other, and it makes them a group up to
their instants. Both follow from the group of placements. The neutral transform is rigid and
covered like every other one.
-/

namespace FrameKinematics.Transform

variable {s t : Transform ℝ} {g h : Placement}

/-- A transform maps moving points as its placement acts on them. -/
theorem Places.mapMotion_eq (ht : t.Places g) (m : Motion ℝ) : t.mapMotion m = g.act m := by
  obtain ⟨hcartesian, hangular⟩ := ht
  rw [Placement.act, ← hcartesian, ← hangular]
  cases t with
  | neutral => simp [mapMotion, cartesian, angular]
  | dated => rfl

/-- A transform maps points as its placement maps points at rest. -/
theorem Places.mapPosition_eq (ht : t.Places g) (p : Vec3 ℝ) :
    t.mapPosition p = (g.act (.atRest p)).position := by
  obtain ⟨hcartesian, hangular⟩ := ht
  rw [Placement.act_position, ← hcartesian, ← hangular]
  cases t with
  | neutral => simp [mapPosition, cartesian, angular, Motion.atRest]
  | dated => rfl

/-- A transform maps free vectors by the rotation of its placement. -/
theorem Places.mapVector_eq (ht : t.Places g) (v : Vec3 ℝ) :
    t.mapVector v = g.angular.rotation.apply v := by
  rw [← ht.2]
  cases t with
  | neutral => simp [mapVector, angular]
  | dated => rfl

/-- The composition of two rigid transforms exists and maps every moving point, every point and
every free vector as the first and then the second. -/
theorem compose_maps_in_turn (hs : s.IsRigid) (ht : t.IsRigid) (date : Instant ℝ) :
    ∃ u, compose date s t = .ok u ∧
      (∀ m, u.mapMotion m = t.mapMotion (s.mapMotion m)) ∧
      (∀ p, u.mapPosition p = t.mapPosition (s.mapPosition p)) ∧
      (∀ v, u.mapVector v = t.mapVector (s.mapVector v)) := by
  obtain ⟨u, hu, -, hplaces⟩ := hs.places.compose ht.places date
  refine ⟨u, hu, fun m => ?_, fun p => ?_, fun v => ?_⟩
  · rw [hplaces.mapMotion_eq, hs.places.mapMotion_eq, ht.places.mapMotion_eq, Placement.mul_act]
  · rw [hplaces.mapPosition_eq, hs.places.mapPosition_eq, ht.places.mapPosition_eq,
      Placement.mul_act, Placement.act_position, Placement.act_position]
    rfl
  · rw [hplaces.mapVector_eq, hs.places.mapVector_eq, ht.places.mapVector_eq]
    exact Rotation.HasUnitNorm.mul_apply v t.placement.hasUnitNorm s.placement.hasUnitNorm

/-- A transform that turns by an angle with the sine 4/5 and moves in every way. -/
noncomputable def turning : Transform ℝ :=
  dated .j2000 ⟨⟨1, -2, 3⟩, ⟨0, 4, 1⟩, ⟨2, 0, -1⟩⟩ ⟨⟨⟨3 / 5, 4 / 5, 0, 0⟩⟩, ⟨1, -1, 2⟩, ⟨0, 3, 1⟩⟩

/-- A transform that turns by half a turn about another axis. -/
noncomputable def halfTurn : Transform ℝ :=
  dated .j2000 ⟨⟨0, 5, 1⟩, ⟨1, 1, 0⟩, ⟨0, 0, 3⟩⟩ ⟨⟨⟨0, 0, 1, 0⟩⟩, ⟨2, 1, 0⟩, ⟨1, 0, 1⟩⟩

/-- The turning transform is rigid. -/
theorem turning_isRigid : turning.IsRigid := by
  norm_num [turning, IsRigid, angular, Rotation.HasUnitNorm, Quaternion.HasUnitNorm,
    Quaternion.normSq]

/-- The half-turn is rigid. -/
theorem halfTurn_isRigid : halfTurn.IsRigid := by
  norm_num [halfTurn, IsRigid, angular, Rotation.HasUnitNorm, Quaternion.HasUnitNorm,
    Quaternion.normSq]

/-- These two transforms map in turn when they are composed. -/
theorem turning_then_halfTurn_maps_in_turn :
    turning.IsRigid ∧ halfTurn.IsRigid ∧
      ∃ u, compose .j2000 turning halfTurn = .ok u ∧
        (∀ m, u.mapMotion m = halfTurn.mapMotion (turning.mapMotion m)) ∧
        (∀ p, u.mapPosition p = halfTurn.mapPosition (turning.mapPosition p)) ∧
        (∀ v, u.mapVector v = halfTurn.mapVector (turning.mapVector v)) :=
  ⟨turning_isRigid, halfTurn_isRigid,
    compose_maps_in_turn turning_isRigid halfTurn_isRigid .j2000⟩

/-- Rigid transforms are a group in all but their instants: composition never fails on them, is
associative, has the neutral transform as neutral element and the inverse transform as inverse,
inversion is an involution, and it turns compositions around. The instants that compositions
are stamped with do not matter. -/
theorem rigid_transforms_group {a b c : Transform ℝ} (ha : a.IsRigid) (hb : b.IsRigid)
    (hc : c.IsRigid) (date inner : Instant ℝ) :
    (∃ ab bc left right, compose inner a b = .ok ab ∧ compose inner b c = .ok bc ∧
      compose date ab c = .ok left ∧ compose date a bc = .ok right ∧ left.Agrees right) ∧
    (∃ u, compose date neutral a = .ok u ∧ u.Agrees a) ∧
    (∃ u, compose date a neutral = .ok u ∧ u.Agrees a) ∧
    (∃ u, compose date a a.inverse = .ok u ∧ u.Agrees neutral) ∧
    (∃ u, compose date a.inverse a = .ok u ∧ u.Agrees neutral) ∧
    a.inverse.inverse.Agrees a ∧
    (∃ ab u, compose inner a b = .ok ab ∧ compose date b.inverse a.inverse = .ok u ∧
      ab.inverse.Agrees u) := by
  have hback := ha.places.inverse
  obtain ⟨ab, hab, -, hplacesAb⟩ := ha.places.compose hb.places inner
  obtain ⟨bc, hbc, -, hplacesBc⟩ := hb.places.compose hc.places inner
  refine ⟨?associative, ?leftNeutral, ?rightNeutral, ?right, ?left, ?involution, ?reversed⟩
  case associative =>
    obtain ⟨left, hleft, -, hplacesLeft⟩ := hplacesAb.compose hc.places date
    obtain ⟨right, hright, -, hplacesRight⟩ := ha.places.compose hplacesBc date
    rw [← mul_assoc] at hplacesRight
    exact ⟨ab, bc, left, right, hab, hbc, hleft, hright, hplacesLeft.agrees hplacesRight⟩
  case leftNeutral =>
    obtain ⟨u, hu, -, hplaces⟩ := neutral_places.compose ha.places date
    rw [one_mul] at hplaces
    exact ⟨u, hu, hplaces.agrees ha.places⟩
  case rightNeutral =>
    obtain ⟨u, hu, -, hplaces⟩ := ha.places.compose neutral_places date
    rw [mul_one] at hplaces
    exact ⟨u, hu, hplaces.agrees ha.places⟩
  case right =>
    obtain ⟨u, hu, -, hplaces⟩ := ha.places.compose hback date
    rw [mul_inv_cancel] at hplaces
    exact ⟨u, hu, hplaces.agrees neutral_places⟩
  case left =>
    obtain ⟨u, hu, -, hplaces⟩ := hback.compose ha.places date
    rw [inv_mul_cancel] at hplaces
    exact ⟨u, hu, hplaces.agrees neutral_places⟩
  case involution =>
    have hplaces := hback.inverse
    rw [inv_inv] at hplaces
    exact hplaces.agrees ha.places
  case reversed =>
    obtain ⟨u, hu, -, hplaces⟩ := hb.places.inverse.compose hback date
    rw [← mul_inv_rev] at hplaces
    exact ⟨ab, u, hab, hu, hplacesAb.inverse.agrees hplaces⟩

/-- These two transforms satisfy the laws of a group. -/
theorem turning_halfTurn_turning_group :
    turning.IsRigid ∧ halfTurn.IsRigid ∧
      (∃ ab bc left right, compose .j2000 turning halfTurn = .ok ab ∧
        compose .j2000 halfTurn turning = .ok bc ∧ compose .j2000 ab turning = .ok left ∧
        compose .j2000 turning bc = .ok right ∧ left.Agrees right) ∧
      (∃ u, compose .j2000 neutral turning = .ok u ∧ u.Agrees turning) ∧
      (∃ u, compose .j2000 turning neutral = .ok u ∧ u.Agrees turning) ∧
      (∃ u, compose .j2000 turning turning.inverse = .ok u ∧ u.Agrees neutral) ∧
      (∃ u, compose .j2000 turning.inverse turning = .ok u ∧ u.Agrees neutral) ∧
      turning.inverse.inverse.Agrees turning ∧
      (∃ ab u, compose .j2000 turning halfTurn = .ok ab ∧
        compose .j2000 halfTurn.inverse turning.inverse = .ok u ∧ ab.inverse.Agrees u) :=
  ⟨turning_isRigid, halfTurn_isRigid,
    rigid_transforms_group turning_isRigid halfTurn_isRigid turning_isRigid .j2000 .j2000⟩

end FrameKinematics.Transform
