import FrameKinematics.Proofs.Transform.Extrapolation
import FrameKinematics.Proofs.Transform.Freezing
import FrameKinematics.Proofs.Transform.Jacobian

/-!
# The shortcuts of the neutral transform

For the neutral transform every operation knows its answer, and for any other one it computes the
answer from the translation and the rotation. The formulas give the known answers where they are
applied to the translation and the rotation of the neutral transform. So transforms that agree in
translation and rotation are interchangeable, whether a shortcut is taken for one of them or not.
-/

namespace FrameKinematics.Transform

/-- Two transforms give the same answers. The instants of the answers may differ where those of the
transforms do. -/
structure Interchangeable (s t : Transform ℝ) : Prop where
  mapPosition_eq : ∀ p, s.mapPosition p = t.mapPosition p
  mapVector_eq : ∀ v, s.mapVector v = t.mapVector v
  mapMotion_eq : ∀ m, s.mapMotion m = t.mapMotion m
  jacobian_eq : s.jacobian = t.jacobian
  /-- The Jacobian is written into the same tables, with the same result. -/
  jacobianInto_eq : ∀ rows, s.jacobianInto rows = t.jacobianInto rows
  inverse_agrees : s.inverse.Agrees t.inverse
  freeze_agrees : s.freeze.Agrees t.freeze
  exists_shift : ∀ dt, ∃ a b, s.shift dt = .ok a ∧ t.shift dt = .ok b ∧ a.Agrees b
  /-- As the first of two transforms. -/
  exists_compose_first : ∀ (date : Instant ℝ) (u : Transform ℝ), u.IsRigid →
    ∃ a b, compose date s u = .ok a ∧ compose date t u = .ok b ∧ a.date = date ∧ a.Coincides b
  /-- As the second of two transforms. -/
  exists_compose_second : ∀ (date : Instant ℝ) (u : Transform ℝ), u.IsRigid →
    ∃ a b, compose date u s = .ok a ∧ compose date u t = .ok b ∧ a.date = date ∧ a.Coincides b

variable {s t : Transform ℝ} {g : Placement}

/-- A transform that agrees with another one has its placement. -/
theorem Agrees.places (h : s.Agrees t) (hs : s.Places g) : t.Places g :=
  ⟨h.1.symm.trans hs.1, h.2.symm.trans hs.2⟩

/-- The Jacobian depends on the rotation alone. -/
theorem Agrees.jacobianBlocks_eq (h : s.Agrees t) : s.jacobianBlocks = t.jacobianBlocks := by
  rw [s.jacobianBlocks_eq, t.jacobianBlocks_eq, h.2]

/-- The translation of an extrapolated transform is the extrapolated translation. -/
theorem cartesian_extrapolated (t : Transform ℝ) (dt : ℝ) :
    (t.extrapolated dt).cartesian = t.cartesian.shift dt := by
  cases t with
  | neutral => ext1 <;> simp [extrapolated, cartesian, Motion.shift]
  | dated => rfl

/-- The angular motion of an extrapolated transform is the extrapolated angular motion. -/
theorem angular_extrapolated (t : Transform ℝ) (dt : ℝ) :
    (t.extrapolated dt).angular = t.angular.extrapolated dt := by
  cases t with
  | neutral =>
    ext1 <;> simp [extrapolated, angular, AngularMotion.extrapolated, AngularMotion.steady]
  | dated => rfl

/-- Both parts are extrapolated by themselves. -/
theorem Agrees.extrapolated (h : s.Agrees t) (dt : ℝ) :
    (s.extrapolated dt).Agrees (t.extrapolated dt) := by
  constructor
  · rw [cartesian_extrapolated, cartesian_extrapolated, h.1]
  · rw [angular_extrapolated, angular_extrapolated, h.2]

/-- A rigid transform is interchangeable with those that agree with it. -/
theorem IsRigid.interchangeable (hs : s.IsRigid) (h : s.Agrees t) : s.Interchangeable t := by
  have hplaces := hs.places
  have hplaces' := h.places hplaces
  have hjacobian : s.jacobian = t.jacobian := by
    rw [jacobian, h.jacobianBlocks_eq, jacobian]
  refine
    { mapPosition_eq := fun p => ?_
      mapVector_eq := fun v => ?_
      mapMotion_eq := fun m => ?_
      jacobian_eq := hjacobian
      jacobianInto_eq := fun rows => ?_
      inverse_agrees := hplaces.inverse.agrees hplaces'.inverse
      freeze_agrees := hplaces.freeze.agrees hplaces'.freeze
      exists_shift := fun dt =>
        ⟨_, _, hs.shift_eq dt, hplaces'.isRigid.shift_eq dt, h.extrapolated dt⟩
      exists_compose_first := fun date u hu => ?first
      exists_compose_second := fun date u hu => ?second }
  case first =>
    obtain ⟨a, ha, hdate, hproduct⟩ := hplaces.compose hu.places date
    obtain ⟨b, hb, hdate', hproduct'⟩ := hplaces'.compose hu.places date
    exact ⟨a, b, ha, hb, hdate, hdate.trans hdate'.symm, hproduct.agrees hproduct'⟩
  case second =>
    obtain ⟨a, ha, hdate, hproduct⟩ := hu.places.compose hplaces date
    obtain ⟨b, hb, hdate', hproduct'⟩ := hu.places.compose hplaces' date
    exact ⟨a, b, ha, hb, hdate, hdate.trans hdate'.symm, hproduct.agrees hproduct'⟩
  · rw [hplaces.mapPosition_eq, hplaces'.mapPosition_eq]
  · rw [hplaces.mapVector_eq, hplaces'.mapVector_eq]
  · rw [hplaces.mapMotion_eq, hplaces'.mapMotion_eq]
  · rw [jacobianInto, hjacobian, jacobianInto]

/-- The translation and the rotation of the neutral transform at J2000.0, in a transform for which
no shortcut is taken. -/
noncomputable def unmarked : Transform ℝ := dated .j2000 .zero .identity

/-- Every shortcut of the neutral transform gives what the formulas give. -/
theorem neutral_interchangeable_unmarked : neutral.Interchangeable unmarked :=
  neutral_places.isRigid.interchangeable ⟨rfl, rfl⟩

/-- A transform that turns and moves in every way, after either of the two. -/
theorem neutral_unmarked_before_turning :
    turning.IsRigid ∧ ∃ a b, compose .j2000 neutral turning = .ok a ∧
      compose .j2000 unmarked turning = .ok b ∧ a.date = .j2000 ∧ a.Coincides b :=
  ⟨turning_isRigid,
    neutral_interchangeable_unmarked.exists_compose_first .j2000 turning turning_isRigid⟩

end FrameKinematics.Transform
