import FrameKinematics.Proofs.Calendar.NearestLabel
import FrameKinematics.Proofs.Motion.Paths
import FrameKinematics.Proofs.Transform.Composition

/-!
# Extrapolated transforms of extrapolated points

A transform and a moving point are extrapolated, and the point is transformed. The path that the
image takes starts with the motion that the transform gives for the motion of the point. So the
formulas for velocities and accelerations are the derivatives of the extrapolation, for every
rotation and also where the rate or the acceleration of the rotation vanishes.
-/

namespace FrameKinematics

namespace AngularMotion

variable {a : AngularMotion ℝ}

/-- A path in a frame that turns on starts with the motion that is seen from this frame. -/
theorem starts_extrapolated (ha : a.rotation.HasUnitNorm) {m : Motion ℝ} {p : ℝ → Vec3 ℝ}
    (hm : m.Starts p) :
    (a.applyTo m).Starts fun s => (a.extrapolated s).rotation.apply (p s) := by
  have hrate := (hm.apply a.rotation).swing a.rate .id
  refine (hrate.swing a.acceleration .half_square).congr ?_ fun s => ?_
  · ext1
    · simp
    · simp
    · simp
      module
  · have hunit := (Rotation.hasUnitNorm_swing a.rate s).mul ha
    exact (((Rotation.hasUnitNorm_swing a.acceleration (0.5 * s * s)).mul_apply _ hunit).trans
      (congrArg _ ((Rotation.hasUnitNorm_swing a.rate s).mul_apply _ ha))).symm

end AngularMotion

namespace Transform

/-- The extrapolation of a rigid transform. -/
noncomputable def extrapolated (s : ℝ) : Transform ℝ → Transform ℝ
  | neutral => neutral
  | dated date c a => dated (date.later s) (c.shift s) (a.extrapolated s)

/-- Rigid transforms are extrapolated without failure. -/
theorem IsRigid.shift_eq {t : Transform ℝ} (ht : t.IsRigid) (s : ℝ) : t.shift s = .ok (t.extrapolated s) := by
  cases t with
  | neutral => rfl
  | dated date c a =>
    refine (bind_eq_of_ok (date.shift_real s)).trans ?_
    exact bind_eq_of_ok (AngularMotion.shift_eq s ht)

/-- Extrapolation and application agree to second order: the image of an extrapolated point under
the extrapolated transform takes a path, and the image of the motion holds the position, the
velocity and the acceleration with which the path starts. -/
theorem mapMotion_starts {t : Transform ℝ} (ht : t.IsRigid) (m : Motion ℝ) :
    ∃ path, (∀ s, ∃ u, t.shift s = .ok u ∧ u.mapPosition (m.shift s).position = path s) ∧
      (t.mapMotion m).Starts path := by
  cases t with
  | neutral =>
    exact ⟨fun s => (m.shift s).position, fun s => ⟨neutral, rfl, rfl⟩, .shift m⟩
  | dated date c a =>
    have hpath := AngularMotion.starts_extrapolated ht ((Motion.Starts.shift m).add (.shift c))
    exact ⟨_, fun s => ⟨_, ht.shift_eq s, rfl⟩, hpath⟩

/-- A transform that turns, with the turn changing, and moves in every way, and a point that moves,
too. -/
theorem turning_mapMotion_starts :
    turning.IsRigid ∧ ∃ path,
      (∀ s, ∃ u, turning.shift s = .ok u ∧
        u.mapPosition ((⟨⟨4, 0, 1⟩, ⟨0, 2, 0⟩, ⟨1, 1, 0⟩⟩ : Motion ℝ).shift s).position = path s) ∧
      (turning.mapMotion ⟨⟨4, 0, 1⟩, ⟨0, 2, 0⟩, ⟨1, 1, 0⟩⟩).Starts path :=
  ⟨turning_isRigid, mapMotion_starts turning_isRigid _⟩

end Transform

end FrameKinematics
