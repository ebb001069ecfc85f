import FrameKinematics.Proofs.Earth.PoleTable
import FrameKinematics.Proofs.Rotation.ElementaryTurns

/-!
# The matrix of polar motion

The transform of polar motion is built of three rotations of vectors. Each is an elementary turn of
the frame by the opposite angle, so their product is `R₃(-s') R₂(xp) R₁(yp)`, and the inverse rotation
has its transpose. The axis of the drift is taken to the axis that the coordinates of the pole give,
whatever the drift is.
-/

namespace FrameKinematics

/-- The data of the pole have coordinates for an instant. -/
def PoleData.Covers (data : PoleData ℝ) (date : Instant ℝ) : Prop :=
  match data with
  | .none => True
  | .table records => records.Covers date
  | .other _ => False

namespace Earth

/-- The matrix of polar motion by the coordinates of the pole and the drift of the origin. -/
noncomputable def polarMatrix (pole : PoleCorrection ℝ) (drift : ℝ) : Mat3 ℝ :=
  ((CoordinateAxis.third.turn (-drift)).mul
    ((CoordinateAxis.second.turn pole.xp).mul (CoordinateAxis.first.turn pole.yp))).transpose

/-- The third axis is taken to a vector that does not depend on the drift. -/
theorem polarMatrix_apply_unitZ (pole : PoleCorrection ℝ) (drift : ℝ) :
    (polarMatrix pole drift).apply .unitZ =
      ⟨Real.sin pole.xp, -Real.sin pole.yp * Real.cos pole.xp,
        Real.cos pole.yp * Real.cos pole.xp⟩ := by
  ext <;>
    simp [polarMatrix, CoordinateAxis.turn, Mat3.mul, Mat3.mulTranspose, Mat3.transpose, Mat3.apply,
      Vec3.dot, Vec3.unitZ]

/-- The drift of the origin at an instant: so much for each century since J2000.0. -/
noncomputable def driftAt (date : Instant ℝ) : ℝ :=
  Standards.originDrift ℝ * (date.elapsed / Standards.secondsPerCentury ℝ)

/-- A transform turns the rotating frame to the Earth-fixed one, for some coordinates of the pole. -/
structure MovesPole (pole : PoleCorrection ℝ) (date : Instant ℝ) (transform : Transform ℝ) :
    Prop where
  matrix_eq : transform.angular.rotation.matrix = polarMatrix pole (driftAt date)
  isRigid : transform.IsRigid
  /-- Vectors are turned by the matrix. -/
  mapVector_eq : ∀ v, transform.mapVector v = (polarMatrix pole (driftAt date)).apply v
  /-- The pole of the rotating frame has these coordinates in the Earth-fixed frame. -/
  mapVector_unitZ : transform.mapVector .unitZ =
    ⟨Real.sin pole.xp, -Real.sin pole.yp * Real.cos pole.xp, Real.cos pole.yp * Real.cos pole.xp⟩
  rate_eq : transform.angular.rate = 0
  acceleration_eq : transform.angular.acceleration = 0
  cartesian_eq : transform.cartesian = .zero
  date_eq : transform.date = date

open CoordinateAxis Rotation

/-- The product of the three turns. -/
noncomputable def polarTurn (pole : PoleCorrection ℝ) (drift : ℝ) : Rotation ℝ :=
  (swing third.unit (-drift)).mul ((swing second.unit pole.xp).mul (swing first.unit pole.yp))

/-- The product of the three turns is a rotation. -/
theorem hasUnitNorm_polarTurn (pole : PoleCorrection ℝ) (drift : ℝ) :
    (polarTurn pole drift).HasUnitNorm :=
  (hasUnitNorm_swing _ _).mul ((hasUnitNorm_swing _ _).mul (hasUnitNorm_swing _ _))

/-- Its inverse has the matrix of polar motion. -/
theorem matrix_revert_polarTurn (pole : PoleCorrection ℝ) (drift : ℝ) :
    (polarTurn pole drift).revert.matrix = polarMatrix pole drift := by
  have hmatrix (r s : Rotation ℝ) : (r.mul s).matrix = r.matrix.mul s.matrix :=
    Quaternion.matrix_mul r.quaternion s.quaternion
  rw [matrix_revert, polarTurn, hmatrix, hmatrix, matrix_swing_unit, matrix_swing_unit,
    matrix_swing_unit, polarMatrix]

variable {data : PoleData ℝ} {date : Instant ℝ} {pole : PoleCorrection ℝ}

/-- The inverse of the product is computed without failure. -/
theorem poleMotion_eq (hpole : poleCorrection data date = .ok pole) :
    poleMotion data date =
      .ok (.ofRotation date (.fixed (polarTurn pole (driftAt date)).revert)) := by
  have hdrift : ofAxisAngle .unitZ (Standards.originDrift ℝ *
      (date.elapsed / Standards.secondsPerCentury ℝ)) =
        .ok (swing third.unit (-driftAt date)) := by
    rw [← ofAxisAngle_neg_unit, neg_neg]
    rfl
  have hinner := (hasUnitNorm_swing second.unit pole.xp).compose_eq
    (hasUnitNorm_swing first.unit pole.yp)
  have houter := (hasUnitNorm_swing third.unit (-driftAt date)).compose_eq
    ((hasUnitNorm_swing second.unit pole.xp).mul (hasUnitNorm_swing first.unit pole.yp))
  refine (bind_eq_of_ok date.sinceJ2000_real).trans ?_
  refine (bind_eq_of_ok hpole).trans ?_
  refine (bind_eq_of_ok (ofAxisAngle_neg_unit first pole.yp)).trans ?_
  refine (bind_eq_of_ok (ofAxisAngle_neg_unit second pole.xp)).trans ?_
  refine (bind_eq_of_ok hdrift).trans ?_
  refine (bind_eq_of_ok hinner).trans ?_
  exact bind_eq_of_ok houter

/-- A transform without translation that turns by this inverse moves the pole so. -/
theorem movesPole (pole : PoleCorrection ℝ) (date : Instant ℝ) :
    MovesPole pole date (.ofRotation date (.fixed (polarTurn pole (driftAt date)).revert)) := by
  have hunit := (hasUnitNorm_polarTurn pole (driftAt date)).revert
  have hmap (v : Vec3 ℝ) : (polarTurn pole (driftAt date)).revert.apply v =
      (polarMatrix pole (driftAt date)).apply v := by
    rw [hunit.apply_eq_matrix_apply, matrix_revert_polarTurn]
  exact {
    matrix_eq := matrix_revert_polarTurn pole (driftAt date)
    isRigid := hunit
    mapVector_eq := hmap
    mapVector_unitZ := (hmap _).trans (polarMatrix_apply_unitZ _ _)
    rate_eq := Vec3.zero_eq
    acceleration_eq := Vec3.zero_eq
    cartesian_eq := rfl
    date_eq := rfl }

/-- Data have coordinates for the instants that they cover. -/
theorem exists_poleCorrection (h : data.Covers date) :
    ∃ pole, poleCorrection data date = .ok pole := by
  cases data with
  | none => exact ⟨_, rfl⟩
  | table records => exact ⟨_, PoleTable.Covers.correction_eq h⟩
  | other value => exact h.elim

/-- At every instant that the data of the pole cover, polar motion is the transposed product of the
three elementary turns, at rest. -/
theorem poleMotion_turns (h : data.Covers date) :
    ∃ pole transform, poleCorrection data date = .ok pole ∧
      poleMotion data date = .ok transform ∧ MovesPole pole date transform := by
  obtain ⟨pole, hpole⟩ := exists_poleCorrection h
  exact ⟨pole, _, hpole, poleMotion_eq hpole, movesPole pole date⟩

/-- A table of one day. -/
noncomputable def oneDay : PoleData ℝ :=
  .table ⟨PoleTable.record PoleTable.morning, [PoleTable.record PoleTable.evening]⟩

/-- Halfway between two records of a table the motion of the pole has the interpolated
coordinates. -/
theorem poleMotion_oneDay :
    oneDay.Covers ⟨0, 0.5⟩ ∧ ∃ pole transform, poleCorrection oneDay ⟨0, 0.5⟩ = .ok pole ∧
      poleMotion oneDay ⟨0, 0.5⟩ = .ok transform ∧ MovesPole pole ⟨0, 0.5⟩ transform := by
  have hcovers : oneDay.Covers ⟨0, 0.5⟩ := by
    change _ ≤ _ ∧ _ ≤ _
    norm_num [PoleTable.record, PoleTable.morning, PoleTable.evening, PoleTable.last,
      Instant.elapsed]
  exact ⟨hcovers, poleMotion_turns hcovers⟩

end Earth

end FrameKinematics
