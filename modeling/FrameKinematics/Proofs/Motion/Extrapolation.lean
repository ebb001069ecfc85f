import FrameKinematics.Proofs.Linear.ScalarProduct
import FrameKinematics.Proofs.Motion.ChangeOfFrame
import FrameKinematics.Proofs.Source.Runs

/-!
# Extrapolation of angular motions

An angular motion is extrapolated by two turns of the frame, one about its rate and one about its
acceleration. A turn about no vector is no turn, so the cases in which the rate or the acceleration
vanish are no exceptions, and for unit quaternions the extrapolation never fails.
-/

namespace FrameKinematics

namespace Rotation

variable (w : Vec3 ℝ) (φ : ℝ)

/-- The turn of a frame that turns at the rate `w` for the time `φ`. Where `w` vanishes the quotient
is zero, and the frame does not turn. -/
noncomputable def swing : Rotation ℝ :=
  let sine := -(Real.sin (0.5 * (w.norm * φ)) / w.norm)
  ⟨⟨Real.cos (0.5 * (w.norm * φ)), sine * w.x, sine * w.y, sine * w.z⟩⟩

/-- The scalar part of a swing is the cosine of half its angle. -/
theorem swing_w : (swing w φ).quaternion.w = Real.cos (0.5 * (w.norm * φ)) := rfl

/-- The vector part of a turn is a multiple of the rate. -/
theorem swing_vector : (swing w φ).quaternion.vector =
    (-(Real.sin (0.5 * (w.norm * φ)) / w.norm)) • w := rfl

/-- A swing is a rotation. -/
theorem hasUnitNorm_swing : (swing w φ).HasUnitNorm := by
  by_cases hnorm : w.norm = 0
  · simp [HasUnitNorm, Quaternion.HasUnitNorm, Quaternion.normSq, swing, hnorm]
  · have hcircle := Real.cos_sq_add_sin_sq (0.5 * (w.norm * φ))
    have hlength := Vec3.norm_mul_norm w
    have hquotient : (Real.sin (0.5 * (w.norm * φ)) / w.norm) ^ 2 * (w.norm * w.norm) =
        Real.sin (0.5 * (w.norm * φ)) ^ 2 := by
      field_simp
    simp only [HasUnitNorm, Quaternion.HasUnitNorm, Quaternion.normSq, swing]
    linear_combination hcircle + hquotient -
      (Real.sin (0.5 * (w.norm * φ)) / w.norm) ^ 2 * hlength

/-- After no time the frame has not turned. -/
@[simp] theorem swing_zero : swing w 0 = identity := by
  ext <;> simp [swing, identity, Quaternion.one]

/-- A frame without a rate does not turn. -/
@[simp] theorem zero_swing : swing 0 φ = identity := by
  ext <;> simp [swing, identity, Quaternion.one, Vec3.norm_eq]

/-- The rotation of a frame about an axis is a turn at the rate of the axis. -/
theorem ofAxisAngle_eq_swing {w : Vec3 ℝ} (hw : w ≠ 0) (angle : ℝ) :
    ofAxisAngle w angle .frameTransform = .ok (swing w (angle / w.norm)) := by
  have hnorm : w.norm ≠ 0 := mt Vec3.norm_eq_zero.mp hw
  have hnonzero : ¬(w.norm == 0.0) = true := by
    rw [Scalar.zero_literal, beq_iff_eq]
    exact hnorm
  have hangle : w.norm * (angle / w.norm) = angle := mul_div_cancel₀ _ hnorm
  have hcos : Scalar.cos (0.5 * -angle : ℝ) = Real.cos (0.5 * angle) := by
    rw [mul_neg]
    exact Real.cos_neg _
  have hsin : Scalar.sin (0.5 * -angle : ℝ) = -Real.sin (0.5 * angle) := by
    rw [mul_neg]
    exact Real.sin_neg _
  rw [ofAxisAngle]
  refine (if_neg hnonzero).trans ?_
  dsimp only
  rw [hcos, hsin, swing, hangle, neg_div]
  rfl

end Rotation

namespace AngularMotion

variable (a : AngularMotion ℝ) (dt : ℝ)

/-- An angular motion at a rate that stays. -/
noncomputable def steady (rotation : Rotation ℝ) (rate : Vec3 ℝ) : AngularMotion ℝ :=
  ⟨rotation, rate, .zero⟩

/-- The angular motion after a time: a turn about the rate, which stays, and then one about the
acceleration. -/
noncomputable def extrapolated : AngularMotion ℝ :=
  (steady ((Rotation.swing a.rate dt).mul a.rotation) a.rate).andThen
    ⟨Rotation.swing a.acceleration (0.5 * dt * dt), dt • a.acceleration, a.acceleration⟩

/-- After no time an angular motion is what it was. -/
@[simp] theorem extrapolated_zero : a.extrapolated 0 = a := by
  rw [extrapolated, steady]
  ext1 <;> simp

variable {a}

/-- An extrapolated motion keeps its unit quaternion. -/
theorem hasUnitNorm_extrapolated (ha : a.rotation.HasUnitNorm) :
    (a.extrapolated dt).rotation.HasUnitNorm :=
  (Rotation.hasUnitNorm_swing _ _).mul ((Rotation.hasUnitNorm_swing _ _).mul ha)

/-- The turn about the acceleration, also where there is none. -/
theorem bend_eq {linear : AngularMotion ℝ} (hlinear : linear.rotation.HasUnitNorm)
    (v : Vec3 ℝ) :
    (if v.norm == 0.0 then pure linear
      else Rotation.ofAxisAngle v (0.5 * v.norm * dt * dt) .frameTransform >>= fun bend =>
        linear.compose ⟨bend, dt • v, v⟩ : Except (Fault ℝ) (AngularMotion ℝ)) =
      .ok (linear.andThen ⟨Rotation.swing v (0.5 * dt * dt), dt • v, v⟩) := by
  rw [Scalar.zero_literal]
  by_cases hv : v = 0
  · have hstill : (⟨.identity, dt • (0 : Vec3 ℝ), 0⟩ : AngularMotion ℝ) = identity := by
      ext1 <;> simp
    rw [if_pos (beq_iff_eq.mpr (Vec3.norm_eq_zero.mpr hv)), hv, Rotation.zero_swing, hstill,
      andThen_identity]
    rfl
  · have hnorm : v.norm ≠ 0 := mt Vec3.norm_eq_zero.mp hv
    have htime : 0.5 * v.norm * dt * dt / v.norm = 0.5 * dt * dt := by
      field_simp
    have hbend := Rotation.ofAxisAngle_eq_swing hv (0.5 * v.norm * dt * dt)
    rw [htime] at hbend
    rw [if_neg (by rwa [beq_iff_eq]), bind_eq_of_ok hbend]
    exact compose_eq hlinear (Rotation.hasUnitNorm_swing _ _)

/-- Angular motions with unit quaternions are extrapolated without failure. -/
theorem shift_eq (ha : a.rotation.HasUnitNorm) : a.shift dt = .ok (a.extrapolated dt) := by
  have hturned := (Rotation.hasUnitNorm_swing a.rate dt).compose_eq ha
  have hlinear : ((Rotation.swing a.rate dt).mul a.rotation).HasUnitNorm :=
    (Rotation.hasUnitNorm_swing a.rate dt).mul ha
  have hbend := @bend_eq dt (steady ((Rotation.swing a.rate dt).mul a.rotation) a.rate) hlinear
    a.acceleration
  rw [extrapolated]
  by_cases hrate : a.rate = 0
  · have hspeed : (a.rate.norm == 0.0) = true := by
      rw [Scalar.zero_literal, beq_iff_eq]
      exact Vec3.norm_eq_zero.mpr hrate
    have hswing : Rotation.swing a.rate dt = .identity := by rw [hrate, Rotation.zero_swing]
    rw [hswing] at hturned hbend ⊢
    refine (if_pos hspeed).trans ?_
    exact (bind_eq_of_ok hturned).trans hbend
  · have hnorm : a.rate.norm ≠ 0 := mt Vec3.norm_eq_zero.mp hrate
    have hspeed : ¬(a.rate.norm == 0.0) = true := by
      rwa [Scalar.zero_literal, beq_iff_eq]
    have hrevolution := Rotation.ofAxisAngle_eq_swing hrate (a.rate.norm * dt)
    rw [mul_div_cancel_left₀ _ hnorm] at hrevolution
    refine (if_neg hspeed).trans ?_
    refine (bind_eq_of_ok hrevolution).trans ?_
    exact (bind_eq_of_ok hturned).trans hbend

/-- The rate between two rotations with unit quaternions. -/
theorem estimateRate_eq {start finish : Rotation ℝ} (hstart : start.HasUnitNorm)
    (hfinish : finish.HasUnitNorm) (dt : ℝ) :
    estimateRate start finish dt = .ok ((-(finish.mul start.revert).toVector) / dt) :=
  bind_eq_of_ok (hfinish.compose_eq hstart.revert)

end AngularMotion

end FrameKinematics
