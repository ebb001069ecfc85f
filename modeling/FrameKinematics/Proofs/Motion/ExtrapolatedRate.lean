import Mathlib.Analysis.SpecialFunctions.Trigonometric.Bounds
import FrameKinematics.Proofs.Motion.Paths

/-!
# The rate after an extrapolation

The second turn of an extrapolation is about the acceleration, and it takes the rate along. The
rate that comes out is therefore the linear one only where that turn leaves the rate in place: where
the rate is parallel to the acceleration, or after whole turns. Elsewhere the two differ by a
vector that is at right angles to the acceleration, and of second order in the time.
-/

namespace FrameKinematics

namespace Rotation

variable (w : Vec3 ℝ) (φ : ℝ) (v : Vec3 ℝ)

/-- A turn moves a vector at right angles to its axis. -/
theorem dot_swing_apply_sub : w.dot ((swing w φ).apply v - v) = 0 := by
  rw [swing_apply, Vec3.dot_comm]
  simp

/-- A turn moves a vector along two vectors at right angles to each other. One of them is as long as
the other, times the length of the axis. -/
theorem norm_sq_swing_apply_sub {w : Vec3 ℝ} (hw : w ≠ 0) :
    ((swing w φ).apply v - v).norm ^ 2 =
      ((1 - Real.cos (w.norm * φ)) ^ 2 + Real.sin (w.norm * φ) ^ 2) *
        ((w.cross v).norm / w.norm) ^ 2 := by
  have hnorm : w.norm ≠ 0 := mt Vec3.norm_eq_zero.mp hw
  have hmoved : (swing w φ).apply v - v =
      ((1 - Real.cos (w.norm * φ)) / (w.norm * w.norm)) • w.cross (w.cross v) -
        (Real.sin (w.norm * φ) / w.norm) • w.cross v := by
    rw [swing_apply]
    abel
  have horthogonal : (w.cross (w.cross v)).dot (w.cross v) = 0 := Vec3.cross_dot_right _ _
  rw [Vec3.norm_sq, hmoved]
  simp only [Vec3.dot_sub, Vec3.sub_dot, Vec3.dot_smul, Vec3.smul_dot, horthogonal,
    Vec3.dot_comm (w.cross v) (w.cross (w.cross v)), Vec3.cross_cross_dot_self,
    ← Vec3.norm_sq w, ← Vec3.norm_sq (w.cross v)]
  field_simp
  ring

/-- A turn moves a vector by twice the sine of half its angle, times the distance of the vector from
the axis. -/
theorem norm_swing_apply_sub :
    ((swing w φ).apply v - v).norm =
      2 * |Real.sin (0.5 * (w.norm * φ))| * ((w.cross v).norm / w.norm) := by
  by_cases hw : w = 0
  · simp [hw]
  have hhalf : w.norm * φ = 2 * (0.5 * (w.norm * φ)) := by ring
  have hversine := Real.sin_sq_eq_half_sub (0.5 * (w.norm * φ))
  rw [← hhalf] at hversine
  have hsquare : ((swing w φ).apply v - v).norm ^ 2 =
      (2 * |Real.sin (0.5 * (w.norm * φ))| * ((w.cross v).norm / w.norm)) ^ 2 := by
    rw [norm_sq_swing_apply_sub φ v hw, mul_pow _ (_ / _), mul_pow 2, sq_abs, hversine, Real.sin_sq]
    ring
  refine (pow_left_inj₀ (Vec3.norm_nonneg _) ?_ two_ne_zero).mp hsquare
  exact mul_nonneg (by positivity) (div_nonneg (Vec3.norm_nonneg _) (Vec3.norm_nonneg _))

/-- In a short time a turn moves a vector little. -/
theorem norm_swing_apply_sub_le :
    ((swing w φ).apply v - v).norm ≤ |φ| * (w.cross v).norm := by
  by_cases hw : w = 0
  · simp [hw]
  have hnorm : w.norm ≠ 0 := mt Vec3.norm_eq_zero.mp hw
  have hdistance : 0 ≤ (w.cross v).norm / w.norm :=
    div_nonneg (Vec3.norm_nonneg _) (Vec3.norm_nonneg _)
  calc ((swing w φ).apply v - v).norm
      = 2 * |Real.sin (0.5 * (w.norm * φ))| * ((w.cross v).norm / w.norm) :=
        norm_swing_apply_sub w φ v
    _ ≤ 2 * |0.5 * (w.norm * φ)| * ((w.cross v).norm / w.norm) := by
        gcongr ?_ * _
        exact mul_le_mul_of_nonneg_left Real.abs_sin_le_abs two_pos.le
    _ = |φ| * (w.cross v).norm := by
        rw [abs_mul, abs_mul, abs_of_nonneg w.norm_nonneg, abs_of_pos (by norm_num : (0 : ℝ) < 0.5)]
        field_simp
        ring

/-- A turn leaves in place the vectors along its axis, and after whole turns all of them. -/
theorem swing_apply_eq_self_iff :
    (swing w φ).apply v = v ↔
      w.cross v = 0 ∨ ∃ turns : ℤ, turns * (2 * Real.pi) = w.norm * φ := by
  have hturns : Real.sin (0.5 * (w.norm * φ)) = 0 ↔
      ∃ turns : ℤ, turns * (2 * Real.pi) = w.norm * φ := by
    rw [Real.sin_eq_zero_iff]
    refine exists_congr fun turns => ⟨fun h => ?_, fun h => ?_⟩
    · linear_combination 2 * h
    · linear_combination 0.5 * h
  rw [← sub_eq_zero, ← Vec3.norm_eq_zero, norm_swing_apply_sub, ← hturns, ← Vec3.norm_eq_zero]
  constructor
  · intro hmoved
    rcases mul_eq_zero.mp hmoved with hsine | hdistance
    · exact .inr (by simpa using hsine)
    · rcases div_eq_zero_iff.mp hdistance with hcross | hnorm
      · exact .inl hcross
      · refine .inl (Vec3.norm_eq_zero.mpr ?_)
        rw [Vec3.norm_eq_zero.mp hnorm, Vec3.zero_cross]
  · rintro (hcross | hsine)
    · rw [hcross, zero_div, mul_zero]
    · rw [hsine, abs_zero, mul_zero, zero_mul]

end Rotation

namespace AngularMotion

variable (a : AngularMotion ℝ) (dt : ℝ)

/-- The rate after a time, where the acceleration is uniform. -/
noncomputable def linearRate : Vec3 ℝ := a.rate + dt • a.acceleration

/-- The angle of the turn about the acceleration. -/
noncomputable def bendAngle : ℝ := a.acceleration.norm * (0.5 * dt * dt)

/-- How the rate of `b`, a time `dt` after `a`, differs from the linear one. -/
structure BendsRate (b : AngularMotion ℝ) : Prop where
  /-- The old rate is turned about the acceleration before the gained rate is added. -/
  rate_eq : b.rate = a.linearRate dt -
    (Real.sin (a.bendAngle dt) / a.acceleration.norm) • a.acceleration.cross a.rate +
    ((1 - Real.cos (a.bendAngle dt)) / (a.acceleration.norm * a.acceleration.norm)) •
      a.acceleration.cross (a.acceleration.cross a.rate)
  /-- Along the acceleration the rate is linear. -/
  dot_rate : a.acceleration.dot b.rate = a.acceleration.dot (a.linearRate dt)
  /-- The distance from the linear rate is a chord of the turn. -/
  distance_eq : (b.rate - a.linearRate dt).norm =
    2 * |Real.sin (0.5 * a.bendAngle dt)| *
      ((a.acceleration.cross a.rate).norm / a.acceleration.norm)
  /-- The distance is of second order in the time. -/
  distance_le : (b.rate - a.linearRate dt).norm ≤
    0.5 * dt * dt * (a.acceleration.cross a.rate).norm
  /-- The rate is linear if and only if it is parallel to the acceleration or the turns are whole. -/
  linear_iff : b.rate = a.linearRate dt ↔
    a.acceleration.cross a.rate = 0 ∨ ∃ turns : ℤ, turns * (2 * Real.pi) = a.bendAngle dt

/-- The rate of an extrapolation is the linear one up to what the second turn moves. -/
theorem extrapolated_rate_sub :
    (a.extrapolated dt).rate - a.linearRate dt =
      (Rotation.swing a.acceleration (0.5 * dt * dt)).apply a.rate - a.rate := by
  simp only [extrapolated, steady, linearRate, andThen_rate]
  abel

variable {a}

/-- The extrapolation of an angular motion with a unit quaternion does not fail, and its rate is the
linear one only up to a turn about the acceleration. -/
theorem shift_bendsRate (ha : a.rotation.HasUnitNorm) :
    ∃ b, a.shift dt = .ok b ∧ a.BendsRate dt b := by
  refine ⟨a.extrapolated dt, shift_eq dt ha, ?_⟩
  have hmoved := a.extrapolated_rate_sub dt
  have htime : |0.5 * dt * dt| = 0.5 * dt * dt := by
    rw [mul_assoc]
    exact abs_of_nonneg (mul_nonneg (by norm_num) (mul_self_nonneg dt))
  refine ⟨?rate, ?dot, ?distance, ?bound, ?linear⟩
  case rate =>
    rw [Rotation.swing_apply] at hmoved
    rw [eq_add_of_sub_eq hmoved, bendAngle]
    abel
  case dot =>
    rw [← sub_eq_zero, ← Vec3.dot_sub, hmoved]
    exact Rotation.dot_swing_apply_sub _ _ _
  case distance =>
    rw [hmoved]
    exact Rotation.norm_swing_apply_sub _ _ _
  case bound =>
    have hle := Rotation.norm_swing_apply_sub_le a.acceleration (0.5 * dt * dt) a.rate
    rwa [htime, ← hmoved] at hle
  case linear =>
    rw [← sub_eq_zero, hmoved, sub_eq_zero]
    exact Rotation.swing_apply_eq_self_iff _ _ _

/-- A frame that turns about the first axis, and starts to turn about the third one. -/
noncomputable def nodding : AngularMotion ℝ := ⟨.identity, ⟨1, 0, 0⟩, ⟨0, 0, 1⟩⟩

/-- The shift of a motion whose acceleration is at right angles to its rate bends the rate. -/
theorem nodding_bendsRate :
    nodding.rotation.HasUnitNorm ∧ ∃ b, nodding.shift 1 = .ok b ∧ nodding.BendsRate 1 b :=
  ⟨Rotation.hasUnitNorm_identity, shift_bendsRate 1 Rotation.hasUnitNorm_identity⟩

/-- After a second the rate has left the plane of the rate and the acceleration. -/
theorem nodding_leaves_linearRate :
    nodding.rotation.HasUnitNorm ∧
      ∃ b, nodding.shift 1 = .ok b ∧ b.rate ≠ nodding.rate + (1 : ℝ) • nodding.acceleration := by
  refine ⟨Rotation.hasUnitNorm_identity, nodding.extrapolated 1,
    shift_eq 1 Rotation.hasUnitNorm_identity, fun hlinear => ?_⟩
  have hnorm : nodding.acceleration.norm = 1 := Vec3.norm_of_dot_self (by simp [nodding, Vec3.dot])
  have hmoved := nodding.extrapolated_rate_sub 1
  rw [hlinear, linearRate, sub_self, Rotation.swing_apply, hnorm] at hmoved
  have hsine : Real.sin 0.5 = 0 := by
    have hy := congrArg Vec3.y hmoved
    simpa [nodding] using hy
  have hpositive : 0 < Real.sin 0.5 :=
    Real.sin_pos_of_pos_of_lt_pi (by norm_num) (by linarith [Real.two_le_pi])
  exact hpositive.ne' hsine

end AngularMotion

end FrameKinematics
