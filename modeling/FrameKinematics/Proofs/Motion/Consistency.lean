import Mathlib.Tactic.Module
import FrameKinematics.Proofs.Linear.Derivatives
import FrameKinematics.Motion.Rodrigues

/-!
# Consistent motions

A motion holds a position, a velocity and an acceleration, and nothing keeps these from having nothing
to do with each other. Along a path of motions they are consistent at a time where the velocities are
the derivatives of the positions and the accelerations those of the velocities. Extrapolation with a
constant acceleration is consistent at all times. Vector products keep consistency, and so do
multiples with a scalar and its two derivatives. A direction is such a multiple, by the inverse of the
distance, so the formula for directions is consistent away from the origin.
-/

namespace FrameKinematics.Motion

section Directions

variable (k : Jet ℝ) (m : Motion ℝ)

/-- A motion times a scalar that changes in time. -/
noncomputable def stretched (k : Jet ℝ) (m : Motion ℝ) : Motion ℝ :=
  ⟨k.value • m.position, k.first • m.position + k.value • m.velocity,
    k.second • m.position + (2.0 * k.first) • m.velocity + k.value • m.acceleration⟩

/-- The inverse of the distance from the origin, with its two derivatives. -/
noncomputable def inverseDistance (m : Motion ℝ) : Jet ℝ :=
  let k := m.position.norm⁻¹
  ⟨k, -m.position.dot m.velocity * k ^ 3,
    3.0 * m.position.dot m.velocity ^ 2 * k ^ 5 -
      (m.velocity.dot m.velocity + m.position.dot m.acceleration) * k ^ 3⟩

/-- The direction of a motion, which has a meaning away from the origin. -/
noncomputable def direction (m : Motion ℝ) : Motion ℝ := m.stretched m.inverseDistance

variable {m}

/-- There is no direction in the origin. -/
theorem normalize_of_zero (hm : m.position = 0) : m.normalize = .error .zeroPosition := by
  unfold normalize
  rw [hm, Vec3.norm_zero, Scalar.zero_literal]
  exact if_pos (beq_self_eq_true 0)

/-- Away from the origin a motion is normalised to its direction. -/
theorem normalize_eq (hm : m.position ≠ 0) : m.normalize = .ok m.direction := by
  have hnorm : ¬(m.position.norm == 0.0) = true := by
    rw [Scalar.zero_literal, beq_iff_eq]
    exact mt Vec3.norm_eq_zero.mp hm
  unfold normalize
  refine (if_neg hnorm).trans (congrArg Except.ok ?_)
  simp only [Vec3.smul_dot, Vec3.dot_smul, Scalar.one_literal, Scalar.two_literal, one_div,
    direction, stretched, inverseDistance]
  ext1
  · rfl
  · module
  · norm_num only
    module

/-- A motion is refused exactly in the origin, and for this reason. -/
theorem normalize_eq_error_iff (m : Motion ℝ) (fault : Fault ℝ) :
    m.normalize = .error fault ↔ fault = .zeroPosition ∧ m.position = 0 := by
  by_cases hm : m.position = 0
  · rw [normalize_of_zero hm, Except.error.injEq]
    constructor
    · intro hfault
      exact ⟨hfault.symm, hm⟩
    · rintro ⟨rfl, -⟩
      rfl
  · rw [normalize_eq hm]
    simp [hm]

/-- The position of a direction is that of the motion, divided by its length. -/
theorem direction_position (m : Motion ℝ) :
    m.direction.position = m.position / m.position.norm :=
  (Vec3.div_eq_smul _ _).symm

/-- Directions have length one. -/
theorem direction_dot_self (hm : m.position ≠ 0) :
    m.direction.position.dot m.direction.position = 1 := by
  rw [direction_position, Vec3.dot_self_div_norm (mt Vec3.norm_eq_zero.mp hm)]

end Directions

/-- The velocities along a path of motions are the derivatives of the positions at a time, and the
accelerations are those of the velocities. -/
structure IsConsistentAt (path : ℝ → Motion ℝ) (s : ℝ) : Prop where
  velocity : Vec3.HasDerivativeAt (fun t => (path t).position) (path s).velocity s
  acceleration : Vec3.HasDerivativeAt (fun t => (path t).velocity) (path s).acceleration s

/-- After no time a motion is what it was. -/
@[simp] theorem shift_zero (m : Motion ℝ) : m.shift 0 = m := by
  unfold shift
  ext1 <;> simp

/-- Extrapolation is consistent at all times. -/
theorem shift_isConsistentAt (m : Motion ℝ) (s : ℝ) : IsConsistentAt m.shift s where
  velocity :=
    ⟨hasDerivAt_quadratic _ _ _ s, hasDerivAt_quadratic _ _ _ s, hasDerivAt_quadratic _ _ _ s⟩
  acceleration := ⟨hasDerivAt_linear _ _ s, hasDerivAt_linear _ _ s, hasDerivAt_linear _ _ s⟩

namespace IsConsistentAt

variable {p q : ℝ → Motion ℝ} {s : ℝ}

/-- Vector products of consistent motions are consistent. -/
theorem cross (hp : IsConsistentAt p s) (hq : IsConsistentAt q s) :
    IsConsistentAt (fun t => (p t).cross (q t)) s where
  velocity := hp.velocity.cross hq.velocity
  acceleration := by
    have hterms := (hp.acceleration.cross hq.velocity).add (hp.velocity.cross hq.acceleration)
    refine hterms.congr_slope ?_
    simp only [Motion.cross, Scalar.two_literal]
    module

/-- Multiples of consistent motions are consistent, if the scalar comes with its derivatives. -/
theorem stretched {k : ℝ → Jet ℝ} (hfirst : HasDerivAt (fun t => (k t).value) (k s).first s)
    (hsecond : HasDerivAt (fun t => (k t).first) (k s).second s) (hp : IsConsistentAt p s) :
    IsConsistentAt (fun t => (p t).stretched (k t)) s where
  velocity := hp.velocity.smul hfirst
  acceleration := by
    have hterms := (hp.velocity.smul hsecond).add (hp.acceleration.smul hfirst)
    refine hterms.congr_slope ?_
    simp only [Motion.stretched, Scalar.two_literal]
    module

/-- The inverse of the distance comes with its derivatives, away from the origin. -/
theorem inverseDistance (hp : IsConsistentAt p s) (hne : (p s).position ≠ 0) :
    HasDerivAt (fun t => (p t).inverseDistance.value) (p s).inverseDistance.first s ∧
      HasDerivAt (fun t => (p t).inverseDistance.first) (p s).inverseDistance.second s := by
  have hfirst := hp.velocity.inv_norm hne
  refine ⟨hfirst, ?_⟩
  refine ((hp.velocity.dot hp.acceleration).fun_neg.fun_mul (hfirst.fun_pow 3)).congr_deriv ?_
  simp only [Motion.inverseDistance]
  norm_num only
  ring

/-- Directions of consistent motions are consistent, away from the origin. -/
theorem direction (hp : IsConsistentAt p s) (hne : (p s).position ≠ 0) :
    IsConsistentAt (fun t => (p t).direction) s :=
  hp.stretched (hp.inverseDistance hne).1 (hp.inverseDistance hne).2

end IsConsistentAt

/-- Normalised and crossed motions stay consistent with their derivatives. Along the extrapolation of
a motion the normalised motions have the positions divided by their lengths, which have length one,
and are consistent at every time at which the motion is not in the origin. Vector products along two
extrapolations are consistent at every time. A motion is refused exactly in the origin, and for this
reason. -/
theorem normalize_cross_consistent (a b : Motion ℝ) :
    (∃ u : ℝ → Motion ℝ, ∀ s, (a.shift s).position ≠ 0 →
      (a.shift s).normalize = .ok (u s) ∧
        (u s).position = (a.shift s).position / (a.shift s).position.norm ∧
        (u s).position.norm = 1 ∧ IsConsistentAt u s) ∧
    (∀ s, IsConsistentAt (fun t => (a.shift t).cross (b.shift t)) s) ∧
    ∀ (m : Motion ℝ) fault, m.normalize = .error fault ↔ fault = .zeroPosition ∧ m.position = 0 := by
  refine ⟨⟨fun s => (a.shift s).direction, fun s hne =>
    ⟨normalize_eq hne, direction_position _, ?_, ?_⟩⟩, fun s => ?_, normalize_eq_error_iff⟩
  · exact Vec3.norm_of_dot_self (direction_dot_self hne)
  · exact (a.shift_isConsistentAt s).direction hne
  · exact (a.shift_isConsistentAt s).cross (b.shift_isConsistentAt s)

/-- A motion that passes the origin, where the velocity is not zero. -/
noncomputable def passing : Motion ℝ := ⟨⟨1, 0, -1⟩, ⟨-1, 0.5, 0.5⟩, ⟨0, -1, 1⟩⟩

/-- This motion has a direction once it has left the origin, and its normalised motions are consistent
there. -/
theorem passing_consistent :
    (passing.shift 2).position ≠ 0 ∧ (passing.shift 1).position = 0 ∧
      ∃ u : ℝ → Motion ℝ, (passing.shift 2).normalize = .ok (u 2) ∧
        (u 2).position = (passing.shift 2).position / (passing.shift 2).position.norm ∧
        (u 2).position.norm = 1 ∧ IsConsistentAt u 2 := by
  have haway : (passing.shift 2).position ≠ 0 := by
    intro hzero
    have hheight := congrArg Vec3.z hzero
    norm_num [passing, shift] at hheight
  have hthere : (passing.shift 1).position = 0 := by
    ext <;> norm_num [passing, shift]
  obtain ⟨⟨u, hu⟩, -, -⟩ := normalize_cross_consistent passing passing
  exact ⟨haway, hthere, u, hu 2 haway⟩

end FrameKinematics.Motion
