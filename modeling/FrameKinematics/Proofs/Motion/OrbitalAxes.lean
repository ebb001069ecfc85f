import FrameKinematics.Proofs.Motion.Consistency
import FrameKinematics.Proofs.Motion.MovingAxes
import FrameKinematics.Orbit

/-!
# Axes along an orbit

The axes that go along with a spacecraft are directions and vector products of its motion, and all of
these come with consistent derivatives as the motion goes on with its acceleration. Unless the
velocity is along the position, the axes are orthonormal, so they turn, and the angular motion that is
found from them has their rate and its derivative, at every time and not for circular orbits only.
-/

open scoped Topology

namespace FrameKinematics

/-- Two unit vectors at a right angle and their vector product are the rows of a rotation matrix. -/
theorem Mat3.isSpecialOrthogonal_of_pair {u w : Vec3 ℝ} (hu : u.dot u = 1) (hw : w.dot w = 1)
    (hwu : w.dot u = 0) : (⟨u, w.cross u, w⟩ : Mat3 ℝ).IsSpecialOrthogonal := by
  have huw : u.dot w = 0 := by rw [Vec3.dot_comm, hwu]
  have hsquare : (w.cross u).dot (w.cross u) = 1 := by
    rw [Vec3.cross_dot_cross_self, hw, hu, hwu]
    norm_num
  have hleft : w.dot (w.cross u) = 0 := by rw [Vec3.dot_comm, Vec3.cross_dot_left]
  have hright : u.dot (w.cross u) = 0 := by rw [Vec3.dot_comm, Vec3.cross_dot_right]
  apply IsSpecialOrthogonal.of_rows
  · simp [mulTranspose, apply, one, Vec3.unitX, Vec3.unitY, Vec3.unitZ, hu, hw, hwu, huw, hsquare,
      hleft, hright]
  · rw [det, Vec3.dot_cross_rotate, hsquare]

namespace OrbitalAxes

open Motion

/-- The motion whose direction is the first axis. -/
noncomputable def primary : OrbitalAxes → Motion ℝ → Motion ℝ
  | qsw, m => m
  | tnw, m => velocityOf m

/-- The orbital momentum with its derivatives. -/
noncomputable def momentumOf (m : Motion ℝ) : Motion ℝ := m.cross (velocityOf m)

/-- The matrix of the three axes, with its derivatives. -/
noncomputable def axesAlong (axes : OrbitalAxes) (m : Motion ℝ) : Jet (Mat3 ℝ) :=
  AngularMotion.axesMatrix (axes.primary m).direction
    ((momentumOf m).direction.cross (axes.primary m).direction) (momentumOf m).direction

variable (axes : OrbitalAxes) (m : Motion ℝ) {s : ℝ}

/-- The first axis is at a right angle to the momentum. -/
theorem momentum_dot_primary : m.momentum.dot (axes.primary m).position = 0 := by
  cases axes
  · exact Vec3.cross_dot_left _ _
  · exact Vec3.cross_dot_right _ _

section Noncollinear

variable {m}

/-- With a momentum, the first axis has a direction. -/
theorem primary_ne_zero (hm : m.momentum ≠ 0) : (axes.primary m).position ≠ 0 := by
  intro hzero
  apply hm
  cases axes
  · change m.position = 0 at hzero
    rw [momentum, hzero, Vec3.zero_cross]
  · change m.velocity = 0 at hzero
    rw [momentum, hzero, Vec3.cross_zero]

/-- The axes are orthonormal. -/
theorem isSpecialOrthogonal_axesAlong (hm : m.momentum ≠ 0) :
    (axes.axesAlong m).value.IsSpecialOrthogonal := by
  apply Mat3.isSpecialOrthogonal_of_pair
  · exact direction_dot_self (axes.primary_ne_zero hm)
  · exact direction_dot_self (m := momentumOf m) hm
  · rw [direction_position, direction_position, Vec3.div_eq_smul, Vec3.div_eq_smul, Vec3.smul_dot,
      Vec3.dot_smul]
    exact (congrArg _ (congrArg _ (axes.momentum_dot_primary m))).trans (by simp)

/-- The angular motion is found from the axes. -/
theorem angular_eq_ofAxes (hm : m.momentum ≠ 0) :
    axes.angular m = AngularMotion.ofAxes (axes.primary m).direction
      ((momentumOf m).direction.cross (axes.primary m).direction) (momentumOf m).direction := by
  have hthird : (m.cross (velocityOf m)).normalize = .ok (momentumOf m).direction := normalize_eq hm
  have hfirst := normalize_eq (axes.primary_ne_zero hm)
  unfold angular
  refine (bind_eq_of_ok hthird).trans ?_
  cases axes
  · exact bind_eq_of_ok hfirst
  · exact bind_eq_of_ok hfirst

end Noncollinear

/-- Where the velocity is along the position, the third axis is missing. -/
theorem angular_of_collinear (hm : m.momentum = 0) : axes.angular m = .error .zeroPosition := by
  have hthird : (m.cross (velocityOf m)).normalize = .error .zeroPosition := normalize_of_zero hm
  unfold angular
  rw [hthird]
  rfl

section Path

/-- The velocity goes on with the motion, and its own acceleration stays zero. -/
theorem velocityOf_shift (s : ℝ) : velocityOf (m.shift s) = (velocityOf m).shift s := by
  unfold velocityOf shift
  ext1 <;> simp

/-- The motion behind the first axis is consistent along an extrapolation. -/
theorem primary_isConsistentAt (s : ℝ) : IsConsistentAt (fun t => axes.primary (m.shift t)) s := by
  cases axes
  · exact m.shift_isConsistentAt s
  · have hpath : (fun t => tnw.primary (m.shift t)) = (velocityOf m).shift :=
      funext fun t => velocityOf_shift m t
    rw [hpath]
    exact (velocityOf m).shift_isConsistentAt s

/-- The momentum is consistent along an extrapolation. -/
theorem momentumOf_isConsistentAt (s : ℝ) : IsConsistentAt (fun t => momentumOf (m.shift t)) s :=
  (m.shift_isConsistentAt s).cross (tnw.primary_isConsistentAt m s)

variable {m}

/-- The matrix of the axes comes with its derivatives. -/
theorem axesAlong_hasDerivativeAt (hm : (m.shift s).momentum ≠ 0) :
    Mat3.HasDerivativeAt (fun t => (axes.axesAlong (m.shift t)).value)
        (axes.axesAlong (m.shift s)).first s ∧
      Mat3.HasDerivativeAt (fun t => (axes.axesAlong (m.shift t)).first)
        (axes.axesAlong (m.shift s)).second s := by
  have hfirst := (axes.primary_isConsistentAt m s).direction (axes.primary_ne_zero hm)
  have hthird := (momentumOf_isConsistentAt m s).direction hm
  have hsecond := hthird.cross hfirst
  exact ⟨⟨hfirst.velocity, hsecond.velocity, hthird.velocity⟩,
    ⟨hfirst.acceleration, hsecond.acceleration, hthird.acceleration⟩⟩

/-- A momentum that is not zero is not zero for a while before and after. -/
theorem eventually_momentum_ne_zero (hm : (m.shift s).momentum ≠ 0) :
    ∀ᶠ t in 𝓝 s, (m.shift t).momentum ≠ 0 :=
  (momentumOf_isConsistentAt m s).velocity.eventually_ne_zero hm

/-- The axes turn, and their rotation, their rate and its derivative are found. -/
theorem exists_angular (hm : m.momentum ≠ 0) :
    ∃ a, axes.angular m = .ok a ∧ a.rotation.HasUnitNorm ∧
      a.rotation.matrix = (axes.axesAlong m).value ∧
      (axes.axesAlong m).Turns a.rate a.acceleration := by
  have hstart : (m.shift 0).momentum ≠ 0 := by rwa [shift_zero]
  have hnear := eventually_momentum_ne_zero hstart
  obtain ⟨rate, acceleration, hturns⟩ :=
    Jet.exists_turns_of_path (hnear.mono fun t ht => axes.isSpecialOrthogonal_axesAlong ht)
      (hnear.mono fun t ht => (axes.axesAlong_hasDerivativeAt ht).1)
      (axes.axesAlong_hasDerivativeAt hstart).2
  rw [shift_zero] at hturns
  obtain ⟨r, haxes, hunit, hmatrix⟩ :=
    AngularMotion.exists_ofAxes (axes.isSpecialOrthogonal_axesAlong hm) hturns
  exact ⟨_, (axes.angular_eq_ofAxes hm).trans haxes, hunit, hmatrix, hturns⟩

end Path

/-- The axes are refused where the third one is, and for the same reason. -/
theorem angular_eq_error_iff (fault : Fault ℝ) :
    axes.angular m = .error fault ↔ fault = .zeroPosition ∧ m.momentum = 0 := by
  by_cases hm : m.momentum = 0
  · have hthird := normalize_eq_error_iff (momentumOf m) fault
    rw [normalize_of_zero (m := momentumOf m) hm, Except.error.injEq] at hthird
    rw [axes.angular_of_collinear m hm, Except.error.injEq]
    exact hthird
  · obtain ⟨a, hangular, -⟩ := axes.exists_angular hm
    rw [hangular]
    simp [hm]

/-- An angular motion has the axes of a moving spacecraft and turns as they do. -/
structure TurnsAlong (axes : OrbitalAxes) (m : Motion ℝ) (a : AngularMotion ℝ) : Prop where
  /-- The direction of the position, or of the velocity, is the first axis. -/
  first_axis :
    a.rotation.apply ((axes.primary m).position / (axes.primary m).position.norm) = .unitX
  /-- The direction of the orbital momentum is the third axis. -/
  third_axis : a.rotation.apply (m.momentum / m.momentum.norm) = .unitZ
  /-- As the motion goes on, the matrix `M` of the rotation has the derivatives that the rate and the
  acceleration give at the start: `dM/dt = -[w ×] M` and `d²M/dt² = -[w' ×] M - [w ×] dM/dt`. -/
  exists_matrix : ∃ M M' : ℝ → Mat3 ℝ,
    (∀ᶠ s in 𝓝 0, (∃ b, axes.angular (m.shift s) = .ok b ∧ b.rotation.matrix = M s) ∧
      Mat3.HasDerivativeAt M (M' s) s) ∧
    M 0 = a.rotation.matrix ∧ M' 0 = -(Mat3.skew a.rate).mul (M 0) ∧
    Mat3.HasDerivativeAt M'
      (-(Mat3.skew a.acceleration).mul (M 0) - (Mat3.skew a.rate).mul (M' 0)) 0

/-- What is found from the axes turns along with them. -/
theorem turnsAlong_of_turns {a : AngularMotion ℝ} (hm : m.momentum ≠ 0)
    (hunit : a.rotation.HasUnitNorm) (hmatrix : a.rotation.matrix = (axes.axesAlong m).value)
    (hturns : (axes.axesAlong m).Turns a.rate a.acceleration) : axes.TurnsAlong m a := by
  obtain ⟨hfirst, -, hthird⟩ := hunit.apply_rows
  rw [hmatrix] at hfirst hthird
  have hstart : (m.shift 0).momentum ≠ 0 := by rwa [shift_zero]
  refine ⟨?_, ?_, fun s => (axes.axesAlong (m.shift s)).value,
    fun s => (axes.axesAlong (m.shift s)).first, ?_, ?_, ?_, ?_⟩
  · rwa [← direction_position]
  · exact (congrArg _ (momentumOf m).direction_position.symm).trans hthird
  · filter_upwards [eventually_momentum_ne_zero hstart] with s hs
    obtain ⟨b, hb, -, hmatrix', -⟩ := axes.exists_angular hs
    exact ⟨⟨b, hb, hmatrix'⟩, (axes.axesAlong_hasDerivativeAt hs).1⟩
  · simp only [shift_zero, hmatrix]
  · simp only [shift_zero, hturns.first]
  · have hsecond := (axes.axesAlong_hasDerivativeAt hstart).2
    simp only [shift_zero] at hsecond ⊢
    rwa [← hturns.second]

/-- The axes along an orbit are refused exactly where the velocity is along the position or one of
them is zero, and for no other reason. Otherwise their angular motion has the axes that it should
have, and its rate and acceleration are those with which the axes turn. -/
theorem angular_turnsAlong :
    (∀ fault, axes.angular m = .error fault ↔ fault = .zeroPosition ∧ m.momentum = 0) ∧
      (m.momentum ≠ 0 → ∃ a, axes.angular m = .ok a ∧ axes.TurnsAlong m a) := by
  refine ⟨axes.angular_eq_error_iff m, fun hm => ?_⟩
  obtain ⟨a, hangular, hunit, hmatrix, hturns⟩ := axes.exists_angular hm
  exact ⟨a, hangular, axes.turnsAlong_of_turns m hm hunit hmatrix hturns⟩

/-- A motion that is neither circular nor steady. -/
noncomputable def swerving : Motion ℝ := ⟨⟨1, 0.5, -1⟩, ⟨0, 1, 1.5⟩, ⟨-1, 0, 0.5⟩⟩

/-- The axes of both kinds turn along with a motion that is neither circular nor steady. -/
theorem swerving_turnsAlong :
    swerving.momentum ≠ 0 ∧ (∃ a, qsw.angular swerving = .ok a ∧ qsw.TurnsAlong swerving a) ∧
      ∃ a, tnw.angular swerving = .ok a ∧ tnw.TurnsAlong swerving a := by
  have hmomentum : swerving.momentum ≠ 0 := by
    intro hzero
    have hx := congrArg Vec3.x hzero
    norm_num [swerving, momentum] at hx
  exact ⟨hmomentum, (angular_turnsAlong qsw swerving).2 hmomentum,
    (angular_turnsAlong tnw swerving).2 hmomentum⟩

end OrbitalAxes

end FrameKinematics
