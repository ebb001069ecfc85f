import FrameKinematics.Proofs.Motion.Extrapolation
import FrameKinematics.Proofs.Motion.RodriguesInverse
import FrameKinematics.Proofs.Rotation.RotationVector

/-!
# Other axes

The axes of the two frames of an angular motion may be chosen anew, by a rotation on either side that
does not change. Turns about the rate, rates between rotations and modified Rodrigues parameters do
not depend on the axes of the old frame, and they are vectors of the new one: they are rotated as its
axes are. So what is computed from them is the same angular motion, in other axes.
-/

namespace FrameKinematics

namespace Quaternion

/-- The product `p q p*` has the scalar part of `q`, up to the norm of `p`. -/
theorem mul_mul_conjugate_w (p q : Quaternion ℝ) :
    (p.mul (q.mul p.conjugate)).w = p.normSq * q.w := by
  simp only [mul, conjugate, normSq]
  ring

/-- Its vector part is the one of `q`, turned. -/
theorem mul_mul_conjugate_vector (p q : Quaternion ℝ) :
    (p.mul (q.mul p.conjugate)).vector = p.sandwich q.vector := by
  ext <;> simp only [mul, conjugate, vector, sandwich] <;> ring

end Quaternion

namespace Rotation

variable {c : Rotation ℝ}

/-- A rotation that is added and taken back leaves the other one. -/
theorem HasUnitNorm.revert_mul_mul (hc : c.HasUnitNorm) (r : Rotation ℝ) :
    c.revert.mul (c.mul r) = r := by
  rw [← mul_mul, hc.revert_mul_self, identity_mul]

/-- Rotations keep lengths. -/
theorem HasUnitNorm.norm_apply (hc : c.HasUnitNorm) (v : Vec3 ℝ) : (c.apply v).norm = v.norm := by
  rw [Vec3.norm, Vec3.norm, hc.apply_dot]

/-- A rotation seen in axes that are turned by `c`. -/
noncomputable def turned (c r : Rotation ℝ) : Rotation ℝ := c.mul (r.mul c.revert)

/-- Turned axes do not change the angle of a rotation. -/
theorem HasUnitNorm.turned_w (hc : c.HasUnitNorm) (r : Rotation ℝ) :
    (turned c r).quaternion.w = r.quaternion.w := by
  refine (Quaternion.mul_mul_conjugate_w c.quaternion r.quaternion).trans ?_
  rw [hc, one_mul]

/-- Turned axes turn the axis of a rotation. -/
theorem HasUnitNorm.turned_vector (hc : c.HasUnitNorm) (r : Rotation ℝ) :
    (turned c r).quaternion.vector = c.apply r.quaternion.vector := by
  refine (Quaternion.mul_mul_conjugate_vector c.quaternion r.quaternion).trans ?_
  exact (Quaternion.HasUnitNorm.rotate_eq_sandwich _ hc).symm

/-- In turned axes a frame turns about the turned rate. -/
theorem HasUnitNorm.swing_turned (hc : c.HasUnitNorm) (w : Vec3 ℝ) (φ : ℝ) :
    swing (c.apply w) φ = turned c (swing w φ) := by
  apply ext_parts
  · rw [hc.turned_w, swing_w, swing_w, hc.norm_apply]
  · rw [hc.turned_vector, swing_vector, swing_vector, hc.norm_apply, apply_smul]

/-- The angle of a rotation does not depend on the axes. -/
theorem HasUnitNorm.angle_turned (hc : c.HasUnitNorm) (r : Rotation ℝ) :
    (turned c r).angle = r.angle := by
  rw [angle_eq, angle_eq, hc.turned_w, hc.turned_vector, hc.norm_apply]

/-- The vector of a rotation is turned with the axes. -/
theorem HasUnitNorm.toVector_turned (hc : c.HasUnitNorm) (r : Rotation ℝ) :
    (turned c r).toVector = c.apply r.toVector := by
  rw [toVector_eq_smul, toVector_eq_smul, hc.angle_turned, hc.turned_w, hc.turned_vector,
    hc.norm_apply, apply_smul]

end Rotation

namespace Jet

variable {c : Rotation ℝ}

/-- Rotations of vectors are linear, for their derivatives as well. -/
theorem map_apply_smul (c : Rotation ℝ) (k : Jet ℝ) (u : Jet (Vec3 ℝ)) :
    (k • u).map c.apply = k • u.map c.apply := by
  ext1 <;> simp

/-- Rotations keep scalar products with their derivatives. -/
theorem dot_map_apply (hc : c.HasUnitNorm) (u v : Jet (Vec3 ℝ)) :
    (u.map c.apply).dot (v.map c.apply) = u.dot v := by
  simp only [dot, map, hc.apply_dot]

end Jet

namespace MovingQuaternion

variable {c : Rotation ℝ}

/-- A quaternion that changes in time, seen in axes that are turned by `c`. -/
noncomputable def turned (c : Rotation ℝ) (m : MovingQuaternion) : MovingQuaternion :=
  ⟨m.scalar, m.vector.map c.apply⟩

/-- The parameters are a vector of the new frame. -/
theorem parameters_turned (m : MovingQuaternion) :
    (m.turned c).parameters = m.parameters.map c.apply := by
  unfold parameters turned
  rw [Jet.map_apply_smul]

/-- Turned parameters are those of the rotation in turned axes. -/
theorem ofParameters_map (hc : c.HasUnitNorm) (p : Jet (Vec3 ℝ)) :
    ofParameters (p.map c.apply) = (ofParameters p).turned c := by
  unfold ofParameters turned
  rw [Jet.dot_map_apply hc, Jet.map_apply_smul]

/-- What turns at some rate turns at the turned rate in turned axes. -/
theorem ofRate_turned (hc : c.HasUnitNorm) {q q' : Quaternion ℝ} (hscalar : q'.w = q.w)
    (hvector : q'.vector = c.apply q.vector) (rate acceleration : Vec3 ℝ) :
    ofRate q' (c.apply rate) (c.apply acceleration) = (ofRate q rate acceleration).turned c := by
  unfold ofRate turned
  rw [hscalar, hvector]
  ext1
  · simp [hc.apply_dot, ← hc.apply_cross]
  · ext1
    · simp
    · simp [hc.apply_cross]
    · simp [hc.apply_cross, hc.apply_dot]

/-- The turning of a quaternion is seen turned in turned axes. -/
theorem turning_turned (hc : c.HasUnitNorm) (m : MovingQuaternion) (w : ℝ) (x : Vec3 ℝ) :
    (m.turned c).turning w (c.apply x) = c.apply (m.turning w x) := by
  simp [turning, turned, hc.apply_cross]

end MovingQuaternion

namespace AngularMotion

open Rotation

/-- An angular motion between other axes: `b` leads from the new axes of the old frame to the former
ones, and `c` leads from the former axes of the new frame to the new ones. -/
@[simps] noncomputable def changeAxes (b c : Rotation ℝ) (a : AngularMotion ℝ) :
    AngularMotion ℝ where
  rotation := c.mul (a.rotation.mul b)
  rate := c.apply a.rate
  acceleration := c.apply a.acceleration

variable {b c d : Rotation ℝ} {x y : AngularMotion ℝ}

/-- Other axes of the old frame are a rotation that comes first. -/
theorem fixed_andThen (b : Rotation ℝ) (x : AngularMotion ℝ) :
    (fixed b).andThen x = x.changeAxes b .identity := by
  ext1 <;> simp [fixed]

/-- Other axes of the new frame are a rotation that comes last. -/
theorem andThen_fixed (c : Rotation ℝ) (x : AngularMotion ℝ) :
    x.andThen (fixed c) = x.changeAxes .identity c := by
  ext1 <;> simp [fixed]

/-- Other axes keep unit quaternions. -/
theorem hasUnitNorm_changeAxes (hb : b.HasUnitNorm) (hc : c.HasUnitNorm)
    (hx : x.rotation.HasUnitNorm) : (x.changeAxes b c).rotation.HasUnitNorm :=
  hc.mul (hx.mul hb)

/-- The axes of the frame in the middle do not matter. -/
theorem changeAxes_andThen_changeAxes (hc : c.HasUnitNorm) (hd : d.HasUnitNorm)
    (hy : y.rotation.HasUnitNorm) :
    (x.changeAxes b c).andThen (y.changeAxes c.revert d) = (x.andThen y).changeAxes b d := by
  have happly (v : Vec3 ℝ) : (d.mul (y.rotation.mul c.revert)).apply (c.apply v) =
      d.apply (y.rotation.apply v) := by
    rw [hd.mul_apply _ (hy.mul hc.revert), hy.mul_apply _ hc.revert, hc.revert_apply_apply]
  ext1
  · simp only [andThen_rotation, changeAxes_rotation, mul_mul, hc.revert_mul_mul]
  · simp [happly]
  · simp [happly, hd.apply_cross]

/-- The inverse has the axes of the two frames exchanged. -/
theorem changeAxes_revert (hb : b.HasUnitNorm) (hc : c.HasUnitNorm) (hx : x.rotation.HasUnitNorm) :
    (x.changeAxes b c).revert = x.revert.changeAxes c.revert b.revert := by
  have happly (v : Vec3 ℝ) : (c.mul (x.rotation.mul b)).revert.apply (c.apply v) =
      b.revert.apply (x.rotation.revert.apply v) := by
    rw [revert_mul, revert_mul, (hb.revert.mul hx.revert).mul_apply _ hc.revert,
      hb.revert.mul_apply _ hx.revert, hc.revert_apply_apply]
  ext1
  · simp [revert_mul, mul_mul]
  · simp [happly]
  · simp [happly]

/-- An angular motion goes on in the same way in other axes. -/
theorem extrapolated_changeAxes (hc : c.HasUnitNorm) (dt : ℝ) :
    (x.changeAxes b c).extrapolated dt = (x.extrapolated dt).changeAxes b c := by
  have hlinear : steady ((swing (c.apply x.rate) dt).mul (x.changeAxes b c).rotation)
      (c.apply x.rate) =
        (steady ((swing x.rate dt).mul x.rotation) x.rate).changeAxes b c := by
    rw [hc.swing_turned]
    ext1
    · simp [steady, turned, mul_mul, hc.revert_mul_mul]
    · rfl
    · simp [steady]
  have hbend : (⟨swing (c.apply x.acceleration) (0.5 * dt * dt), dt • c.apply x.acceleration,
      c.apply x.acceleration⟩ : AngularMotion ℝ) =
        changeAxes c.revert c ⟨swing x.acceleration (0.5 * dt * dt), dt • x.acceleration,
          x.acceleration⟩ := by
    rw [hc.swing_turned]
    ext1
    · rfl
    · simp
    · rfl
  unfold extrapolated
  rw [changeAxes_rate, changeAxes_acceleration, hlinear, hbend,
    changeAxes_andThen_changeAxes hc hc (hasUnitNorm_swing _ _)]

/-- The rate between two rotations is turned with the axes. -/
theorem estimateRate_changeAxes (hb : b.HasUnitNorm) (hc : c.HasUnitNorm)
    (hx : x.rotation.HasUnitNorm) (hy : y.rotation.HasUnitNorm) {dt : ℝ} {rate : Vec3 ℝ}
    (h : estimateRate x.rotation y.rotation dt = .ok rate) :
    estimateRate (x.changeAxes b c).rotation (y.changeAxes b c).rotation dt =
      .ok (c.apply rate) := by
  have hevolution : (y.changeAxes b c).rotation.mul (x.changeAxes b c).rotation.revert =
      turned c (y.rotation.mul x.rotation.revert) := by
    -- The axes of the old frame cancel.
    have hcancel (r : Rotation ℝ) : b.mul (b.revert.mul r) = r := by
      simpa using hb.revert.revert_mul_mul r
    simp only [changeAxes_rotation, turned, revert_mul, mul_mul, hcancel]
  rw [estimateRate_eq hx hy] at h
  rw [estimateRate_eq (hasUnitNorm_changeAxes hb hc hx) (hasUnitNorm_changeAxes hb hc hy),
    hevolution, hc.toVector_turned, ← Except.ok.inj h]
  simp [Vec3.div_eq_smul]

section Parameters

/-- Of the two quaternions of a rotation, the same one is taken in turned axes. -/
theorem upper_changeAxes (hc : c.HasUnitNorm) (x : AngularMotion ℝ) :
    (x.changeAxes c.revert c).upper.w = x.upper.w ∧
      (x.changeAxes c.revert c).upper.vector = c.apply x.upper.vector := by
  have hscalar : (x.changeAxes c.revert c).rotation.quaternion.w = x.rotation.quaternion.w :=
    hc.turned_w x.rotation
  have hvector : (x.changeAxes c.revert c).rotation.quaternion.vector =
      c.apply x.rotation.quaternion.vector := hc.turned_vector x.rotation
  unfold upper
  rw [hscalar]
  split_ifs
  · rw [Quaternion.neg_w, Quaternion.neg_w, Quaternion.vector_neg, Quaternion.vector_neg, hscalar,
      hvector, apply_neg]
    exact ⟨rfl, rfl⟩
  · exact ⟨hscalar, hvector⟩

/-- The parameters of an angular motion are turned with the axes, where these are turned alike in the
two frames. -/
theorem toRodrigues_changeAxes (hc : c.HasUnitNorm) (x : AngularMotion ℝ) :
    (x.changeAxes c.revert c).toRodrigues = x.toRodrigues.map c.apply := by
  obtain ⟨hscalar, hvector⟩ := upper_changeAxes hc x
  rw [toRodrigues_eq, toRodrigues_eq, changeAxes_rate, changeAxes_acceleration,
    MovingQuaternion.ofRate_turned hc hscalar hvector, MovingQuaternion.parameters_turned]

/-- The angular motion of a quaternion in turned axes is its motion in these axes. -/
theorem motion_turned (hc : c.HasUnitNorm) (m : MovingQuaternion) :
    (m.turned c).motion = m.motion.changeAxes c.revert c := by
  ext1
  · apply ext_parts
    · exact (hc.turned_w ⟨m.value⟩).symm
    · exact (hc.turned_vector ⟨m.value⟩).symm
  · exact MovingQuaternion.turning_turned hc m m.scalar.first m.vector.first
  · exact MovingQuaternion.turning_turned hc m m.scalar.second m.vector.second

/-- Turned parameters are those of the angular motion in turned axes. -/
theorem ofRodrigues_map (hc : c.HasUnitNorm) {p : Jet (Vec3 ℝ)} (h : ofRodrigues p = .ok x) :
    ofRodrigues (p.map c.apply) = .ok (x.changeAxes c.revert c) := by
  rw [ofRodrigues_eq] at h ⊢
  rw [← Except.ok.inj h, MovingQuaternion.ofParameters_map hc, motion_turned hc]

end Parameters

end AngularMotion

end FrameKinematics
