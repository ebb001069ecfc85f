import FrameKinematics.Proofs.Motion.Jets
import FrameKinematics.Proofs.Motion.Rodrigues

/-!
# Modified Rodrigues parameters are turned back

The parameters of a rotation are the image of its quaternion under a stereographic projection, whose
inverse gives the quaternion back, for unit quaternions. Both are written in values with two
derivatives, as compositions of the operations of a ring, so the one undoes the other for the
derivatives as well. The quaternion of an angular motion has the constant norm one, and the rate and
the acceleration are found again from its derivatives.
-/

namespace FrameKinematics

/-- A quaternion that changes in time. -/
@[ext]
structure MovingQuaternion where
  scalar : Jet ℝ
  vector : Jet (Vec3 ℝ)

namespace MovingQuaternion

/-- The square of the norm, with its derivatives. -/
noncomputable def normSq (m : MovingQuaternion) : Jet ℝ :=
  m.scalar * m.scalar + m.vector.dot m.vector

/-- The projection from the opposite of the identity. -/
noncomputable def parameters (m : MovingQuaternion) : Jet (Vec3 ℝ) :=
  (1 + m.scalar).inverse • m.vector

/-- The unit quaternion that is projected to some parameters. -/
noncomputable def ofParameters (p : Jet (Vec3 ℝ)) : MovingQuaternion :=
  ⟨(1 + p.dot p).inverse + (1 + p.dot p).inverse - 1,
    ((1 + p.dot p).inverse + (1 + p.dot p).inverse) • p⟩

/-- The components of the unit quaternion, with the factors of two taken out. -/
theorem ofParameters_eq (p : Jet (Vec3 ℝ)) :
    ofParameters p =
      let k := (1 + p.dot p).inverse
      ⟨⟨2.0 * k.value - 1.0, 2.0 * k.first, 2.0 * k.second⟩,
        ⟨(2.0 * k.value) • p.value, (2.0 : ℝ) • (k.first • p.value + k.value • p.first),
          (2.0 : ℝ) • (k.second • p.value + (2.0 * k.first) • p.first + k.value • p.second)⟩⟩ := by
  unfold ofParameters
  ext1
  · ext <;> simp <;> ring
  · ext1 <;> simp <;> module

section Projection

variable {m : MovingQuaternion}

/-- The divisor of the projection has an inverse where the scalar part is not negative. -/
theorem inverse_mul_divisor (hscalar : 0 ≤ m.scalar.value) :
    (1 + m.scalar).inverse * (1 + m.scalar) = 1 := by
  refine Jet.inverse_mul_self ?_
  rw [Jet.one_add_eq, Scalar.one_literal]
  positivity

/-- The divisor of the way back has an inverse for all parameters. -/
theorem inverse_mul_divisor_back (p : Jet (Vec3 ℝ)) : (1 + p.dot p).inverse * (1 + p.dot p) = 1 := by
  have hsquare := p.value.dot_self_nonneg
  refine Jet.inverse_mul_self ?_
  rw [Jet.one_add_eq, Jet.dot_self, Scalar.one_literal]
  positivity

/-- For a unit quaternion the product of the two divisors is two. -/
theorem divisor_mul_divisor_back (hunit : m.normSq = 1) (hscalar : 0 ≤ m.scalar.value) :
    (1 + m.scalar) * (1 + m.parameters.dot m.parameters) = 1 + 1 := by
  have hvector : m.vector.dot m.vector = 1 - m.scalar * m.scalar := by
    rw [← hunit, normSq]
    ring
  have hdot : m.parameters.dot m.parameters =
      (1 + m.scalar).inverse * (1 + m.scalar).inverse * (1 - m.scalar * m.scalar) := by
    rw [parameters, Jet.smul_dot_smul, hvector]
  rw [hdot]
  linear_combination ((1 + m.scalar).inverse * (1 + m.scalar) * (1 - m.scalar) + 1 - m.scalar) *
    inverse_mul_divisor hscalar

/-- The projection is undone on unit quaternions, and so are its derivatives. -/
theorem ofParameters_parameters (hunit : m.normSq = 1) (hscalar : 0 ≤ m.scalar.value) :
    ofParameters m.parameters = m := by
  have hscale : (1 + m.parameters.dot m.parameters).inverse +
      (1 + m.parameters.dot m.parameters).inverse = 1 + m.scalar := by
    linear_combination (1 + m.scalar) * inverse_mul_divisor_back m.parameters -
      (1 + m.parameters.dot m.parameters).inverse * divisor_mul_divisor_back hunit hscalar
  unfold ofParameters
  rw [hscale]
  ext1
  · ring
  · rw [parameters, smul_smul, mul_comm, inverse_mul_divisor hscalar, one_smul]

end Projection

section Rates

/-- The quaternion at the moment. -/
noncomputable def value (m : MovingQuaternion) : Quaternion ℝ :=
  ⟨m.scalar.value, m.vector.value.x, m.vector.value.y, m.vector.value.z⟩

/-- Minus twice the vector part of the product of a quaternion with the conjugate of `m`. -/
noncomputable def turning (m : MovingQuaternion) (w : ℝ) (x : Vec3 ℝ) : Vec3 ℝ :=
  (-2.0 : ℝ) • (m.scalar.value • x - w • m.vector.value - x.cross m.vector.value)

/-- The angular motion of a unit quaternion. -/
noncomputable def motion (m : MovingQuaternion) : AngularMotion ℝ :=
  ⟨⟨m.value⟩, m.turning m.scalar.first m.vector.first, m.turning m.scalar.second m.vector.second⟩

/-- The quaternion of a rotation that turns at some rate: `dq/dt = -1/2 (0, w) q`. -/
noncomputable def ofRate (q : Quaternion ℝ) (rate acceleration : Vec3 ℝ) : MovingQuaternion :=
  let w' := 0.5 * rate.dot q.vector
  let x' := (-0.5 : ℝ) • (q.w • rate + rate.cross q.vector)
  ⟨⟨q.w, w', 0.5 * (acceleration.dot q.vector + rate.dot x')⟩,
    ⟨q.vector, x', (-0.5 : ℝ) • (w' • rate + q.w • acceleration +
      acceleration.cross q.vector + rate.cross x')⟩⟩

variable (q : Quaternion ℝ) (rate acceleration : Vec3 ℝ)

/-- The norm does not change in time. -/
theorem normSq_ofRate : (ofRate q rate acceleration).normSq = ⟨q.normSq, 0, 0⟩ := by
  ext
  · simp [normSq, ofRate, Jet.dot, Quaternion.normSq, Quaternion.vector, Vec3.dot]
    ring
  · simp [normSq, ofRate, Jet.dot, Quaternion.vector, Vec3.dot, Scalar.half_literal]
    ring
  · simp [normSq, ofRate, Jet.dot, Quaternion.vector, Vec3.dot, Scalar.half_literal]
    ring

/-- The rate is found from the first derivative, up to the square of the norm. -/
theorem turning_first : (ofRate q rate acceleration).turning (ofRate q rate acceleration).scalar.first
    (ofRate q rate acceleration).vector.first = q.normSq • rate := by
  ext <;>
    simp [turning, ofRate, Quaternion.normSq, Quaternion.vector, Vec3.dot, Scalar.half_literal] <;>
    ring

/-- The acceleration is found from the second derivative: the square of the rate that this contains
besides is a scalar. -/
theorem turning_second :
    (ofRate q rate acceleration).turning (ofRate q rate acceleration).scalar.second
      (ofRate q rate acceleration).vector.second = q.normSq • acceleration := by
  ext <;>
    simp [turning, ofRate, Quaternion.normSq, Quaternion.vector, Vec3.dot, Scalar.half_literal] <;>
    ring

/-- The motion is found again from a unit quaternion that turns at some rate. -/
theorem motion_ofRate {q : Quaternion ℝ} (hq : q.HasUnitNorm) :
    (ofRate q rate acceleration).motion = ⟨⟨q⟩, rate, acceleration⟩ := by
  unfold motion
  rw [turning_first, turning_second, hq, one_smul, one_smul]
  rfl

end Rates

end MovingQuaternion

namespace AngularMotion

open MovingQuaternion

/-- The quaternion of a rotation whose scalar part is not negative. -/
noncomputable def upper (a : AngularMotion ℝ) : Quaternion ℝ :=
  if a.rotation.quaternion.w < 0 then -a.rotation.quaternion else a.rotation.quaternion

/-- The upper quaternion has no negative scalar part. -/
theorem upper_w_nonneg (a : AngularMotion ℝ) : 0 ≤ a.upper.w := by
  unfold upper
  split_ifs with hnegative
  · rw [Quaternion.neg_w]
    linarith
  · exact not_lt.mp hnegative

/-- It stands for the same rotation as the quaternion itself. -/
theorem same_upper (a : AngularMotion ℝ) : Rotation.same ⟨a.upper⟩ a.rotation = true := by
  rw [Rotation.same_iff]
  unfold upper
  split_ifs
  · exact Or.inr rfl
  · exact Or.inl rfl

/-- The upper quaternion has the norm of the quaternion. -/
theorem normSq_upper (a : AngularMotion ℝ) : a.upper.normSq = a.rotation.quaternion.normSq := by
  unfold upper
  split_ifs
  · exact Quaternion.normSq_neg _
  · rfl

/-- The parameters of an angular motion are the projection of its quaternion. -/
theorem toRodrigues_eq (a : AngularMotion ℝ) :
    a.toRodrigues = (ofRate a.upper a.rate a.acceleration).parameters := by
  unfold toRodrigues parameters
  rw [Jet.inverse_smul, Jet.one_add_eq, Scalar.zero_literal]
  rfl

/-- An angular motion is found from the unit quaternion that is projected to its parameters. -/
theorem ofRodrigues_eq (p : Jet (Vec3 ℝ)) : ofRodrigues p = .ok (ofParameters p).motion := by
  have hrotation := Rotation.normalized_of_hasUnitNorm (hasUnitNorm_quaternionOf p.value)
  refine (bind_eq_of_ok hrotation).trans (congrArg Except.ok ?_)
  rw [ofParameters_eq, Jet.dot_self, Jet.one_add_eq]
  rfl

/-- An angular motion with a unit quaternion is found again from its parameters, with the one of its
two quaternions whose scalar part is not negative. -/
theorem ofRodrigues_toRodrigues {a : AngularMotion ℝ} (ha : a.rotation.HasUnitNorm) :
    ofRodrigues a.toRodrigues = .ok ⟨⟨a.upper⟩, a.rate, a.acceleration⟩ := by
  have hupper : a.upper.HasUnitNorm := a.normSq_upper.trans ha
  have hunit : (ofRate a.upper a.rate a.acceleration).normSq = 1 := by
    rw [normSq_ofRate, hupper]
    rfl
  rw [ofRodrigues_eq, toRodrigues_eq, ofParameters_parameters hunit a.upper_w_nonneg,
    motion_ofRate _ _ hupper]

/-- What becomes of an angular motion that is turned into parameters and back. -/
structure IsRecovered (a : AngularMotion ℝ) : Prop where
  /-- The divisor on the way to the parameters is at least one. -/
  one_le_divisor : 1 ≤ 1 + a.upper.w
  value_eq : a.toRodrigues.value = (1 / (1 + a.upper.w)) • a.upper.vector
  /-- The divisor on the way back is at least one. -/
  one_le_divisor_back : 1 ≤ 1 + a.toRodrigues.value.dot a.toRodrigues.value
  /-- The quaternion on the way back has unit norm before it is normalised. -/
  hasUnitNorm : (quaternionOf a.toRodrigues.value).HasUnitNorm
  /-- The rotation is the same up to the sign of the quaternion, and the rate and the acceleration
  are equal. -/
  exists_ofRodrigues : ∃ b, ofRodrigues a.toRodrigues = .ok b ∧
    Rotation.normalized (quaternionOf a.toRodrigues.value) = .ok b.rotation ∧
    b.rotation.same a.rotation = true ∧ b.rate = a.rate ∧ b.acceleration = a.acceleration

/-- Angular motions with unit quaternions, at all angles and with all rates and accelerations, are
recovered from their parameters. -/
theorem isRecovered {a : AngularMotion ℝ} (ha : a.rotation.HasUnitNorm) : a.IsRecovered where
  one_le_divisor := le_add_of_nonneg_right a.upper_w_nonneg
  value_eq := by
    rw [toRodrigues_eq, parameters, Jet.inverse_smul, Jet.one_add_eq, Scalar.one_literal]
    rfl
  one_le_divisor_back := le_add_of_nonneg_right a.toRodrigues.value.dot_self_nonneg
  hasUnitNorm := hasUnitNorm_quaternionOf a.toRodrigues.value
  exists_ofRodrigues := by
    obtain ⟨b, hb, hrotation⟩ := exists_ofRodrigues a.toRodrigues
    have hrecovered := Except.ok.inj (hb.symm.trans (ofRodrigues_toRodrigues ha))
    refine ⟨b, hb, ?_, ?_, ?_, ?_⟩
    · rw [hrotation]
      exact Rotation.normalized_of_hasUnitNorm (hasUnitNorm_quaternionOf _)
    · rw [hrecovered]
      exact a.same_upper
    · rw [hrecovered]
    · rw [hrecovered]

/-- A turn by more than half a turn, with a rate and an acceleration that are parallel neither to
each other nor to the axis. -/
noncomputable def pastHalfTurn : AngularMotion ℝ :=
  ⟨⟨⟨-0.6, 0, 0.64, 0.48⟩⟩, ⟨1, 1, 0⟩, ⟨0, -1, 1⟩⟩

/-- A rotation by more than half a turn is recovered from its parameters. -/
theorem pastHalfTurn_isRecovered :
    pastHalfTurn.rotation.HasUnitNorm ∧ pastHalfTurn.IsRecovered := by
  have hunit : pastHalfTurn.rotation.HasUnitNorm := by
    norm_num [pastHalfTurn, Rotation.HasUnitNorm, Quaternion.HasUnitNorm, Quaternion.normSq]
  exact ⟨hunit, isRecovered hunit⟩

end AngularMotion

end FrameKinematics
