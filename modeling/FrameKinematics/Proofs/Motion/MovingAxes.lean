import FrameKinematics.Proofs.Linear.Derivatives
import FrameKinematics.Proofs.Motion.ChangeOfFrame
import FrameKinematics.Proofs.Rotation.MatrixRoundTrip
import FrameKinematics.Proofs.Source.Runs
import FrameKinematics.Motion.Rodrigues

/-!
# Moving axes

The axes of a frame that moves are the rows of a matrix that changes in time. As long as they stay
orthonormal, the matrix turns: its derivative is `dM/dt = -[w ×] M` for some rate `w`, and the second
derivative has the derivative of the rate in the place of the rate, besides. The rate and its
derivative are read off the derivatives of the matrix. So the axes of an angular motion, seen from its
old frame, are read as this angular motion.
-/

open scoped Topology

namespace FrameKinematics

namespace Mat3.IsSpecialOrthogonal

variable {m : Mat3 ℝ}

/-- The columns of a matrix are orthonormal if the rows are. -/
theorem of_rows (hrows : m.mulTranspose m = .one) (hdet : m.det = 1) : m.IsSpecialOrthogonal where
  mul_transpose := hrows
  transpose_mul := by
    have hnear : m.IsNearRotation 0 :=
      ⟨Within.sub_zero_iff.mpr hrows, hdet ▸ zero_le_one, by norm_num⟩
    have hcolumns := hnear.columns
    rw [mul_zero] at hcolumns
    exact Within.sub_zero_iff.mp hcolumns
  det_eq_one := hdet

/-- The product with a rotation and its transpose is undone. -/
theorem mul_mulTranspose_self (hm : m.IsSpecialOrthogonal) (a : Mat3 ℝ) :
    (a.mul m).mulTranspose m = a := by
  have hrows : m.mulTranspose m = .one := hm.mul_transpose
  rw [mul_mulTranspose, hrows, mul_one_eq]

/-- It is undone in the other order too. -/
theorem mulTranspose_mul_self (hm : m.IsSpecialOrthogonal) (a : Mat3 ℝ) :
    (a.mulTranspose m).mul m = a := by
  rw [mulTranspose_mul, hm.transpose_mul, mul_one_eq]

/-- A matrix that is skew symmetric in the axes is a vector product with the columns. -/
theorem exists_skew_mul (hm : m.IsSpecialOrthogonal) {a : Mat3 ℝ}
    (ha : a.mulTranspose m + m.mulTranspose a = 0) : ∃ v, (skew v).mul m = a := by
  have hskew : (a.mulTranspose m).transpose = -a.mulTranspose m := by
    rw [transpose_mulTranspose]
    exact eq_neg_of_add_eq_zero_right ha
  exact ⟨(a.mulTranspose m).deskew, by rw [skew_deskew hskew, hm.mulTranspose_mul_self]⟩

end Mat3.IsSpecialOrthogonal

/-- A rotation takes the rows of its matrix to the axes. -/
theorem Rotation.HasUnitNorm.apply_rows {r : Rotation ℝ} (hr : r.HasUnitNorm) :
    r.apply r.matrix.top = .unitX ∧ r.apply r.matrix.middle = .unitY ∧
      r.apply r.matrix.bottom = .unitZ := by
  have hrows := (Quaternion.HasUnitNorm.isSpecialOrthogonal hr).mul_transpose
  simp only [hr.apply_eq_matrix_apply]
  exact Mat3.mk.inj hrows

namespace Jet

/-- The derivatives of a matrix that turns at a rate: `dM/dt = -[w ×] M`, and once more. -/
structure Turns (m : Jet (Mat3 ℝ)) (rate acceleration : Vec3 ℝ) : Prop where
  first : m.first = -(Mat3.skew rate).mul m.value
  second : m.second = -(Mat3.skew acceleration).mul m.value - (Mat3.skew rate).mul m.first

open Mat3

variable {m : Jet (Mat3 ℝ)}

/-- A matrix turns where the scalar products of its rows rest to second order. -/
theorem exists_turns (hm : m.value.IsSpecialOrthogonal)
    (hfirst : m.first.mulTranspose m.value + m.value.mulTranspose m.first = 0)
    (hsecond : m.second.mulTranspose m.value + m.first.mulTranspose m.first +
      (m.first.mulTranspose m.first + m.value.mulTranspose m.second) = 0) :
    ∃ rate acceleration, m.Turns rate acceleration := by
  have hopposite : m.value.mulTranspose m.first = -m.first.mulTranspose m.value :=
    eq_neg_of_add_eq_zero_right hfirst
  obtain ⟨w, hrate⟩ : ∃ w, (skew w).mul m.value = -m.first := by
    apply hm.exists_skew_mul
    rw [neg_mulTranspose, mulTranspose_neg, hopposite]
    abel
  have hskew : skew w = -m.first.mulTranspose m.value := by
    rw [← neg_mulTranspose, ← hrate, hm.mul_mulTranspose_self]
  have hsquare : ((skew w).mul m.first).mulTranspose m.value = m.first.mulTranspose m.first :=
    calc ((skew w).mul m.first).mulTranspose m.value
        = (m.first.mulTranspose m.value).mul (m.value.mulTranspose m.first) := by
          rw [mul_mulTranspose, hskew, neg_mul_eq, hopposite, mul_neg_eq]
      _ = m.first.mulTranspose m.first := by rw [← mul_mulTranspose, hm.mulTranspose_mul_self]
  have hsquare' : m.value.mulTranspose ((skew w).mul m.first) = m.first.mulTranspose m.first := by
    rw [← transpose_mulTranspose, hsquare, transpose_mulTranspose]
  obtain ⟨w', hacceleration⟩ :
      ∃ w', (skew w').mul m.value = -(m.second + (skew w).mul m.first) := by
    apply hm.exists_skew_mul
    rw [neg_mulTranspose, mulTranspose_neg, add_mulTranspose, mulTranspose_add, hsquare, hsquare',
      ← neg_add, add_comm (m.value.mulTranspose m.second), hsecond, neg_zero]
  refine ⟨w, w', ⟨?_, ?_⟩⟩
  · rw [hrate, neg_neg]
  · rw [hacceleration]
    abel

/-- A matrix turns at a time about which it is orthogonal. -/
theorem exists_turns_of_path {m : ℝ → Jet (Mat3 ℝ)} {s : ℝ}
    (hm : ∀ᶠ t in 𝓝 s, (m t).value.IsSpecialOrthogonal)
    (hfirst : ∀ᶠ t in 𝓝 s, HasDerivativeAt (fun t => (m t).value) (m t).first t)
    (hsecond : HasDerivativeAt (fun t => (m t).first) (m s).second s) :
    ∃ rate acceleration, (m s).Turns rate acceleration := by
  have hproducts : ∀ᶠ t in 𝓝 s, (m t).first.mulTranspose (m t).value +
      (m t).value.mulTranspose (m t).first = 0 := by
    filter_upwards [hm.eventually_nhds, hfirst] with t ht hfirst
    exact (hfirst.mulTranspose hfirst).eq_zero (ht.mono fun _ h => h.mul_transpose)
  have hfirst' := hfirst.self_of_nhds
  exact exists_turns hm.self_of_nhds hproducts.self_of_nhds
    (((hsecond.mulTranspose hfirst').add (hfirst'.mulTranspose hsecond)).eq_zero hproducts)

end Jet

namespace AngularMotion

open Mat3

/-- The matrix whose rows are three axes, with its derivatives. -/
def axesMatrix (x y z : Motion ℝ) : Jet (Mat3 ℝ) :=
  ⟨⟨x.position, y.position, z.position⟩, ⟨x.velocity, y.velocity, z.velocity⟩,
    ⟨x.acceleration, y.acceleration, z.acceleration⟩⟩

/-- Of axes that turn the rotation, the rate and the derivative of the rate are found. -/
theorem exists_ofAxes {x y z : Motion ℝ} {rate acceleration : Vec3 ℝ}
    (hm : (axesMatrix x y z).value.IsSpecialOrthogonal)
    (hturns : (axesMatrix x y z).Turns rate acceleration) :
    ∃ r : Rotation ℝ, ofAxes x y z = .ok ⟨r, rate, acceleration⟩ ∧ r.HasUnitNorm ∧
      r.matrix = (axesMatrix x y z).value := by
  have hrate : ((-(axesMatrix x y z).first).mulTranspose (axesMatrix x y z).value).deskew = rate := by
    rw [hturns.first, neg_neg, hm.mul_mulTranspose_self, deskew_skew]
  have hacceleration : ((-((axesMatrix x y z).second +
      skewProduct rate (axesMatrix x y z).first)).mulTranspose (axesMatrix x y z).value).deskew =
        acceleration := by
    have hsum : -((axesMatrix x y z).second + skewProduct rate (axesMatrix x y z).first) =
        (skew acceleration).mul (axesMatrix x y z).value := by
      rw [skewProduct_eq, hturns.second]
      abel
    rw [hsum, hm.mul_mulTranspose_self, deskew_skew]
  have hrotation := Rotation.ofMatrix_of_isSpecialOrthogonal hm
  refine ⟨_, (bind_eq_of_ok hrotation).trans (congrArg Except.ok ?_),
    Quaternion.hasUnitNorm_ofMatrix _, hm.matrix_ofMatrix⟩
  ext1
  · rfl
  · exact hrate
  · rw [← hrate] at hacceleration
    exact hacceleration

section Seen

variable {a : AngularMotion ℝ}

/-- A vector that rests in the new frame moves in the old one. -/
theorem revert_applyTo_atRest (ha : a.rotation.HasUnitNorm) (e : Vec3 ℝ) :
    a.revert.applyTo (.atRest e) =
      ⟨a.rotation.revert.apply e, a.rotation.revert.apply (a.rate.cross e),
        a.rotation.revert.apply (a.rate.cross (a.rate.cross e) + a.acceleration.cross e)⟩ := by
  ext1
  · rfl
  · simp [Motion.atRest, ha.revert.apply_cross]
  · simp [Motion.atRest, ha.revert.apply_cross]
    module

/-- The axes of the new frame, seen from the old one, are the rows of the matrix of the rotation, and
turn with the frame. -/
theorem axesMatrix_revert (ha : a.rotation.HasUnitNorm) :
    axesMatrix (a.revert.applyTo (.atRest .unitX)) (a.revert.applyTo (.atRest .unitY))
        (a.revert.applyTo (.atRest .unitZ)) =
      ⟨a.rotation.matrix, (-skew a.rate).mul a.rotation.matrix,
        ((skew a.rate).mul (skew a.rate) - skew a.acceleration).mul a.rotation.matrix⟩ := by
  have happly (v : Vec3 ℝ) :
      a.rotation.revert.apply v = a.rotation.matrix.transpose.apply v := by
    rw [ha.revert.apply_eq_matrix_apply, Rotation.matrix_revert]
  have hrows (u v w : Vec3 ℝ) : (⟨a.rotation.revert.apply u, a.rotation.revert.apply v,
      a.rotation.revert.apply w⟩ : Mat3 ℝ) = Mat3.mul ⟨u, v, w⟩ a.rotation.matrix := by
    rw [happly, happly, happly]
    rfl
  have hsecond : (⟨a.rate.cross (a.rate.cross .unitX) + a.acceleration.cross .unitX,
      a.rate.cross (a.rate.cross .unitY) + a.acceleration.cross .unitY,
      a.rate.cross (a.rate.cross .unitZ) + a.acceleration.cross .unitZ⟩ : Mat3 ℝ) =
        (skew a.rate).mul (skew a.rate) - skew a.acceleration := by
    rw [sub_eq_add_neg, ← cross_cross_units, ← cross_units]
    rfl
  have hone : (⟨.unitX, .unitY, .unitZ⟩ : Mat3 ℝ) = .one := rfl
  simp only [axesMatrix, revert_applyTo_atRest ha, hrows, cross_units, hsecond, hone, one_mul_eq]

/-- So the matrix of the axes turns at the rate of the angular motion. -/
theorem axesMatrix_revert_turns (ha : a.rotation.HasUnitNorm) :
    (axesMatrix (a.revert.applyTo (.atRest .unitX)) (a.revert.applyTo (.atRest .unitY))
      (a.revert.applyTo (.atRest .unitZ))).Turns a.rate a.acceleration := by
  rw [axesMatrix_revert ha]
  constructor
  · exact neg_mul_eq _ _
  · simp only [neg_mul_eq, mul_neg_eq, sub_mul_eq, mul_mul_eq]
    abel

/-- The axes of a frame, seen from the old one with their derivatives, give the angular motion of the
frame back: its rotation up to the sign of the quaternion, its rate and its acceleration. -/
theorem ofAxes_roundTrip (ha : a.rotation.HasUnitNorm) :
    ∃ b, ofAxes (a.revert.applyTo (.atRest .unitX)) (a.revert.applyTo (.atRest .unitY))
        (a.revert.applyTo (.atRest .unitZ)) = .ok b ∧
      b.rotation.same a.rotation = true ∧ b.rate = a.rate ∧ b.acceleration = a.acceleration := by
  have hmatrix : a.rotation.matrix.IsSpecialOrthogonal :=
    Quaternion.HasUnitNorm.isSpecialOrthogonal ha
  have hvalue := congrArg Jet.value (axesMatrix_revert ha)
  obtain ⟨r, haxes, hunit, hread⟩ := exists_ofAxes (hvalue ▸ hmatrix) (axesMatrix_revert_turns ha)
  exact ⟨_, haxes, hunit.same_of_matrix_eq ha (hread.trans hvalue), rfl, rfl⟩

/-- A turn by more than half a turn, about an axis that neither the rate nor the acceleration has. -/
noncomputable def tumbling : AngularMotion ℝ :=
  ⟨⟨⟨-0.48, 0.6, 0, 0.64⟩⟩, ⟨1, -0.5, 0⟩, ⟨0, 1.5, -1⟩⟩

/-- A tumbling motion is found again from its three axes, but for the sign of the quaternion. -/
theorem tumbling_roundTrip :
    tumbling.rotation.HasUnitNorm ∧
      ∃ b, ofAxes (tumbling.revert.applyTo (.atRest .unitX))
          (tumbling.revert.applyTo (.atRest .unitY)) (tumbling.revert.applyTo (.atRest .unitZ)) =
            .ok b ∧
        b.rotation.same tumbling.rotation = true ∧ b.rate = tumbling.rate ∧
        b.acceleration = tumbling.acceleration := by
  have hunit : tumbling.rotation.HasUnitNorm := by
    norm_num [tumbling, Rotation.HasUnitNorm, Quaternion.HasUnitNorm, Quaternion.normSq]
  exact ⟨hunit, ofAxes_roundTrip hunit⟩

end Seen

end AngularMotion

end FrameKinematics
