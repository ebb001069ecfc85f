import Mathlib.Tactic.FieldSimp
import FrameKinematics.Proofs.Linear.MatrixAlgebra
import FrameKinematics.Proofs.Rotation.MatrixForm

/-!
# Quaternions read from matrices

One plus the trace of a rotation matrix and its antisymmetric part are the components of four times
the scalar part of its quaternion times the quaternion. The other three ways to read a quaternion
are this one for the matrix after a half-turn about an axis, which exchanges the components. The
numbers under the four square roots add up to four for every matrix, and the one that is chosen is
at least one. So every matrix, a rotation or not, is read as a unit quaternion, and only the question
what it has to do with the matrix is left.
-/

namespace FrameKinematics

namespace Quaternion

section Multiples

noncomputable instance : SMul ℝ (Quaternion ℝ) :=
  ⟨fun s q => ⟨s * q.w, s * q.x, s * q.y, s * q.z⟩⟩

variable (s : ℝ) (q : Quaternion ℝ)

/-- A multiple of a quaternion has the multiples of its components. -/
@[simp] theorem smul_w : (s • q).w = s * q.w := rfl
@[simp, inherit_doc smul_w] theorem smul_x : (s • q).x = s * q.x := rfl
@[simp, inherit_doc smul_w] theorem smul_y : (s • q).y = s * q.y := rfl
@[simp, inherit_doc smul_w] theorem smul_z : (s • q).z = s * q.z := rfl

/-- The norm and the matrix of a quaternion are homogeneous of degree two. -/
theorem normSq_smul : (s • q).normSq = s * s * q.normSq := by
  simp only [normSq, smul_w, smul_x, smul_y, smul_z]
  ring

@[inherit_doc normSq_smul]
theorem matrix_smul : (s • q).matrix = (s * s) • q.matrix := by
  ext <;> simp [matrix] <;> ring

/-- The opposite of a multiple is the multiple by the opposite number. -/
theorem neg_smul_eq : -(s • q) = (-s) • q := by
  ext <;> exact (neg_mul _ _).symm

/-- A multiple of a multiple is the multiple by the product. -/
theorem smul_smul_eq (t : ℝ) : s • t • q = (s * t) • q := by
  ext <;> exact (mul_assoc _ _ _).symm

/-- A quaternion that is not zero is divided by its norm. -/
theorem normalize_eq_smul {q : Quaternion ℝ} (hq : 0 < q.normSq) :
    q.normalize = (√q.normSq)⁻¹ • q := by
  have hroot : (Scalar.sqrt q.normSq == (0.0 : ℝ)) = false := by
    simp [Real.sqrt_ne_zero'.mpr hq]
  simp only [normalize, hroot, Bool.false_eq_true, if_false]
  ext <;> exact div_eq_inv_mul _ _

/-- A multiple of a quaternion is normalised to the multiple of norm one that has the same sign. -/
theorem exists_normalize_smul {c : ℝ} {q : Quaternion ℝ} (hc : c ≠ 0) (hq : 0 < q.normSq) :
    ∃ k, 0 < k ∧ k * c * (k * c) = q.normSq⁻¹ ∧ (c • q).normalize = (k * c) • q := by
  have hsquare : 0 < c * c := mul_self_pos.mpr hc
  have hscaled : 0 < (c • q).normSq := by
    rw [normSq_smul]
    positivity
  have hroot : √(c • q).normSq * √(c • q).normSq = c * c * q.normSq := by
    rw [Real.mul_self_sqrt hscaled.le, normSq_smul]
  refine ⟨(√(c • q).normSq)⁻¹, inv_pos.mpr (Real.sqrt_pos.mpr hscaled), ?_, ?_⟩
  · calc (√(c • q).normSq)⁻¹ * c * ((√(c • q).normSq)⁻¹ * c) =
          (√(c • q).normSq * √(c • q).normSq)⁻¹ * (c * c) := by
            rw [mul_inv]
            ring
      _ = q.normSq⁻¹ := by
            rw [hroot, mul_inv]
            field_simp
  · rw [normalize_eq_smul hscaled, smul_smul_eq]

end Multiples

section Axial

/-- The neutral quaternion and the quaternions of the half-turns about the axes. -/
inductive IsAxial : Quaternion ℝ → Prop
  | neutral : IsAxial ⟨1, 0, 0, 0⟩
  | first : IsAxial ⟨0, 1, 0, 0⟩
  | second : IsAxial ⟨0, 0, 1, 0⟩
  | third : IsAxial ⟨0, 0, 0, 1⟩

/-- The quaternions of the half-turns about the axes, and the neutral one, are unit quaternions. -/
theorem IsAxial.hasUnitNorm {u : Quaternion ℝ} (hu : u.IsAxial) : u.HasUnitNorm := by
  cases hu <;> simp [HasUnitNorm, normSq]

variable (m : Mat3 ℝ)

/-- The neutral quaternion leaves a matrix as it is. -/
theorem mul_matrix_neutral : m.mul (matrix ⟨1, 0, 0, 0⟩) = m := by
  ext <;> simp [Mat3.mul, Mat3.mulTranspose, Mat3.apply, Mat3.transpose, matrix, Vec3.dot]

/-- After a half-turn about an axis the other two columns have the opposite signs. -/
theorem mul_matrix_first : m.mul (matrix ⟨0, 1, 0, 0⟩) =
    ⟨⟨m.top.x, -m.top.y, -m.top.z⟩, ⟨m.middle.x, -m.middle.y, -m.middle.z⟩,
      ⟨m.bottom.x, -m.bottom.y, -m.bottom.z⟩⟩ := by
  ext <;> simp [Mat3.mul, Mat3.mulTranspose, Mat3.apply, Mat3.transpose, matrix, Vec3.dot]

@[inherit_doc mul_matrix_first]
theorem mul_matrix_second : m.mul (matrix ⟨0, 0, 1, 0⟩) =
    ⟨⟨-m.top.x, m.top.y, -m.top.z⟩, ⟨-m.middle.x, m.middle.y, -m.middle.z⟩,
      ⟨-m.bottom.x, m.bottom.y, -m.bottom.z⟩⟩ := by
  ext <;> simp [Mat3.mul, Mat3.mulTranspose, Mat3.apply, Mat3.transpose, matrix, Vec3.dot]

@[inherit_doc mul_matrix_first]
theorem mul_matrix_third : m.mul (matrix ⟨0, 0, 0, 1⟩) =
    ⟨⟨-m.top.x, -m.top.y, m.top.z⟩, ⟨-m.middle.x, -m.middle.y, m.middle.z⟩,
      ⟨-m.bottom.x, -m.bottom.y, m.bottom.z⟩⟩ := by
  ext <;> simp [Mat3.mul, Mat3.mulTranspose, Mat3.apply, Mat3.transpose, matrix, Vec3.dot]

end Axial

section Readings

/-- A quaternion of the trace and the antisymmetric part of a matrix. -/
noncomputable def ofTrace (m : Mat3 ℝ) : Quaternion ℝ :=
  ⟨1 + m.trace, m.bottom.y - m.middle.z, m.top.z - m.bottom.x, m.middle.x - m.top.y⟩

/-- The divisor of a reading is not zero. -/
theorem twice_root_ne_zero {r : ℝ} (hr : 0 < r) : 2.0 * √r ≠ 0 := by
  have hroot := Real.sqrt_pos.mpr hr
  rw [Scalar.two_literal]
  positivity

/-- The large component of a reading is found from the root, and the others by division. -/
theorem quarter_mul_root {r : ℝ} (hr : 0 < r) : 0.25 * (2.0 * √r) = (2 * √r)⁻¹ * r := by
  have hroot : √r ≠ 0 := (Real.sqrt_pos.mpr hr).ne'
  have hsquare : √r * √r = r := Real.mul_self_sqrt hr.le
  have hquarter : (0.25 : ℝ) = 1 / 4 := by norm_num
  rw [inv_mul_eq_div, eq_div_iff (by positivity), hquarter, Scalar.two_literal]
  linear_combination hsquare

@[inherit_doc quarter_mul_root]
theorem div_root (a r : ℝ) : a / (2.0 * √r) = (2 * √r)⁻¹ * a := by
  rw [Scalar.two_literal, div_eq_inv_mul]

@[inherit_doc quarter_mul_root]
theorem quarter_div_root {r : ℝ} (hr : 0 < r) : 0.25 / (0.5 / √r) = (2 * √r)⁻¹ * r := by
  have hroot : √r ≠ 0 := (Real.sqrt_pos.mpr hr).ne'
  rw [← quarter_mul_root hr]
  field_simp
  norm_num

@[inherit_doc quarter_mul_root]
theorem mul_root (a r : ℝ) : a * (0.5 / √r) = (2 * √r)⁻¹ * a := by
  rw [mul_inv, Scalar.half_literal]
  ring

/-- The number under the square root where a quaternion is read with respect to an axial one. -/
noncomputable def radicand (m : Mat3 ℝ) (u : Quaternion ℝ) : ℝ := (ofTrace (m.mul u.matrix)).w

/-- A quaternion read from a matrix with respect to an axial one: the matrix is turned by half a turn
first, and the quaternion is turned back after. -/
noncomputable def reading (m : Mat3 ℝ) (u : Quaternion ℝ) : Quaternion ℝ :=
  (ofTrace (m.mul u.matrix)).mul u

variable (m : Mat3 ℝ)

/-- A reading has the norm of the reading of the turned matrix by its trace. -/
theorem IsAxial.normSq_reading {u : Quaternion ℝ} (hu : u.IsAxial) :
    (reading m u).normSq = (ofTrace (m.mul u.matrix)).normSq := by
  rw [reading, normSq_mul, hu.hasUnitNorm, mul_one]

/-- The four readings have one large component each, and sums and differences of entries. -/
theorem reading_neutral : reading m ⟨1, 0, 0, 0⟩ = ⟨radicand m ⟨1, 0, 0, 0⟩,
    m.bottom.y - m.middle.z, m.top.z - m.bottom.x, m.middle.x - m.top.y⟩ := by
  ext <;> simp [reading, radicand, mul_matrix_neutral, ofTrace, mul]

@[inherit_doc reading_neutral]
theorem reading_first : reading m ⟨0, 1, 0, 0⟩ = ⟨m.bottom.y - m.middle.z,
    radicand m ⟨0, 1, 0, 0⟩, m.top.y + m.middle.x, m.top.z + m.bottom.x⟩ := by
  ext <;> simp [reading, radicand, mul_matrix_first, ofTrace, mul] <;> ring

@[inherit_doc reading_neutral]
theorem reading_second : reading m ⟨0, 0, 1, 0⟩ = ⟨m.top.z - m.bottom.x,
    m.top.y + m.middle.x, radicand m ⟨0, 0, 1, 0⟩, m.middle.z + m.bottom.y⟩ := by
  ext <;> simp [reading, radicand, mul_matrix_second, ofTrace, mul] <;> ring

@[inherit_doc reading_neutral]
theorem reading_third : reading m ⟨0, 0, 0, 1⟩ = ⟨m.middle.x - m.top.y,
    m.top.z + m.bottom.x, m.middle.z + m.bottom.y, radicand m ⟨0, 0, 0, 1⟩⟩ := by
  ext <;> simp [reading, radicand, mul_matrix_third, ofTrace, mul]
  ring

/-- The numbers under the roots are sums of one and the diagonal entries, with signs. -/
theorem radicand_neutral :
    radicand m ⟨1, 0, 0, 0⟩ = m.top.x + m.middle.y + m.bottom.z + 1.0 := by
  simp [radicand, mul_matrix_neutral, ofTrace, Mat3.trace, add_comm]

@[inherit_doc radicand_neutral]
theorem radicand_first :
    radicand m ⟨0, 1, 0, 0⟩ = 1.0 + m.top.x - m.middle.y - m.bottom.z := by
  simp [radicand, mul_matrix_first, ofTrace, Mat3.trace]
  ring

@[inherit_doc radicand_neutral]
theorem radicand_second :
    radicand m ⟨0, 0, 1, 0⟩ = 1.0 + m.middle.y - m.top.x - m.bottom.z := by
  simp [radicand, mul_matrix_second, ofTrace, Mat3.trace]
  ring

@[inherit_doc radicand_neutral]
theorem radicand_third :
    radicand m ⟨0, 0, 0, 1⟩ = 1.0 + m.bottom.z - m.top.x - m.middle.y := by
  simp [radicand, mul_matrix_third, ofTrace, Mat3.trace]
  ring

end Readings

section Choice

variable (m : Mat3 ℝ)

/-- The axial quaternion with respect to which a matrix is read. -/
noncomputable def pivot (m : Mat3 ℝ) : Quaternion ℝ :=
  if 0 < m.top.x + m.middle.y + m.bottom.z then ⟨1, 0, 0, 0⟩
  else if m.middle.y < m.top.x ∧ m.bottom.z < m.top.x then ⟨0, 1, 0, 0⟩
  else if m.bottom.z < m.middle.y then ⟨0, 0, 1, 0⟩
  else ⟨0, 0, 0, 1⟩

/-- The pivot is axial. -/
theorem isAxial_pivot : (pivot m).IsAxial := by
  unfold pivot
  split_ifs
  · exact .neutral
  · exact .first
  · exact .second
  · exact .third

/-- The number under the square root is at least one, for every matrix: the four numbers add up to
four, and where the first of them is not above one, the largest of the others is taken. -/
theorem one_le_radicand_pivot : 1 ≤ radicand m (pivot m) := by
  have hneutral := radicand_neutral m
  have hfirst := radicand_first m
  have hsecond := radicand_second m
  have hthird := radicand_third m
  rw [Scalar.one_literal] at hneutral hfirst hsecond hthird
  unfold pivot
  split_ifs with htrace hx hy
  · linarith
  · linarith
  · have hxy : m.top.x ≤ m.middle.y := by
      by_contra hyx
      exact hx ⟨not_le.mp hyx, hy.trans (not_le.mp hyx)⟩
    linarith
  · have hyz : m.middle.y ≤ m.bottom.z := not_lt.mp hy
    have hxz : m.top.x ≤ m.bottom.z := by
      by_contra hzx
      exact hx ⟨hyz.trans_lt (not_le.mp hzx), not_le.mp hzx⟩
    linarith

/-- The root of the reading at the pivot is taken of a positive number. -/
theorem radicand_pivot_pos : 0 < radicand m (pivot m) :=
  one_pos.trans_le (one_le_radicand_pivot m)

/-- The number under the root is a component of the reading. -/
theorem normSq_reading_pos : 0 < (reading m (pivot m)).normSq := by
  have hlarge := radicand_pivot_pos m
  rw [(isAxial_pivot m).normSq_reading, normSq]
  have hsquare : 0 < radicand m (pivot m) * radicand m (pivot m) := mul_pos hlarge hlarge
  unfold radicand at hsquare
  linarith [mul_self_nonneg (ofTrace (m.mul (pivot m).matrix)).x,
    mul_self_nonneg (ofTrace (m.mul (pivot m).matrix)).y,
    mul_self_nonneg (ofTrace (m.mul (pivot m).matrix)).z]

/-- A matrix is read with respect to its pivot, and the reading is divided by twice the root. -/
theorem rawOfMatrix_eq :
    rawOfMatrix m = (2 * √(radicand m (pivot m)))⁻¹ • reading m (pivot m) := by
  have hpositive := radicand_pivot_pos m
  unfold pivot at hpositive ⊢
  simp only [rawOfMatrix, Scalar.zero_literal, Scalar.sqrt_real, ← radicand_neutral,
    ← radicand_first, ← radicand_second, ← radicand_third]
  split_ifs at hpositive ⊢
  · rw [reading_neutral]
    ext
    · exact quarter_div_root hpositive
    · exact mul_root _ _
    · exact mul_root _ _
    · exact mul_root _ _
  · rw [reading_first]
    ext
    · exact div_root _ _
    · exact quarter_mul_root hpositive
    · exact div_root _ _
    · exact div_root _ _
  · rw [reading_second]
    ext
    · exact div_root _ _
    · exact div_root _ _
    · exact quarter_mul_root hpositive
    · exact div_root _ _
  · rw [reading_third]
    ext
    · exact div_root _ _
    · exact div_root _ _
    · exact div_root _ _
    · exact quarter_mul_root hpositive

/-- The reading of a matrix is not zero. -/
theorem normSq_rawOfMatrix_pos : 0 < (rawOfMatrix m).normSq := by
  have hroot := Real.sqrt_pos.mpr (radicand_pivot_pos m)
  have hreading := normSq_reading_pos m
  rw [rawOfMatrix_eq, normSq_smul]
  positivity

/-- The quaternion of a matrix is a multiple of the reading, with the sign that makes its scalar part
not negative and the factor that makes its norm one. -/
theorem exists_ofMatrix_eq : ∃ s : ℝ, s * s = (reading m (pivot m)).normSq⁻¹ ∧
    0 ≤ s * (reading m (pivot m)).w ∧ ofMatrix m = s • reading m (pivot m) := by
  have hroot : (2 * √(radicand m (pivot m)))⁻¹ ≠ 0 := by
    have := Real.sqrt_pos.mpr (radicand_pivot_pos m)
    positivity
  have hsigned {c : ℝ} (hc : c ≠ 0) (hw : 0 ≤ c * (reading m (pivot m)).w) :
      ∃ s : ℝ, s * s = (reading m (pivot m)).normSq⁻¹ ∧ 0 ≤ s * (reading m (pivot m)).w ∧
        (c • reading m (pivot m)).normalize = s • reading m (pivot m) := by
    obtain ⟨k, hk, hsquare, heq⟩ := exists_normalize_smul hc (normSq_reading_pos m)
    refine ⟨k * c, hsquare, ?_, heq⟩
    rw [mul_assoc]
    exact mul_nonneg hk.le hw
  unfold ofMatrix
  dsimp only
  rw [rawOfMatrix_eq, Scalar.zero_literal, smul_w]
  split_ifs with hnegative
  · rw [neg_smul_eq]
    refine hsigned (neg_ne_zero.mpr hroot) ?_
    rw [neg_mul]
    linarith
  · exact hsigned hroot (not_lt.mp hnegative)

/-- The quaternion of a matrix has unit norm, whatever the matrix is. -/
theorem hasUnitNorm_ofMatrix : (ofMatrix m).HasUnitNorm := by
  obtain ⟨s, hs, -, heq⟩ := exists_ofMatrix_eq m
  rw [HasUnitNorm, heq, normSq_smul, hs, inv_mul_cancel₀ (normSq_reading_pos m).ne']

/-- Its scalar part is not negative. -/
theorem ofMatrix_w_nonneg : 0 ≤ (ofMatrix m).w := by
  obtain ⟨s, -, hsign, heq⟩ := exists_ofMatrix_eq m
  rw [heq]
  exact hsign

/-- Its matrix is the one of the reading, divided by the square of the norm of the reading. -/
theorem matrix_ofMatrix :
    (ofMatrix m).matrix = (reading m (pivot m)).normSq⁻¹ • (reading m (pivot m)).matrix := by
  obtain ⟨s, hs, -, heq⟩ := exists_ofMatrix_eq m
  rw [heq, matrix_smul, hs]

end Choice

end Quaternion

end FrameKinematics
