import Mathlib.Tactic.LinearCombination
import FrameKinematics.Proofs.Linear.VectorAlgebra
import FrameKinematics.Rotation

/-!
# Unit quaternions

Quaternions of unit norm form a group and act on vectors by rotation. The formula of `rotate`
is not multiplicative in the quaternion, but on unit quaternions it agrees with the vector part
of `q v q*`, which is.
-/

namespace FrameKinematics.Quaternion

/-- The sum of the squares of the components is one. -/
def HasUnitNorm (q : Quaternion ℝ) : Prop := q.normSq = 1

variable {p q : Quaternion ℝ}

/-- The Hamilton product is associative. -/
theorem mul_mul (p q r : Quaternion ℝ) : (p.mul q).mul r = p.mul (q.mul r) := by
  ext <;> simp only [mul] <;> ring

/-- The quaternion one is neutral on the left. -/
@[simp] theorem one_mul_eq (q : Quaternion ℝ) : one.mul q = q := by
  ext <;> simp [mul, one]

/-- The quaternion one is neutral on the right. -/
@[simp] theorem mul_one_eq (q : Quaternion ℝ) : q.mul one = q := by
  ext <;> simp [mul, one]

/-- The conjugate of the conjugate is the quaternion. -/
@[simp] theorem conjugate_conjugate (q : Quaternion ℝ) : q.conjugate.conjugate = q := by
  ext <;> simp [conjugate]

section Opposite

variable (q : Quaternion ℝ)

/-- The opposite of a quaternion has the opposite components. -/
@[simp] theorem neg_w : (-q).w = -q.w := rfl
@[simp, inherit_doc neg_w] theorem neg_x : (-q).x = -q.x := rfl
@[simp, inherit_doc neg_w] theorem neg_y : (-q).y = -q.y := rfl
@[simp, inherit_doc neg_w] theorem neg_z : (-q).z = -q.z := rfl

/-- The opposite of a quaternion has the opposite vector part. -/
@[simp] theorem vector_neg : (-q).vector = -q.vector := rfl

/-- Opposite quaternions have the same norm. -/
theorem normSq_neg : (-q).normSq = q.normSq := by
  simp only [normSq, neg_w, neg_x, neg_y, neg_z, neg_mul_neg]

end Opposite

/-- Conjugation turns products around. -/
theorem conjugate_mul (p q : Quaternion ℝ) :
    (p.mul q).conjugate = q.conjugate.mul p.conjugate := by
  ext <;> simp only [mul, conjugate] <;> ring

/-- The norm is multiplicative. -/
theorem normSq_mul (p q : Quaternion ℝ) : (p.mul q).normSq = p.normSq * q.normSq := by
  simp only [mul, normSq]
  ring

/-- The conjugate has the same norm. -/
theorem normSq_conjugate (q : Quaternion ℝ) : q.conjugate.normSq = q.normSq := by
  simp only [conjugate, normSq]
  ring

/-- The quaternion one has norm one. -/
theorem hasUnitNorm_one : (one : Quaternion ℝ).HasUnitNorm := by
  simp [HasUnitNorm, normSq, one]

/-- The product of quaternions of norm one has norm one. -/
theorem HasUnitNorm.mul (hp : p.HasUnitNorm) (hq : q.HasUnitNorm) : (p.mul q).HasUnitNorm := by
  rw [HasUnitNorm, normSq_mul, hp, hq, mul_one]

/-- The conjugate of a quaternion of norm one has norm one. -/
theorem HasUnitNorm.conjugate (hq : q.HasUnitNorm) : q.conjugate.HasUnitNorm := by
  rwa [HasUnitNorm, normSq_conjugate]

/-- The conjugate of a unit quaternion is its inverse. -/
theorem HasUnitNorm.conjugate_mul_self (hq : q.HasUnitNorm) : q.conjugate.mul q = one := by
  simp only [HasUnitNorm, normSq] at hq
  ext
  · simp only [Quaternion.mul, Quaternion.conjugate, one, Scalar.one_literal]
    linear_combination hq
  all_goals
    simp only [Quaternion.mul, Quaternion.conjugate, one, Scalar.zero_literal]
    ring

/-- A quaternion of norm one is not zero. -/
theorem HasUnitNorm.isZero_eq_false (hq : q.HasUnitNorm) : q.isZero = false := by
  by_contra hzero
  obtain ⟨hw, hx, hy, hz⟩ : q.w = 0 ∧ q.x = 0 ∧ q.y = 0 ∧ q.z = 0 := by
    simpa [isZero] using hzero
  simp [HasUnitNorm, normSq, hw, hx, hy, hz] at hq

/-- A unit quaternion is divided by one when it is normalised. -/
theorem HasUnitNorm.normalize_eq (hq : q.HasUnitNorm) : q.normalize = q := by
  have hnorm : Scalar.sqrt q.normSq = 1 := by
    rw [hq, Scalar.sqrt_real, Real.sqrt_one]
  simp [normalize, hnorm]

section Action

variable (u v : Vec3 ℝ)

/-- The vector part of `q v q*`. -/
noncomputable def sandwich (q : Quaternion ℝ) (v : Vec3 ℝ) : Vec3 ℝ :=
  ((q.mul ⟨0, v.x, v.y, v.z⟩).mul q.conjugate).vector

/-- A unit quaternion rotates a vector to the vector part of `q v q*`. -/
theorem HasUnitNorm.rotate_eq_sandwich (hq : q.HasUnitNorm) : q.rotate v = q.sandwich v := by
  simp only [HasUnitNorm, normSq] at hq
  -- The two formulas differ by `(1 - |q|²) v`.
  ext <;> simp [rotate, sandwich, vector, Quaternion.mul, Quaternion.conjugate]
  · linear_combination -v.x * hq
  · linear_combination -v.y * hq
  · linear_combination -v.z * hq

/-- The sandwich of a product is one sandwich within the other. -/
theorem sandwich_mul (p q : Quaternion ℝ) :
    (p.mul q).sandwich v = p.sandwich (q.sandwich v) := by
  ext <;> simp [sandwich, vector, mul, conjugate] <;> ring

/-- The vector product of two images is the image of the vector product, up to the norm. -/
theorem sandwich_cross_sandwich (q : Quaternion ℝ) :
    (q.sandwich u).cross (q.sandwich v) = q.normSq • q.sandwich (u.cross v) := by
  ext <;> simp [sandwich, vector, mul, conjugate, normSq] <;> ring

/-- The scalar product of two images is that of the vectors, up to the norm. -/
theorem sandwich_dot_sandwich (q : Quaternion ℝ) :
    (q.sandwich u).dot (q.sandwich v) = q.normSq ^ 2 * u.dot v := by
  simp [sandwich, vector, mul, conjugate, normSq, Vec3.dot]
  ring

/-- A product of unit quaternions rotates by one after the other. -/
theorem HasUnitNorm.rotate_mul (hp : p.HasUnitNorm) (hq : q.HasUnitNorm) :
    (p.mul q).rotate v = p.rotate (q.rotate v) := by
  rw [(hp.mul hq).rotate_eq_sandwich, hp.rotate_eq_sandwich, hq.rotate_eq_sandwich, sandwich_mul]

/-- Rotations keep vector products. -/
theorem HasUnitNorm.rotate_cross (hq : q.HasUnitNorm) :
    q.rotate (u.cross v) = (q.rotate u).cross (q.rotate v) := by
  simp only [hq.rotate_eq_sandwich]
  rw [sandwich_cross_sandwich, hq, one_smul]

/-- Rotations keep scalar products. -/
theorem HasUnitNorm.rotate_dot (hq : q.HasUnitNorm) :
    (q.rotate u).dot (q.rotate v) = u.dot v := by
  simp only [hq.rotate_eq_sandwich]
  rw [sandwich_dot_sandwich, hq, one_pow, one_mul]

/-- The quaternion one turns no vector. -/
@[simp] theorem rotate_one : (one : Quaternion ℝ).rotate v = v := by
  ext <;> simp [rotate, vector, one]

/-- Whatever its norm, a quaternion rotates vectors linearly. -/
@[simp] theorem rotate_add (q : Quaternion ℝ) : q.rotate (u + v) = q.rotate u + q.rotate v := by
  ext <;> simp [rotate, vector] <;> ring

@[simp, inherit_doc rotate_add]
theorem rotate_sub (q : Quaternion ℝ) : q.rotate (u - v) = q.rotate u - q.rotate v := by
  ext <;> simp [rotate, vector] <;> ring

@[simp, inherit_doc rotate_add]
theorem rotate_neg (q : Quaternion ℝ) : q.rotate (-v) = -q.rotate v := by
  ext <;> simp [rotate, vector] <;> ring

@[simp, inherit_doc rotate_add]
theorem rotate_smul (q : Quaternion ℝ) (s : ℝ) : q.rotate (s • v) = s • q.rotate v := by
  ext <;> simp [rotate, vector] <;> ring

@[simp, inherit_doc rotate_add]
theorem rotate_zero (q : Quaternion ℝ) : q.rotate 0 = 0 := by
  ext <;> simp [rotate, vector]

end Action

end FrameKinematics.Quaternion
