import FrameKinematics.Proofs.Linear.VectorAlgebra

/-!
# Scalar products and lengths

Over the real numbers the scalar product of `Vec3` is bilinear and symmetric, and the length of a
vector is the square root of its product with itself. Only the zero vector has no length.
-/

namespace FrameKinematics.Vec3

section Bilinear

variable (u v w : Vec3 ℝ)

/-- The scalar product does not depend on the order of its factors. -/
theorem dot_comm : u.dot v = v.dot u := by
  simp only [dot]
  ring

/-- The scalar product is bilinear. -/
@[simp] theorem dot_add : u.dot (v + w) = u.dot v + u.dot w := by
  simp only [dot, add_x, add_y, add_z]
  ring

@[simp, inherit_doc dot_add] theorem add_dot : (u + v).dot w = u.dot w + v.dot w := by
  simp only [dot, add_x, add_y, add_z]
  ring

@[simp, inherit_doc dot_add] theorem dot_sub : u.dot (v - w) = u.dot v - u.dot w := by
  simp only [dot, sub_x, sub_y, sub_z]
  ring

@[simp, inherit_doc dot_add] theorem sub_dot : (u - v).dot w = u.dot w - v.dot w := by
  simp only [dot, sub_x, sub_y, sub_z]
  ring

@[simp, inherit_doc dot_add] theorem dot_neg : u.dot (-v) = -u.dot v := by
  simp only [dot, neg_x, neg_y, neg_z]
  ring

@[simp, inherit_doc dot_add] theorem neg_dot : (-u).dot v = -u.dot v := by
  simp only [dot, neg_x, neg_y, neg_z]
  ring

@[simp, inherit_doc dot_add] theorem dot_smul (k : ℝ) : u.dot (k • v) = k * u.dot v := by
  simp only [dot, smul_x, smul_y, smul_z]
  ring

@[simp, inherit_doc dot_add] theorem smul_dot (k : ℝ) : (k • u).dot v = k * u.dot v := by
  simp only [dot, smul_x, smul_y, smul_z]
  ring

/-- The scalar product with the zero vector is zero. -/
@[simp] theorem dot_zero : u.dot 0 = 0 := by
  simp [dot]

@[simp, inherit_doc dot_zero] theorem zero_dot : (0 : Vec3 ℝ).dot u = 0 := by
  simp [dot]

end Bilinear

section TripleProduct

variable (u v w : Vec3 ℝ)

/-- A vector product is orthogonal to both factors. -/
@[simp] theorem cross_dot_left : (u.cross v).dot u = 0 := by
  simp only [dot, cross_x, cross_y, cross_z]
  ring

@[simp, inherit_doc cross_dot_left] theorem cross_dot_right : (u.cross v).dot v = 0 := by
  simp only [dot, cross_x, cross_y, cross_z]
  ring

/-- The triple product is cyclic. -/
theorem dot_cross_rotate : u.dot (v.cross w) = v.dot (w.cross u) := by
  simp only [dot, cross_x, cross_y, cross_z]
  ring

/-- A double vector product lies in the plane of the inner factors. -/
theorem cross_cross : u.cross (v.cross w) = (u.dot w) • v - (u.dot v) • w := by
  ext <;> simp [dot] <;> ring

/-- The identity of Lagrange. -/
theorem cross_dot_cross_self :
    (u.cross v).dot (u.cross v) = u.dot u * v.dot v - u.dot v * u.dot v := by
  simp only [dot, cross_x, cross_y, cross_z]
  ring

/-- A second vector product with the same factor only turns the first one and scales it. -/
theorem cross_cross_dot_self :
    (u.cross (u.cross v)).dot (u.cross (u.cross v)) = u.dot u * (u.cross v).dot (u.cross v) := by
  rw [cross_dot_cross_self, dot_comm u (u.cross v), cross_dot_left, zero_mul, sub_zero]

end TripleProduct

section Length

variable (u : Vec3 ℝ)

/-- A vector has no negative scalar product with itself. -/
theorem dot_self_nonneg : 0 ≤ u.dot u :=
  add_nonneg (add_nonneg (mul_self_nonneg _) (mul_self_nonneg _)) (mul_self_nonneg _)

/-- The length of a vector is the root of the sum of the squares of its coordinates. -/
theorem norm_eq : u.norm = √(u.x * u.x + u.y * u.y + u.z * u.z) := rfl

/-- The square of the length is the sum of these squares. -/
theorem norm_mul_norm : u.norm * u.norm = u.x * u.x + u.y * u.y + u.z * u.z :=
  Real.mul_self_sqrt u.dot_self_nonneg

/-- Lengths are not negative. -/
theorem norm_nonneg : 0 ≤ u.norm :=
  Real.sqrt_nonneg _

/-- The square of the length is the scalar product of the vector with itself. -/
theorem norm_sq : u.norm ^ 2 = u.dot u :=
  Real.sq_sqrt u.dot_self_nonneg

/-- Opposite vectors have the same length. -/
theorem norm_neg : (-u).norm = u.norm := by
  rw [norm, norm, neg_dot, dot_neg, neg_neg]

/-- Only the zero vector has no length. -/
theorem norm_eq_zero {u : Vec3 ℝ} : u.norm = 0 ↔ u = 0 := by
  constructor
  · intro hnorm
    have hsquares := norm_mul_norm u
    rw [hnorm, zero_mul] at hsquares
    have hx := mul_self_nonneg u.x
    have hy := mul_self_nonneg u.y
    have hz := mul_self_nonneg u.z
    ext
    · exact mul_self_eq_zero.mp (by linarith)
    · exact mul_self_eq_zero.mp (by linarith)
    · exact mul_self_eq_zero.mp (by linarith)
  · rintro rfl
    simp [norm_eq]

/-- The zero vector has length zero. -/
@[simp] theorem norm_zero : (0 : Vec3 ℝ).norm = 0 :=
  norm_eq_zero.mpr rfl

/-- The inequality of Cauchy and Schwarz. The squares differ by that of the vector product. -/
theorem abs_dot_le_norm_mul_norm (u v : Vec3 ℝ) : |u.dot v| ≤ u.norm * v.norm := by
  have hproduct := mul_nonneg u.norm_nonneg v.norm_nonneg
  have hsquares := (u.cross v).dot_self_nonneg
  rw [cross_dot_cross_self, ← norm_sq, ← norm_sq] at hsquares
  refine abs_le_of_sq_le_sq ?_ hproduct
  rw [mul_pow]
  linarith

/-- A vector whose product with itself is one has length one. -/
theorem norm_of_dot_self {u : Vec3 ℝ} (hunit : u.dot u = 1) : u.norm = 1 := by
  rw [norm, hunit, Scalar.sqrt_real, Real.sqrt_one]

/-- A vector divided by its length, if it has one, has length one. -/
theorem dot_self_div_norm {u : Vec3 ℝ} (hnorm : u.norm ≠ 0) :
    (u / u.norm).dot (u / u.norm) = 1 := by
  have hsquares : u.norm * u.norm = u.dot u := norm_mul_norm u
  rw [div_eq_smul, dot_smul, smul_dot, ← hsquares]
  field_simp

end Length

end FrameKinematics.Vec3
