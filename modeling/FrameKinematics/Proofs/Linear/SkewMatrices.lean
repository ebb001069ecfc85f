import FrameKinematics.Proofs.Linear.MatrixAlgebra

/-!
# Skew symmetric matrices

A matrix is skew symmetric if and only if it is the matrix of a vector product, and then it determines
the vector. The products with a matrix and with its transpose are associative, so a matrix whose
product with the transpose of an orthogonal matrix is skew symmetric is a vector product with the
columns of the latter.
-/

namespace FrameKinematics.Mat3

section Rows

variable {K : Type} [Scalar K] (a : Mat3 K)

/-- The opposite of a matrix has the opposite rows. -/
@[simp] theorem neg_top : (-a).top = -a.top := rfl
@[simp, inherit_doc neg_top] theorem neg_middle : (-a).middle = -a.middle := rfl
@[simp, inherit_doc neg_top] theorem neg_bottom : (-a).bottom = -a.bottom := rfl

end Rows

instance : Zero (Mat3 ℝ) := ⟨⟨0, 0, 0⟩⟩

/-- The rows of the zero matrix are zero. -/
@[simp] theorem zero_top : (0 : Mat3 ℝ).top = 0 := rfl
@[simp, inherit_doc zero_top] theorem zero_middle : (0 : Mat3 ℝ).middle = 0 := rfl
@[simp, inherit_doc zero_top] theorem zero_bottom : (0 : Mat3 ℝ).bottom = 0 := rfl

noncomputable instance : AddCommGroup (Mat3 ℝ) where
  add_assoc a b c := by ext1 <;> simp [add_assoc]
  zero_add a := by ext1 <;> simp
  add_zero a := by ext1 <;> simp
  nsmul := nsmulRec
  zsmul := zsmulRec
  neg_add_cancel a := by ext1 <;> simp
  sub_eq_add_neg a b := by ext1 <;> simp [sub_eq_add_neg]
  add_comm a b := by ext1 <;> simp [add_comm]

section Products

variable (a b c : Mat3 ℝ) (v : Vec3 ℝ)

/-- The image of the opposite vector is the opposite of the image. -/
theorem apply_neg : a.apply (-v) = -a.apply v := by
  ext <;> simp [apply]

/-- The opposite matrix gives the opposite of the image. -/
theorem neg_apply : (-a).apply v = -a.apply v := by
  ext <;> simp [apply]

/-- Products with transposed matrices are linear in both. -/
theorem add_mulTranspose : (a + b).mulTranspose c = a.mulTranspose c + b.mulTranspose c := by
  ext <;> simp [mulTranspose, apply]

@[inherit_doc add_mulTranspose]
theorem mulTranspose_add : a.mulTranspose (b + c) = a.mulTranspose b + a.mulTranspose c := by
  ext <;> simp [mulTranspose, apply]

/-- The identity is neutral on the right. -/
theorem mul_one_eq : a.mul one = a := by
  ext <;> simp [mul, mulTranspose, apply, transpose, one, Vec3.dot, Vec3.unitX, Vec3.unitY, Vec3.unitZ]

/-- The identity is neutral on the left. -/
theorem one_mul_eq : one.mul a = a := by
  ext <;> simp [mul, mulTranspose, apply, transpose, one, Vec3.dot, Vec3.unitX, Vec3.unitY, Vec3.unitZ]

/-- Signs are taken out of products. -/
theorem neg_mul_eq : (-a).mul b = -a.mul b := by
  ext1 <;> exact apply_neg _ _

@[inherit_doc neg_mul_eq]
theorem neg_mulTranspose : (-a).mulTranspose b = -a.mulTranspose b := by
  ext1 <;> exact apply_neg _ _

@[inherit_doc neg_mul_eq]
theorem mulTranspose_neg : a.mulTranspose (-b) = -a.mulTranspose b := by
  ext1 <;> exact neg_apply _ _

@[inherit_doc neg_mul_eq]
theorem mul_neg_eq : a.mul (-b) = -a.mul b :=
  mulTranspose_neg a b.transpose

/-- Products are associative, and those with transposed matrices are among them. -/
theorem mul_mul_eq : (a.mul b).mul c = a.mul (b.mul c) := by
  ext <;> simp only [mul, mulTranspose, apply, transpose, Vec3.dot] <;> ring

@[inherit_doc mul_mul_eq]
theorem mul_mulTranspose : (a.mul b).mulTranspose c = a.mul (b.mulTranspose c) :=
  mul_mul_eq a b c.transpose

@[inherit_doc mul_mul_eq]
theorem mulTranspose_mul : (a.mulTranspose b).mul c = a.mul (b.transpose.mul c) :=
  mul_mul_eq a b.transpose c

/-- Transposition turns products around. -/
theorem transpose_mulTranspose : (a.mulTranspose b).transpose = b.mulTranspose a := by
  ext <;> exact Vec3.dot_comm _ _

end Products

section Skew

/-- The product with a skew symmetric matrix is a vector product with each column. -/
theorem skewProduct_eq (v : Vec3 ℝ) (a : Mat3 ℝ) : skewProduct v a = (skew v).mul a := by
  ext <;> simp [skewProduct, skew, mul, mulTranspose, apply, transpose, Vec3.dot] <;> ring

/-- The vector products with the unit vectors are the rows of the opposite matrix. -/
theorem cross_units (v : Vec3 ℝ) :
    (⟨v.cross .unitX, v.cross .unitY, v.cross .unitZ⟩ : Mat3 ℝ) = -skew v := by
  ext <;> simp [skew, Vec3.unitX, Vec3.unitY, Vec3.unitZ]

/-- A vector product with a vector product is a product with two matrices. -/
theorem cross_cross_units (v : Vec3 ℝ) :
    (⟨v.cross (v.cross .unitX), v.cross (v.cross .unitY), v.cross (v.cross .unitZ)⟩ : Mat3 ℝ) =
      (skew v).mul (skew v) := by
  ext <;>
    simp [skew, mul, mulTranspose, apply, transpose, Vec3.dot, Vec3.unitX, Vec3.unitY, Vec3.unitZ] <;>
    ring

/-- The vector of the skew matrix of a vector is that vector. -/
theorem deskew_skew (v : Vec3 ℝ) : (skew v).deskew = v := by
  ext <;> simp [skew, deskew, Scalar.half_literal] <;> ring

/-- A matrix whose transpose is its opposite is the matrix of a vector product. -/
theorem skew_deskew {a : Mat3 ℝ} (ha : a.transpose = -a) : skew a.deskew = a := by
  have hxx : a.top.x = -a.top.x := congrArg (fun m => m.top.x) ha
  have hxy : a.middle.x = -a.top.y := congrArg (fun m => m.top.y) ha
  have hxz : a.bottom.x = -a.top.z := congrArg (fun m => m.top.z) ha
  have hyy : a.middle.y = -a.middle.y := congrArg (fun m => m.middle.y) ha
  have hyz : a.bottom.y = -a.middle.z := congrArg (fun m => m.middle.z) ha
  have hzz : a.bottom.z = -a.bottom.z := congrArg (fun m => m.bottom.z) ha
  ext <;> simp only [skew, deskew, Scalar.half_literal, Scalar.zero_literal] <;> linarith

end Skew

end FrameKinematics.Mat3
