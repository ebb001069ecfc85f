import Mathlib.Algebra.Module.Basic
import Mathlib.Tactic.Ring
import FrameKinematics.Proofs.Scalar.Real
import FrameKinematics.Linear.Vector

/-!
# The algebra of vectors of space

Over the real numbers the vectors of `Vec3` are a vector space, and the vector product is
bilinear. An identity of vectors is proved by its three coordinates, which the first lemmas
lay open for any scalars.
-/

namespace FrameKinematics.Vec3

section Coordinates

variable {K : Type} [Scalar K] (u v : Vec3 K) (s : K)

/-- Vectors are added coordinate by coordinate. -/
@[simp] theorem add_x : (u + v).x = u.x + v.x := rfl
@[simp, inherit_doc add_x] theorem add_y : (u + v).y = u.y + v.y := rfl
@[simp, inherit_doc add_x] theorem add_z : (u + v).z = u.z + v.z := rfl

/-- Vectors are subtracted coordinate by coordinate. -/
@[simp] theorem sub_x : (u - v).x = u.x - v.x := rfl
@[simp, inherit_doc sub_x] theorem sub_y : (u - v).y = u.y - v.y := rfl
@[simp, inherit_doc sub_x] theorem sub_z : (u - v).z = u.z - v.z := rfl

/-- The opposite of a vector has the opposite coordinates. -/
@[simp] theorem neg_x : (-u).x = -u.x := rfl
@[simp, inherit_doc neg_x] theorem neg_y : (-u).y = -u.y := rfl
@[simp, inherit_doc neg_x] theorem neg_z : (-u).z = -u.z := rfl

/-- A multiple of a vector has the multiples of its coordinates. -/
@[simp] theorem smul_x : (s • u).x = s * u.x := rfl
@[simp, inherit_doc smul_x] theorem smul_y : (s • u).y = s * u.y := rfl
@[simp, inherit_doc smul_x] theorem smul_z : (s • u).z = s * u.z := rfl

/-- A coordinate of a vector product is made of the two other coordinates of both factors. -/
@[simp] theorem cross_x : (u.cross v).x = u.y * v.z - u.z * v.y := rfl
@[simp, inherit_doc cross_x] theorem cross_y : (u.cross v).y = u.z * v.x - u.x * v.z := rfl
@[simp, inherit_doc cross_x] theorem cross_z : (u.cross v).z = u.x * v.y - u.y * v.x := rfl

end Coordinates

instance : Zero (Vec3 ℝ) := ⟨⟨0, 0, 0⟩⟩

/-- The coordinates of the zero vector are zero. -/
@[simp] theorem x_zero : (0 : Vec3 ℝ).x = 0 := rfl
@[simp, inherit_doc x_zero] theorem y_zero : (0 : Vec3 ℝ).y = 0 := rfl
@[simp, inherit_doc x_zero] theorem z_zero : (0 : Vec3 ℝ).z = 0 := rfl

/-- The vector of three zeros is the neutral element of addition. -/
@[simp] theorem zero_eq : (zero : Vec3 ℝ) = 0 := by
  ext <;> simp [zero]

noncomputable instance : AddCommGroup (Vec3 ℝ) where
  add_assoc u v w := by ext <;> simp [add_assoc]
  zero_add u := by ext <;> simp
  add_zero u := by ext <;> simp
  nsmul := nsmulRec
  zsmul := zsmulRec
  neg_add_cancel u := by ext <;> simp
  sub_eq_add_neg u v := by ext <;> simp [sub_eq_add_neg]
  add_comm u v := by ext <;> simp [add_comm]

noncomputable instance : Module ℝ (Vec3 ℝ) where
  one_smul u := by ext <;> simp
  mul_smul a b u := by ext <;> simp [mul_assoc]
  smul_zero a := by ext <;> simp
  smul_add a u v := by ext <;> simp [mul_add]
  add_smul a b u := by ext <;> simp [add_mul]
  zero_smul u := by ext <;> simp

section Mean

/-- Division by a scalar is a product with its inverse. -/
theorem div_eq_smul (u : Vec3 ℝ) (k : ℝ) : u / k = k⁻¹ • u := by
  ext <;> exact div_eq_inv_mul _ _

/-- The mean is the sum divided by the number of the vectors, also where there are none. -/
theorem mean_eq (vs : List (Vec3 ℝ)) : mean vs = (vs.length : ℝ)⁻¹ • vs.sum := by
  cases vs with
  | nil => simp [mean]
  | cons v vs =>
    have hsum : vs.foldl (· + ·) v = (v :: vs).sum := by
      rw [List.sum_eq_foldl, List.foldl_cons, zero_add]
    rw [mean, hsum, div_eq_smul, Scalar.ofNat_real, List.length_cons]

/-- The mean of one and the same vector is this vector. -/
theorem mean_replicate {n : ℕ} (hn : n ≠ 0) (v : Vec3 ℝ) : mean (List.replicate n v) = v := by
  have hcount : (n : ℝ) ≠ 0 := Nat.cast_ne_zero.mpr hn
  rw [mean_eq, List.length_replicate, List.sum_replicate, ← Nat.cast_smul_eq_nsmul ℝ, smul_smul,
    inv_mul_cancel₀ hcount, one_smul]

end Mean

section VectorProduct

variable (u v w : Vec3 ℝ)

/-- The vector product is bilinear. -/
@[simp] theorem cross_add : u.cross (v + w) = u.cross v + u.cross w := by
  ext <;> simp <;> ring

@[simp, inherit_doc cross_add] theorem add_cross : (u + v).cross w = u.cross w + v.cross w := by
  ext <;> simp <;> ring

@[simp, inherit_doc cross_add] theorem cross_sub : u.cross (v - w) = u.cross v - u.cross w := by
  ext <;> simp <;> ring

@[simp, inherit_doc cross_add] theorem sub_cross : (u - v).cross w = u.cross w - v.cross w := by
  ext <;> simp <;> ring

@[simp, inherit_doc cross_add] theorem cross_neg : u.cross (-v) = -u.cross v := by
  ext <;> simp <;> ring

@[simp, inherit_doc cross_add] theorem neg_cross : (-u).cross v = -u.cross v := by
  ext <;> simp <;> ring

@[simp, inherit_doc cross_add] theorem cross_smul (k : ℝ) : u.cross (k • v) = k • u.cross v := by
  ext <;> simp <;> ring

@[simp, inherit_doc cross_add] theorem smul_cross (k : ℝ) : (k • u).cross v = k • u.cross v := by
  ext <;> simp <;> ring

/-- The vector product with the zero vector is zero. -/
@[simp] theorem cross_zero : u.cross 0 = 0 := by
  ext <;> simp

@[simp, inherit_doc cross_zero] theorem zero_cross : (0 : Vec3 ℝ).cross u = 0 := by
  ext <;> simp

/-- A vector is parallel to itself. -/
@[simp] theorem cross_self : u.cross u = 0 := by
  ext <;> simp <;> ring

/-- The vector product is alternating. -/
theorem neg_cross_comm : -u.cross v = v.cross u := by
  ext <;> simp <;> ring

/-- The identity of Jacobi, by which a double vector product is turned around. -/
theorem jacobi : u.cross (v.cross w) = (u.cross v).cross w + v.cross (u.cross w) := by
  ext <;> simp <;> ring

end VectorProduct

end FrameKinematics.Vec3
