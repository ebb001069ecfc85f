import Mathlib.Tactic.FieldSimp
import Mathlib.Tactic.Module
import FrameKinematics.Proofs.Linear.ScalarProduct
import FrameKinematics.Motion.Rodrigues

/-!
# The algebra of values with two derivatives

Scalars with their first two derivatives are multiplied by the rule of Leibniz, which makes them a
commutative ring. They act on vectors with two derivatives, whose scalar products are among them. A
scalar that is not zero has an inverse, whatever its derivatives are. So an identity between values
that holds by the laws of a ring holds between their derivatives too, and the derivatives of a
formula need not be looked at.
-/

namespace FrameKinematics.Jet

/-- Applies a function to a value and to its derivatives. -/
@[simps] def map {V W : Type} (f : V → W) (jet : Jet V) : Jet W :=
  ⟨f jet.value, f jet.first, f jet.second⟩

section Scalars

variable (a b : Jet ℝ)

noncomputable instance : Add (Jet ℝ) :=
  ⟨fun a b => ⟨a.value + b.value, a.first + b.first, a.second + b.second⟩⟩
noncomputable instance : Sub (Jet ℝ) :=
  ⟨fun a b => ⟨a.value - b.value, a.first - b.first, a.second - b.second⟩⟩
noncomputable instance : Neg (Jet ℝ) := ⟨fun a => ⟨-a.value, -a.first, -a.second⟩⟩

/-- Constants have no derivatives. -/
instance : Zero (Jet ℝ) := ⟨⟨0, 0, 0⟩⟩
instance : One (Jet ℝ) := ⟨⟨1, 0, 0⟩⟩

/-- The rule of Leibniz. -/
noncomputable instance : Mul (Jet ℝ) :=
  ⟨fun a b => ⟨a.value * b.value, a.first * b.value + a.value * b.first,
    a.second * b.value + 2.0 * a.first * b.first + a.value * b.second⟩⟩

/-- Jets are added component by component. -/
@[simp] theorem add_value : (a + b).value = a.value + b.value := rfl
@[simp, inherit_doc add_value] theorem add_first : (a + b).first = a.first + b.first := rfl
@[simp, inherit_doc add_value] theorem add_second : (a + b).second = a.second + b.second := rfl

/-- Jets are subtracted component by component. -/
@[simp] theorem sub_value : (a - b).value = a.value - b.value := rfl
@[simp, inherit_doc sub_value] theorem sub_first : (a - b).first = a.first - b.first := rfl
@[simp, inherit_doc sub_value] theorem sub_second : (a - b).second = a.second - b.second := rfl

/-- The opposite of a jet has the opposite components. -/
@[simp] theorem neg_value : (-a).value = -a.value := rfl
@[simp, inherit_doc neg_value] theorem neg_first : (-a).first = -a.first := rfl
@[simp, inherit_doc neg_value] theorem neg_second : (-a).second = -a.second := rfl

/-- The jet of the constant zero is zero. -/
@[simp] theorem zero_value : (0 : Jet ℝ).value = 0 := rfl
@[simp, inherit_doc zero_value] theorem zero_first : (0 : Jet ℝ).first = 0 := rfl
@[simp, inherit_doc zero_value] theorem zero_second : (0 : Jet ℝ).second = 0 := rfl

/-- The jet of the constant one has no derivatives. -/
@[simp] theorem one_value : (1 : Jet ℝ).value = 1 := rfl
@[simp, inherit_doc one_value] theorem one_first : (1 : Jet ℝ).first = 0 := rfl
@[simp, inherit_doc one_value] theorem one_second : (1 : Jet ℝ).second = 0 := rfl

/-- The value of a product is the product of the values. -/
@[simp] theorem mul_value : (a * b).value = a.value * b.value := rfl

/-- The first derivative of a product, by the product rule. -/
@[simp] theorem mul_first : (a * b).first = a.first * b.value + a.value * b.first := rfl

/-- The second derivative of a product, by the product rule. -/
@[simp] theorem mul_second :
    (a * b).second = a.second * b.value + 2.0 * a.first * b.first + a.value * b.second := rfl

noncomputable instance : CommRing (Jet ℝ) where
  add_assoc a b c := by ext <;> simp [add_assoc]
  zero_add a := by ext <;> simp
  add_zero a := by ext <;> simp
  add_comm a b := by ext <;> simp [add_comm]
  nsmul := nsmulRec
  zsmul := zsmulRec
  neg_add_cancel a := by ext <;> simp
  sub_eq_add_neg a b := by ext <;> simp [sub_eq_add_neg]
  left_distrib a b c := by ext <;> simp <;> ring
  right_distrib a b c := by ext <;> simp <;> ring
  zero_mul a := by ext <;> simp
  mul_zero a := by ext <;> simp
  mul_assoc a b c := by ext <;> simp <;> ring
  one_mul a := by ext <;> simp
  mul_one a := by ext <;> simp
  mul_comm a b := by ext <;> simp <;> ring

/-- One more than a jet has the same derivatives. -/
theorem one_add_eq : 1 + a = ⟨1.0 + a.value, a.first, a.second⟩ := by
  ext <;> simp

/-- The inverse of a scalar with its derivatives. -/
noncomputable def inverse (a : Jet ℝ) : Jet ℝ :=
  let k := 1.0 / a.value
  ⟨k, -a.first * k * k, -a.second * k * k + 2.0 * a.first * a.first * k * k * k⟩

/-- The inverse of a jet that is not zero undoes it. -/
theorem inverse_mul_self {a : Jet ℝ} (ha : a.value ≠ 0) : a.inverse * a = 1 := by
  ext
  · simp [inverse, ha]
  · simp [inverse]
    field_simp
    ring
  · simp [inverse]
    field_simp
    ring

end Scalars

section Vectors

noncomputable instance : SMul (Jet ℝ) (Jet (Vec3 ℝ)) :=
  ⟨fun a u => ⟨a.value • u.value, a.first • u.value + a.value • u.first,
    a.second • u.value + (2.0 * a.first) • u.first + a.value • u.second⟩⟩

variable (a b : Jet ℝ) (u v : Jet (Vec3 ℝ))

/-- The value of a multiple is the multiple of the value. -/
@[simp] theorem smul_value : (a • u).value = a.value • u.value := rfl

/-- The first derivative of a multiple, by the product rule. -/
@[simp] theorem smul_first : (a • u).first = a.first • u.value + a.value • u.first := rfl

/-- The second derivative of a multiple, by the product rule. -/
@[simp] theorem smul_second :
    (a • u).second = a.second • u.value + (2.0 * a.first) • u.first + a.value • u.second := rfl

noncomputable instance : MulAction (Jet ℝ) (Jet (Vec3 ℝ)) where
  one_smul u := by ext1 <;> simp
  mul_smul a b u := by ext <;> simp <;> ring

/-- The scalar product of two vectors with its derivatives. -/
noncomputable def dot (u v : Jet (Vec3 ℝ)) : Jet ℝ :=
  ⟨u.value.dot v.value, u.first.dot v.value + u.value.dot v.first,
    u.second.dot v.value + 2.0 * u.first.dot v.first + u.value.dot v.second⟩

/-- The rule for quotients, which has the derivatives of the quotient on both sides. -/
theorem inverse_smul :
    a.inverse • u =
      let k := 1.0 / a.value
      let p := k • u.value
      let p' := k • (u.first - a.first • p)
      ⟨p, p', k • (u.second - (2.0 * a.first) • p' - a.second • p)⟩ := by
  ext1
  · rfl
  · simp only [smul_first, inverse, Scalar.one_literal]
    module
  · simp only [smul_second, inverse, Scalar.one_literal, Scalar.two_literal]
    module

/-- The scalar product of a moving vector with itself, with its derivatives. -/
theorem dot_self : u.dot u = ⟨u.value.dot u.value, 2.0 * u.value.dot u.first,
    2.0 * (u.first.dot u.first + u.value.dot u.second)⟩ := by
  ext <;> simp [dot, Vec3.dot_comm u.first u.value, Vec3.dot_comm u.second u.value] <;> ring

/-- Scalars are taken out of a scalar product. -/
theorem smul_dot_smul : (a • u).dot (b • v) = a * b * u.dot v := by
  ext <;> simp [dot] <;> ring

end Vectors

end FrameKinematics.Jet
