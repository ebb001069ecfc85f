import FrameKinematics.Proofs.Scalar.Real

/-!
# Scalars that notice undefined operations

The real numbers with one more scalar, which stands for the result of an undefined operation: of a
division by zero, of a remainder by zero, and of a square root of a number that is not positive.
Every operation on it gives it again, and no comparison with it holds. A formula of the library that
gives the same real numbers over these scalars as over the real numbers has therefore met positive
numbers under its square roots and no zero among its divisors, on the way that its comparisons take.
-/

namespace FrameKinematics

/-- A real number, or the result of an undefined operation. -/
inductive Checked where
  | undefined
  | value (x : ℝ)

namespace Checked

/-- An operation that is defined for all real numbers. -/
def lift (f : ℝ → ℝ) : Checked → Checked
  | value x => value (f x)
  | undefined => undefined

@[inherit_doc lift]
def lift₂ (f : ℝ → ℝ → ℝ) : Checked → Checked → Checked
  | value x, value y => value (f x y)
  | _, _ => undefined

/-- An operation that is defined unless its second argument is zero. -/
noncomputable def liftDivision (f : ℝ → ℝ → ℝ) : Checked → Checked → Checked
  | value x, value y => if y = 0 then undefined else value (f x y)
  | _, _ => undefined

/-- The square root of a positive number. -/
noncomputable def root : Checked → Checked
  | value x => if 0 < x then value √x else undefined
  | undefined => undefined

/-- A comparison, which does not hold of what is undefined. -/
def Compares (r : ℝ → ℝ → Prop) : Checked → Checked → Prop
  | value x, value y => r x y
  | _, _ => False

open Classical in
/-- The operations of the real numbers, each with a check that it is defined. -/
noncomputable instance : Scalar Checked where
  add := lift₂ (· + ·)
  sub := lift₂ (· - ·)
  mul := lift₂ (· * ·)
  div := liftDivision (· / ·)
  neg := lift (- ·)
  ofScientific m negative e := value (OfScientific.ofScientific m negative e)
  lt := Compares (· < ·)
  le := Compares (· ≤ ·)
  beq a b := decide (Compares (· = ·) a b)
  decidableLT _ _ := propDecidable _
  decidableLE _ _ := propDecidable _
  sqrt := root
  sin := lift Real.sin
  cos := lift Real.cos
  atan2 := lift₂ fun y x => Scalar.atan2 y x
  pi := value Real.pi
  pow a n := lift (· ^ n) a
  rem := liftDivision fun x y => Scalar.rem x y
  floor
    | value x => .ok ⌊x⌋
    | undefined => .error .notANumber

variable {x y : ℝ}

/-- On real numbers the operations are those of the real numbers. -/
@[simp] theorem value_add (x y : ℝ) : value x + value y = value (x + y) := rfl

@[simp, inherit_doc value_add]
theorem value_sub (x y : ℝ) : value x - value y = value (x - y) := rfl

@[simp, inherit_doc value_add]
theorem value_mul (x y : ℝ) : value x * value y = value (x * y) := rfl

@[simp, inherit_doc value_add] theorem value_neg (x : ℝ) : -value x = value (-x) := rfl

@[simp, inherit_doc value_add]
theorem ofScientific_eq (m : ℕ) (negative : Bool) (e : ℕ) :
    (OfScientific.ofScientific m negative e : Checked) =
      value (OfScientific.ofScientific m negative e) := rfl

@[simp, inherit_doc value_add] theorem value_lt_value : value x < value y ↔ x < y := Iff.rfl

@[simp, inherit_doc value_add]
theorem value_beq_value : (value x == value y) = decide (x = y) :=
  decide_eq_decide.mpr Iff.rfl

/-- A quotient has a value unless the divisor is zero. -/
theorem value_div_value (x y : ℝ) :
    value x / value y = if y = 0 then undefined else value (x / y) := rfl

/-- A root has a value where the number under it is positive. -/
theorem sqrt_eq_ite (x : ℝ) :
    Scalar.sqrt (value x) = if 0 < x then value √x else undefined := rfl

/-- A quotient is defined where its divisor is not zero. -/
theorem value_div (x : ℝ) (hy : y ≠ 0) : value x / value y = value (x / y) := by
  rw [value_div_value, if_neg hy]

/-- A square root is defined where its argument is positive. -/
theorem sqrt_value (hx : 0 < x) : Scalar.sqrt (value x) = value √x := by
  rw [sqrt_eq_ite, if_pos hx]

end Checked

end FrameKinematics
