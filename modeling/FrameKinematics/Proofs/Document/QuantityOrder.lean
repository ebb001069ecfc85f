import FrameKinematics.Document.Quantity
import FrameKinematics.Proofs.Scalar.DoubleValues

/-!
# The order of quantities

A quantity of a configuration is a whole number, a flag or a double, and if it is a number it has a
value. Quantities are compared by their greatest whole parts, and what comes out is the order of
their values: one quantity is less than another if both are numbers and their values are in this
order. Of what is no number neither this nor the opposite holds, so being at least some quantity
says more than not being less.
-/

namespace FrameKinematics.Quantity

/-- The value of a quantity that is a number. A flag counts as zero or one. -/
noncomputable def value? : Quantity Float → Option EReal
  | whole n => some (n : ℝ)
  | flag b => some ((if b then 1 else 0 : ℤ) : ℝ)
  | real x => Binary64.value? x

/-- Both quantities are numbers, and the first one is the smaller. -/
def Below (p q : Quantity Float) : Prop :=
  ∃ u v, p.value? = some u ∧ q.value? = some v ∧ u < v

/-- Both quantities are numbers, and the first one is not the smaller. -/
def AtLeast (p q : Quantity Float) : Prop :=
  ∃ u v, p.value? = some u ∧ q.value? = some v ∧ v ≤ u

section Values

variable {p q r : Quantity Float} {x : Float} {m n : ℤ}

/-- A double is compared with a whole number by their values. -/
theorem scalarLess_iff : scalarLess x n = true ↔ ∃ u, Binary64.value? x = some u ∧ u < (n : ℝ) := by
  have hfloor : (Scalar.floor x : Except Unbounded Int) = Binary64.floor x := rfl
  rw [scalarLess, hfloor]
  cases hx : Binary64.floor x with
  | ok below =>
    obtain ⟨u, hvalue, hbelow⟩ := Binary64.floor_eq_ok hx
    simp [hvalue, hbelow]
  | error reason =>
    cases reason with
    | notANumber => simp [Binary64.floor_eq_error_notANumber hx]
    | infinite =>
      have hzero : x < (0.0 : Float) ↔ ∃ u, Binary64.value? x = some u ∧ u < 0 := by
        rw [Binary64.lt_iff]
        simp [Binary64.value?_zero]
      rcases Binary64.floor_eq_error_infinite hx with hvalue | hvalue
      · simp [hzero, hvalue]
      · simp [hzero, hvalue]

/-- A whole number is compared with a double by their values. -/
theorem scalarLess_neg_iff :
    scalarLess (-x) (-n) = true ↔ ∃ v, Binary64.value? x = some v ∧ (n : ℝ) < v := by
  rw [scalarLess_iff, Binary64.value?_neg]
  cases Binary64.value? x with
  | none => simp
  | some v => simp only [Option.map_some, Option.some.injEq, exists_eq_left', Int.cast_neg,
      EReal.coe_neg, EReal.neg_lt_neg_iff]

/-- The order of quantities is the order of their values. -/
theorem less_iff : p.less q = true ↔ p.Below q := by
  cases p with
  | real x =>
    cases q with
    | real y => simp [less, Below, value?, Binary64.lt_iff]
    | whole k => simp [less, Below, value?, scalarLess_iff]
    | flag c => simp [less, Below, value?, scalarLess_iff]
  | whole n =>
    cases q with
    | real y => simp [less, Below, value?, scalarLess_neg_iff]
    | whole k => simp [less, Below, value?]
    | flag c => simp [less, Below, value?, -Int.cast_ite]
  | flag b =>
    cases q with
    | real y => simp [less, Below, value?, scalarLess_neg_iff]
    | whole k => simp [less, Below, value?, -Int.cast_ite]
    | flag c => cases b <;> cases c <;> simp [less, Below, value?]

/-- A quantity is a number if it has a value. -/
theorem isNumber_iff : p.isNumber = true ↔ ∃ u, p.value? = some u := by
  cases p with
  | real x => exact Binary64.beq_self_iff.trans Option.isSome_iff_exists
  | whole n => exact iff_of_true rfl ⟨_, rfl⟩
  | flag b => exact iff_of_true rfl ⟨_, rfl⟩

/-- Among numbers what is not less is at least as large. -/
theorem atLeast_iff : p.AtLeast q ↔ p.isNumber = true ∧ q.isNumber = true ∧ p.less q = false := by
  rw [← Bool.not_eq_true, less_iff, isNumber_iff, isNumber_iff]
  constructor
  · rintro ⟨u, v, hp, hq, hle⟩
    refine ⟨⟨u, hp⟩, ⟨v, hq⟩, ?_⟩
    rintro ⟨u', v', hp', hq', hlt⟩
    obtain rfl := Option.some.inj (hp.symm.trans hp')
    obtain rfl := Option.some.inj (hq.symm.trans hq')
    exact hle.not_gt hlt
  · rintro ⟨⟨u, hp⟩, ⟨v, hq⟩, hnot⟩
    exact ⟨u, v, hp, hq, not_lt.mp fun hlt => hnot ⟨u, v, hp, hq, hlt⟩⟩

/-- Nothing is less than what is no number, and that is less than nothing. -/
theorem less_eq_false (h : p.isNumber = false ∨ q.isNumber = false) : p.less q = false := by
  rw [← Bool.not_eq_true, less_iff]
  rintro ⟨u, v, hp, hq, -⟩
  have hleft := isNumber_iff.mpr ⟨u, hp⟩
  have hright := isNumber_iff.mpr ⟨v, hq⟩
  simp [hleft, hright] at h

/-- What is at least another quantity is at least all that the other one is at least. -/
theorem AtLeast.trans (hpq : p.AtLeast q) (hqr : q.AtLeast r) : p.AtLeast r := by
  obtain ⟨u, v, hp, hq, hle⟩ := hpq
  obtain ⟨v', w, hq', hr, hle'⟩ := hqr
  obtain rfl := Option.some.inj (hq.symm.trans hq')
  exact ⟨u, w, hp, hr, hle'.trans hle⟩

/-- Whole numbers are in their own order. -/
theorem atLeast_whole (h : n ≤ m) : (whole m).AtLeast (whole n) :=
  ⟨_, _, rfl, rfl, by exact_mod_cast h⟩

end Values

end FrameKinematics.Quantity
