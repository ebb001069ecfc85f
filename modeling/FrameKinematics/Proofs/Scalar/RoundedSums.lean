import Mathlib.Algebra.Order.Archimedean.Real.Basic
import FrameKinematics.Proofs.Scalar.Real

/-!
# Scalars with rounded sums

Scalars need not be exact. A finite scalar stands for a real number, and the sum and the difference
of two finite scalars stand for the real ones after a rounding. All that is asked of the rounding is
that it keeps the order and leaves whole numbers as they are.
-/

namespace FrameKinematics

/-- A rounding of the real numbers that keeps their order and leaves whole numbers as they are. -/
structure Rounding where
  round : ℝ → ℝ
  monotone : Monotone round
  round_intCast : ∀ n : Int, round n = n

namespace Rounding

variable (ρ : Rounding)

/-- Zero is not rounded. -/
@[simp] theorem round_zero : ρ.round 0 = 0 := by
  simpa using ρ.round_intCast 0

/-- One is not rounded. -/
@[simp] theorem round_one : ρ.round 1 = 1 := by
  simpa using ρ.round_intCast 1

/-- What lies between zero and one is rounded to something between zero and one. Either end may be
hit. -/
theorem round_mem_unit {x : ℝ} (hnonneg : 0 ≤ x) (hle : x ≤ 1) :
    0 ≤ ρ.round x ∧ ρ.round x ≤ 1 := by
  constructor
  · have hlow := ρ.monotone hnonneg
    rwa [round_zero] at hlow
  · have hhigh := ρ.monotone hle
    rwa [round_one] at hhigh

end Rounding

/-- Scalars that stand for real numbers, as far as they are finite, and whose sums and differences
are rounded. The literals zero and one and the whole numbers stand for themselves, whole parts and
comparisons are exact, and nothing is said of products or of other literals. -/
structure RoundedSums (K : Type) [Scalar K] extends Rounding where
  /-- The real number that a scalar stands for. A scalar that is infinite or no number stands for
  none. -/
  value? : K → Option ℝ
  value?_zero : value? 0.0 = some 0
  value?_one : value? 1.0 = some 1
  value?_ofInt? : ∀ {n : Int} {x : K}, Scalar.ofInt? n = some x → value? x = some (n : ℝ)
  value?_add : ∀ {x y : K} {a b : ℝ}, value? x = some a → value? y = some b →
    value? (x + y) = some (round (a + b))
  value?_sub : ∀ {x y : K} {a b : ℝ}, value? x = some a → value? y = some b →
    value? (x - y) = some (round (a - b))
  floor_eq_ok : ∀ {x : K} {n : Int}, Scalar.floor x = .ok n → ∃ a, value? x = some a ∧ n = ⌊a⌋
  lt_iff : ∀ {x y : K} {a b : ℝ}, value? x = some a → value? y = some b → (x < y ↔ a < b)
  le_iff : ∀ {x y : K} {a b : ℝ}, value? x = some a → value? y = some b → (x ≤ y ↔ a ≤ b)
  beq_iff : ∀ {x y : K} {a b : ℝ}, value? x = some a → value? y = some b →
    ((x == y) = true ↔ a = b)

/-- A real number as a scalar, where the result of every operation is rounded. -/
@[ext]
structure Rounded (ρ : Rounding) where
  value : ℝ

namespace Rounded

variable {ρ : Rounding}

noncomputable instance : BEq (Rounded ρ) := ⟨fun x y => x.value == y.value⟩

noncomputable instance : Scalar (Rounded ρ) where
  add x y := ⟨ρ.round (x.value + y.value)⟩
  sub x y := ⟨ρ.round (x.value - y.value)⟩
  mul x y := ⟨ρ.round (x.value * y.value)⟩
  div x y := ⟨ρ.round (x.value / y.value)⟩
  neg x := ⟨-x.value⟩
  ofScientific mantissa isNegative exponent :=
    ⟨ρ.round (OfScientific.ofScientific mantissa isNegative exponent)⟩
  lt x y := x.value < y.value
  le x y := x.value ≤ y.value
  decidableLT x y := inferInstanceAs (Decidable (x.value < y.value))
  decidableLE x y := inferInstanceAs (Decidable (x.value ≤ y.value))
  sqrt x := ⟨ρ.round (Scalar.sqrt x.value)⟩
  sin x := ⟨ρ.round (Scalar.sin x.value)⟩
  cos x := ⟨ρ.round (Scalar.cos x.value)⟩
  atan2 y x := ⟨ρ.round (Scalar.atan2 y.value x.value)⟩
  pi := ⟨ρ.round Scalar.pi⟩
  pow x n := ⟨ρ.round (Scalar.pow x.value n)⟩
  rem x y := ⟨ρ.round (Scalar.rem x.value y.value)⟩
  floor x := .ok ⌊x.value⌋

/-- Sums are rounded after they are taken. -/
@[simp] theorem value_add (x y : Rounded ρ) : (x + y).value = ρ.round (x.value + y.value) := rfl

@[simp, inherit_doc value_add]
theorem value_sub (x y : Rounded ρ) : (x - y).value = ρ.round (x.value - y.value) := rfl

/-- The literal zero is exact. -/
@[simp] theorem value_zero : (0.0 : Rounded ρ).value = 0 := by
  change ρ.round (0.0 : ℝ) = 0
  rw [Scalar.zero_literal, ρ.round_zero]

/-- The literal one is exact. -/
@[simp] theorem value_one : (1.0 : Rounded ρ).value = 1 := by
  change ρ.round (1.0 : ℝ) = 1
  rw [Scalar.one_literal, ρ.round_one]

/-- Whole numbers stand for themselves. -/
theorem ofInt?_eq (n : Int) : (Scalar.ofInt? n : Option (Rounded ρ)) = some ⟨n⟩ := by
  have hnat (m : Nat) : (Scalar.ofNat m : Rounded ρ) = ⟨m⟩ := by
    have hexact : (OfScientific.ofScientific m false 0 : ℝ) = ((m : Int) : ℝ) := by
      change ((Rat.ofScientific m false 0 : ℚ) : ℝ) = ((m : Int) : ℝ)
      simp [Rat.ofScientific_false_def]
    change (⟨ρ.round (OfScientific.ofScientific m false 0)⟩ : Rounded ρ) = ⟨m⟩
    rw [hexact, ρ.round_intCast, Int.cast_natCast]
  have hsigned : (Scalar.ofInt? n : Option (Rounded ρ)) =
      some (if n < 0 then -Scalar.ofNat n.natAbs else Scalar.ofNat n.natAbs) := rfl
  rw [hsigned, hnat]
  congr 1
  ext
  split_ifs with hneg
  · change -((n.natAbs : Nat) : ℝ) = n
    rw [Nat.cast_natAbs, abs_of_neg hneg, Int.cast_neg, neg_neg]
  · change ((n.natAbs : Nat) : ℝ) = n
    rw [Nat.cast_natAbs, abs_of_nonneg (not_lt.mp hneg)]

/-- Every rounding belongs to some scalars. -/
noncomputable def sums (ρ : Rounding) : RoundedSums (Rounded ρ) where
  toRounding := ρ
  value? x := some x.value
  value?_zero := by rw [value_zero]
  value?_one := by rw [value_one]
  value?_ofInt? := by
    intro n x h
    rw [ofInt?_eq] at h
    cases h
    rfl
  value?_add := by
    rintro x y _ _ ⟨⟩ ⟨⟩
    rfl
  value?_sub := by
    rintro x y _ _ ⟨⟩ ⟨⟩
    rfl
  floor_eq_ok := by
    rintro x n ⟨⟩
    exact ⟨x.value, rfl, rfl⟩
  lt_iff := by
    rintro x y _ _ ⟨⟩ ⟨⟩
    exact Iff.rfl
  le_iff := by
    rintro x y _ _ ⟨⟩ ⟨⟩
    exact Iff.rfl
  beq_iff := by
    rintro x y _ _ ⟨⟩ ⟨⟩
    exact beq_iff_eq (a := x.value) (b := y.value)

end Rounded

end FrameKinematics
