import FrameKinematics.Proofs.Scalar.DoubleRounding

/-!
# Arithmetic of doubles

The square, the sum, the root and the quotient of doubles are near the exact ones. Squares and
quotients are off by a relative error and by half of the least double, because they may fall among
the doubles of least exponent. Sums and roots are off by a relative error only: doubles of least
exponent add up exactly, and a root is far from the least double. A result is infinite only where
the exact one is large.
-/

namespace FrameKinematics.Binary64

open Float.Model
open Float.Model.UnpackedFloat (Accuracy Sign roundWithAccuracy decreaseExponent)

/-- Whether a double has a real number as its value. -/
def HasValue (z : Float) (v : ℝ) : Prop := value? z = some (v : EReal)

/-- Whether a double is infinite and not negative. -/
def IsInfinite (z : Float) : Prop := value? z = some ⊤

section Parts

variable {s : Sign} {m : ℕ} {e : ℤ} {z : Float} {v : ℝ}

/-- A double has at most one value. -/
theorem HasValue.unique {w : ℝ} (hv : HasValue z v) (hw : HasValue z w) : v = w :=
  EReal.coe_injective (Option.some.inj (hv.symm.trans hw))

/-- A double that is packed from a sign, a mantissa and an exponent has their value. -/
theorem hasValue_pack (hz : z.toModel = pack (ofMagnitude s m e)) (hm : IsCanonical m e)
    (he : e ≤ 971) : HasValue z (signed s (magnitude m e)) := by
  rw [HasValue, value?, hz, unpack_pack hm, if_pos he, unpackedValue?_ofMagnitude]

/-- An infinite double has no real value. -/
theorem IsInfinite.not_hasValue (h : IsInfinite z) : ¬HasValue z v := fun hv =>
  EReal.coe_ne_top v (Option.some.inj (hv.symm.trans h))

/-- An infinite double unpacks to infinity with the positive sign. -/
theorem IsInfinite.unpack_eq (h : IsInfinite z) : z.toModel.unpack = .infinity .positive := by
  rw [IsInfinite, value?] at h
  cases hz : z.toModel.unpack with
  | notANumber => simp [hz, unpackedValue?] at h
  | infinity s => cases s with
    | positive => rfl
    | negative => simp [hz, unpackedValue?] at h
  | zero s => simp [hz, unpackedValue?] at h
  | finite s m e hm => cases s <;> simp [hz, unpackedValue?, -EReal.coe_neg] at h

/-- A double that is packed from positive infinity is infinite. -/
theorem isInfinite_pack (hz : z.toModel = pack (.infinity .positive)) : IsInfinite z := by
  have hunpack : (pack (.infinity .positive)).unpack = .infinity .positive := rfl
  rw [IsInfinite, value?, hz, hunpack]
  rfl

end Parts

variable {x y : Float} {a b : ℝ}

/-- A double is equal to zero exactly if zero is its value. -/
theorem beq_zero_iff : (x == 0.0) = true ↔ HasValue x 0 := by
  have hcompare : (x == 0.0) = (x.toModel.unpack.compare (.zero .positive) == some .eq) := rfl
  rw [hcompare, HasValue, value?]
  cases x.toModel.unpack with
  | notANumber => simp [UnpackedFloat.compare, unpackedValue?]
  | infinity s => cases s <;> simp [UnpackedFloat.compare, unpackedValue?]
  | zero s => simp [UnpackedFloat.compare, unpackedValue?]
  | finite s m e hm =>
    have hpos := @magnitude_pos m e hm
    cases s <;> simp [UnpackedFloat.compare, unpackedValue?, hpos.ne', -EReal.coe_neg]

/-- The square of a double. -/
theorem value?_square (hx : HasValue x a) :
    (∃ c, 0 ≤ c ∧ HasValue (x * x) c ∧ |c - a ^ 2| ≤ roundoff * a ^ 2 + leastDouble / 2) ∨
      IsInfinite (x * x) ∧ 2 ^ 1023 ≤ a ^ 2 := by
  obtain ⟨s, m, e, hcanonical, -, hunpack, rfl⟩ := exists_ofMagnitude hx
  have hmodel : (x * x).toModel =
      pack (UnpackedFloat.mul Format.binary64 x.toModel.unpack x.toModel.unpack) := rfl
  have hself : s * s = .positive := by cases s <;> rfl
  rw [signed_sq]
  rw [hunpack] at hmodel
  by_cases hm : m = 0
  · left
    have hzero : (x * x).toModel = pack (ofMagnitude .positive 0 (-1074)) := by
      rw [hmodel, ofMagnitude, dif_pos hm, ← hself]
      rfl
    have hvalue := hasValue_pack hzero ⟨by norm_num, le_rfl, .inr rfl⟩ (by norm_num)
    refine ⟨_, magnitude_nonneg, hvalue, ?_⟩
    simpa [magnitude, hm] using (half_pos leastDouble_pos).le
  · have hproduct : (x * x).toModel =
        pack (roundWithAccuracy Format.binary64 .positive (m * m) (e + e) .exact) := by
      rw [hmodel, ofMagnitude, dif_neg hm, ← hself]
      rfl
    have hlong : 2 ^ 52 ≤ m * m ∨ e + e ≤ -1074 := by
      rcases hcanonical.long_or_least with hlong | rfl
      · exact .inl (hlong.trans (Nat.le_mul_of_pos_left m (Nat.pos_of_ne_zero hm)))
      · exact .inr (by norm_num)
    have hvalue : ((m * m : ℕ) : ℝ) * 2 ^ (e + e) = magnitude m e ^ 2 := by
      rw [magnitude_eq, zpow_add₀ two_ne_zero]
      push_cast
      ring
    have hsquare : 0 ≤ roundoff * magnitude m e ^ 2 :=
      mul_nonneg (by norm_num [roundoff_eq]) (sq_nonneg _)
    have hleast := leastDouble_pos
    rcases value?_rounded hproduct rfl hlong hvalue with ⟨c, hc, hvalue, herror⟩ | hlarge
    · refine .inl ⟨c, hc, hvalue, ?_⟩
      rcases herror with herror | ⟨herror, -⟩ <;> linarith
    · exact .inr hlarge

section Sums

variable {m : ℕ} {e t : ℤ} {z : Float} {s : Sign}

/-- A mantissa is made longer without changing the value. -/
theorem magnitude_decreaseExponent :
    magnitude (decreaseExponent m e t).1 (decreaseExponent m e t).2 = magnitude m e := by
  rw [decreaseExponent, magnitude_eq, magnitude_eq, Nat.shiftLeft_eq]
  push_cast
  rw [mul_assoc, ← zpow_natCast, ← zpow_add₀ two_ne_zero]
  congr 2
  omega

/-- Rounding a mantissa of any length. From the least exponent on the error is relative. -/
theorem value?_round (hz : z.toModel = pack (UnpackedFloat.round Format.binary64 s m e))
    (hm : m ≠ 0) (he : -1074 ≤ e) :
    (∃ c, 0 ≤ c ∧ HasValue z (signed s c) ∧
      |c - magnitude m e| ≤ roundoff * magnitude m e) ∨
      value? z = some (signedInfinity s) ∧ 2 ^ 1023 ≤ magnitude m e := by
  obtain ⟨t, ht⟩ : ∃ t, max ((m.log2 : ℤ) + e - 52) (-1074) = t := ⟨_, rfl⟩
  have hmodel : z.toModel = pack (roundWithAccuracy Format.binary64 s (decreaseExponent m e t).1
      (decreaseExponent m e t).2 .exact) := by
    rw [hz, UnpackedFloat.round, targetExponent_eq, ht]
  have hlong : 2 ^ 52 ≤ (decreaseExponent m e t).1 ∨ (decreaseExponent m e t).2 ≤ -1074 := by
    rw [decreaseExponent, Nat.shiftLeft_eq]
    by_cases hleast : t = -1074
    · right
      dsimp only
      omega
    · left
      calc 2 ^ 52 ≤ 2 ^ (m.log2 + (e - t).toNat) := Nat.pow_le_pow_right two_pos (by omega)
        _ = 2 ^ m.log2 * 2 ^ (e - t).toNat := pow_add _ _ _
        _ ≤ m * 2 ^ (e - t).toNat := Nat.mul_le_mul_right _ (Nat.log2_self_le hm)
  have hleast : -1074 ≤ (decreaseExponent m e t).2 := by
    rw [decreaseExponent]
    dsimp only
    omega
  have hvalue : ((decreaseExponent m e t).1 : ℝ) * 2 ^ (decreaseExponent m e t).2 =
      magnitude m e := by
    rw [← magnitude_eq, magnitude_decreaseExponent]
  rcases value?_rounded hmodel rfl hlong hvalue with ⟨c, hc, hvalue', herror⟩ | hlarge
  · refine .inl ⟨c, hc, hvalue', ?_⟩
    rcases herror with herror | ⟨-, hexact⟩
    · exact herror
    · rw [hexact rfl hleast, sub_self, abs_zero]
      exact mul_nonneg (by norm_num [roundoff_eq]) magnitude_nonneg
  · exact .inr hlarge

/-- A nonnegative value has a positive sign, or a mantissa of zero. -/
theorem sign_of_nonneg (hm : m ≠ 0) (h : 0 ≤ signed s (magnitude m e)) : s = .positive := by
  cases s with
  | positive => rfl
  | negative =>
    have hpos := magnitude_pos (e := e) (Nat.pos_of_ne_zero hm)
    have hneg : 0 ≤ -magnitude m e := h
    linarith

/-- Adding zero changes nothing but the sign of a zero. -/
theorem add_zero_left {s' : Sign} {e' : ℤ} : ∃ s'',
    UnpackedFloat.add Format.binary64 (ofMagnitude s 0 e) (ofMagnitude s' m e') =
      ofMagnitude s'' m e' ∧ signed s'' (magnitude m e') = signed s' (magnitude m e') := by
  by_cases hm : m = 0
  · have hzero (s'' : Sign) : signed s'' (magnitude 0 e') = 0 := by
      cases s'' <;> simp [signed, magnitude]
    subst hm
    refine ⟨if s == s' then s else .positive, ?_, by rw [hzero, hzero]⟩
    cases s <;> cases s' <;> rfl
  · refine ⟨s', ?_, rfl⟩
    rw [ofMagnitude, dif_pos rfl, ofMagnitude, dif_neg hm]
    rfl

/-- The sum of doubles above zero. -/
theorem value?_add_of_pos {m' : ℕ} {e' : ℤ} (hm : m ≠ 0) (hm' : m' ≠ 0) (he : -1074 ≤ e)
    (he' : -1074 ≤ e')
    (hz : z.toModel = pack (UnpackedFloat.add Format.binary64 (ofMagnitude .positive m e)
      (ofMagnitude .positive m' e'))) :
    (∃ c, 0 ≤ c ∧ HasValue z c ∧ |c - (magnitude m e + magnitude m' e')| ≤
        roundoff * (magnitude m e + magnitude m' e')) ∨
      IsInfinite z ∧ 2 ^ 1023 ≤ magnitude m e + magnitude m' e' := by
  let n := (decreaseExponent m e (min e e')).1 + (decreaseExponent m' e' (min e e')).1
  have hn : n ≠ 0 := by
    have hpos : 0 < (decreaseExponent m e (min e e')).1 := by
      rw [decreaseExponent, Nat.shiftLeft_eq]
      exact Nat.mul_pos (Nat.pos_of_ne_zero hm) (Nat.two_pow_pos _)
    omega
  have hround : z.toModel = pack (UnpackedFloat.round Format.binary64 .positive n (min e e')) := by
    have hadd : UnpackedFloat.add Format.binary64 (ofMagnitude .positive m e)
        (ofMagnitude .positive m' e') =
        UnpackedFloat.normalize Format.binary64 (n : ℤ) (min e e') .positive := by
      rw [ofMagnitude, dif_neg hm, ofMagnitude, dif_neg hm']
      rfl
    have hpositive : compare (n : ℤ) 0 = .gt :=
      compare_gt_iff_gt.mpr (by exact_mod_cast Nat.pos_of_ne_zero hn)
    rw [hz, hadd, UnpackedFloat.normalize, hpositive]
    rfl
  have hvalue : magnitude n (min e e') = magnitude m e + magnitude m' e' := by
    have hleft : (decreaseExponent m e (min e e')).2 = min e e' := by
      simp only [decreaseExponent]
      omega
    have hright : (decreaseExponent m' e' (min e e')).2 = min e e' := by
      simp only [decreaseExponent]
      omega
    rw [← magnitude_decreaseExponent (m := m) (t := min e e'), hleft,
      ← magnitude_decreaseExponent (m := m') (t := min e e'), hright, magnitude_eq, magnitude_eq,
      magnitude_eq, ← add_mul]
    norm_cast
  rw [← hvalue]
  exact value?_round hround hn (by omega)

/-- The sum of nonnegative doubles. -/
theorem value?_add (hx : HasValue x a) (hy : HasValue y b) (ha : 0 ≤ a) (hb : 0 ≤ b) :
    (∃ c, 0 ≤ c ∧ HasValue (x + y) c ∧ |c - (a + b)| ≤ roundoff * (a + b)) ∨
      IsInfinite (x + y) ∧ 2 ^ 1023 ≤ a + b := by
  obtain ⟨s, m, e, hcanonical, hlarge, hunpack, rfl⟩ := exists_ofMagnitude hx
  obtain ⟨s', m', e', hcanonical', hlarge', hunpack', rfl⟩ := exists_ofMagnitude hy
  have hmodel : (x + y).toModel =
      pack (UnpackedFloat.add Format.binary64 x.toModel.unpack y.toModel.unpack) := rfl
  rw [hunpack, hunpack'] at hmodel
  have hsum : 0 ≤ roundoff * (signed s (magnitude m e) + signed s' (magnitude m' e')) :=
    mul_nonneg (by norm_num [roundoff_eq]) (add_nonneg ha hb)
  by_cases hm : m = 0
  · left
    have hzero : signed s (magnitude m e) = 0 := by cases s <;> simp [signed, magnitude, hm]
    obtain ⟨s'', hadd, hsign⟩ := @add_zero_left m' e s s' e'
    rw [hm, hadd] at hmodel
    have hvalue := hasValue_pack hmodel hcanonical' hlarge'
    rw [hsign] at hvalue
    rw [hzero, zero_add] at hsum ⊢
    exact ⟨_, hb, hvalue, by rwa [sub_self, abs_zero]⟩
  · by_cases hm' : m' = 0
    · left
      have hzero : signed s' (magnitude m' e') = 0 := by
        cases s' <;> simp [signed, magnitude, hm']
      rw [ofMagnitude, dif_neg hm, ofMagnitude, dif_pos hm'] at hmodel
      have hpacked : (x + y).toModel = pack (ofMagnitude s m e) := by
        rw [hmodel, ofMagnitude, dif_neg hm]
        rfl
      rw [hzero, add_zero] at hsum ⊢
      exact ⟨_, ha, hasValue_pack hpacked hcanonical hlarge, by rwa [sub_self, abs_zero]⟩
    · obtain rfl := sign_of_nonneg hm ha
      obtain rfl := sign_of_nonneg hm' hb
      exact value?_add_of_pos hm hm' hcanonical.exponent_ge hcanonical'.exponent_ge hmodel

end Sums

/-- A sum with an infinite first summand is infinite, unless the second one is not a number. -/
theorem isInfinite_add_left (hx : IsInfinite x) (hy : IsInfinite y ∨ ∃ b, HasValue y b) :
    IsInfinite (x + y) := by
  have hmodel : (x + y).toModel =
      pack (UnpackedFloat.add Format.binary64 x.toModel.unpack y.toModel.unpack) := rfl
  refine isInfinite_pack (hmodel.trans (congrArg pack ?_))
  rw [hx.unpack_eq]
  rcases hy with hy | ⟨b, hy⟩
  · rw [hy.unpack_eq]
    rfl
  · obtain ⟨s, m, e, -, -, hunpack, -⟩ := exists_ofMagnitude hy
    rw [hunpack, ofMagnitude]
    split_ifs <;> rfl

/-- A sum of a finite and an infinite double is infinite. -/
theorem isInfinite_add_right (hx : HasValue x a) (hy : IsInfinite y) : IsInfinite (x + y) := by
  have hmodel : (x + y).toModel =
      pack (UnpackedFloat.add Format.binary64 x.toModel.unpack y.toModel.unpack) := rfl
  obtain ⟨s, m, e, -, -, hunpack, -⟩ := exists_ofMagnitude hx
  refine isInfinite_pack (hmodel.trans (congrArg pack ?_))
  rw [hy.unpack_eq, hunpack, ofMagnitude]
  split_ifs <;> rfl

section Roots

/-- The whole root of a number, with what is left of the number, describes the root. The root is
never just between two whole numbers. -/
theorem describes_sqrt (n : ℕ) :
    Describes (Nat.sqrt n) (if n - Nat.sqrt n * Nat.sqrt n = 0 then .exact
      else .inexact (if n - Nat.sqrt n * Nat.sqrt n ≤ Nat.sqrt n then .lt else .gt)) (√n) := by
  have hlow : (n.sqrt : ℝ) * n.sqrt ≤ n := by exact_mod_cast Nat.sqrt_le n
  have hnext : (n : ℝ) < (n.sqrt + 1) * (n.sqrt + 1) := by exact_mod_cast Nat.lt_succ_sqrt n
  have hroot : (0 : ℝ) ≤ n.sqrt := Nat.cast_nonneg _
  split_ifs with hexact hhalf
  · have heq : n = n.sqrt * n.sqrt := by
      have := Nat.sqrt_le n
      omega
    have heq' : (n : ℝ) = n.sqrt * n.sqrt := by exact_mod_cast heq
    rw [Describes, heq', Real.sqrt_mul_self hroot]
  · have hbelow : (n.sqrt : ℝ) * n.sqrt < n := by
      exact_mod_cast (by omega : n.sqrt * n.sqrt < n)
    have hhalf' : (n : ℝ) ≤ n.sqrt * n.sqrt + n.sqrt := by
      exact_mod_cast (by omega : n ≤ n.sqrt * n.sqrt + n.sqrt)
    have hmiddle : √n < n.sqrt + 1 / 2 := (Real.sqrt_lt' (by linarith)).mpr (by nlinarith)
    exact ⟨(Real.lt_sqrt hroot).mpr (by nlinarith), by linarith⟩
  · have hhalf' : (n.sqrt * n.sqrt + n.sqrt + 1 : ℝ) ≤ n := by
      exact_mod_cast (by omega : n.sqrt * n.sqrt + n.sqrt + 1 ≤ n)
    have hmiddle : n.sqrt + 1 / 2 < √n := (Real.lt_sqrt (by linarith)).mpr (by nlinarith)
    exact ⟨by linarith, (Real.sqrt_lt' (by linarith)).mpr (by nlinarith)⟩

/-- The root of a number is described by a mantissa that is long enough. -/
theorem sqrtCore_spec {m : ℕ} {e : ℤ} (hm : m ≠ 0) : ∃ r t acc,
    UnpackedFloat.sqrtCore Format.binary64 m e = (r, t, acc) ∧
      Describes r acc (√(magnitude m e) / 2 ^ t) ∧ (2 ^ 52 ≤ r ∨ t ≤ -1074) := by
  obtain ⟨t, ht⟩ : ∃ t, min (e / 2) (max (((m.log2 : ℤ) + 1 + e + 1) / 2 - 53) (-1074)) = t :=
    ⟨_, rfl⟩
  have htarget : min (e.ediv 2)
      (Format.binary64.targetExponent ((totalExponent m e + 1).ediv 2)) = t := ht
  let n := m <<< (e - 2 * t).toNat
  have hcore : UnpackedFloat.sqrtCore Format.binary64 m e = (n.sqrt, t,
      if n - n.sqrt * n.sqrt = 0 then .exact
        else .inexact (if n - n.sqrt * n.sqrt ≤ n.sqrt then .lt else .gt)) := by
    rw [UnpackedFloat.sqrtCore, htarget]
  have hn : n = m * 2 ^ (e - 2 * t).toNat := Nat.shiftLeft_eq _ _
  refine ⟨_, _, _, hcore, ?_, ?_⟩
  · have hroot : √(magnitude m e) / 2 ^ t = √n := by
      have hscaled : magnitude m e = n * (2 ^ t) ^ 2 := by
        rw [magnitude_eq, hn, ← zpow_natCast, ← zpow_mul]
        push_cast
        rw [mul_assoc, ← zpow_natCast, ← zpow_add₀ two_ne_zero]
        congr 2
        omega
      rw [hscaled, Real.sqrt_mul (Nat.cast_nonneg n), Real.sqrt_sq (by positivity),
        mul_div_cancel_right₀ _ (by positivity)]
    rw [hroot]
    exact describes_sqrt n
  · by_cases hleast : t ≤ -1074
    · exact .inr hleast
    · left
      rw [Nat.le_sqrt, ← pow_add]
      calc 2 ^ (52 + 52) ≤ 2 ^ (m.log2 + (e - 2 * t).toNat) :=
            Nat.pow_le_pow_right two_pos (by omega)
        _ = 2 ^ m.log2 * 2 ^ (e - 2 * t).toNat := pow_add _ _ _
        _ ≤ m * 2 ^ (e - 2 * t).toNat := Nat.mul_le_mul_right _ (Nat.log2_self_le hm)
        _ = n := hn.symm

/-- A double above zero is a mantissa that is not zero, without a sign. -/
theorem exists_of_pos (hx : HasValue x a) (ha : 0 < a) : ∃ m e, m ≠ 0 ∧ IsCanonical m e ∧
    x.toModel.unpack = ofMagnitude .positive m e ∧ a = magnitude m e := by
  obtain ⟨s, m, e, hcanonical, -, hunpack, rfl⟩ := exists_ofMagnitude hx
  have hm : m ≠ 0 := by
    rintro rfl
    cases s <;> simp [signed, magnitude] at ha
  obtain rfl := sign_of_nonneg hm ha.le
  exact ⟨m, e, hm, hcanonical, hunpack, rfl⟩

/-- A double above zero is at least the least one. -/
theorem leastDouble_le (hx : HasValue x a) (ha : 0 < a) : leastDouble ≤ a := by
  obtain ⟨m, e, hm, hcanonical, -, rfl⟩ := exists_of_pos hx ha
  have hone : (1 : ℝ) ≤ m := by exact_mod_cast Nat.pos_of_ne_zero hm
  calc leastDouble = 1 * 2 ^ (-1074 : ℤ) := by rw [leastDouble_eq, one_mul]
    _ ≤ m * 2 ^ e :=
      mul_le_mul hone (zpow_le_zpow_right₀ one_le_two hcanonical.exponent_ge) (by positivity)
        (Nat.cast_nonneg m)
    _ = magnitude m e := magnitude_eq.symm

/-- Doubles are below the power of two after the greatest one. -/
theorem lt_of_hasValue (hx : HasValue x a) : a < 2 ^ 1024 := by
  obtain ⟨s, m, e, hcanonical, hlarge, -, rfl⟩ := exists_ofMagnitude hx
  have hsigned : signed s (magnitude m e) ≤ magnitude m e := by
    have hnonneg := @magnitude_nonneg m e
    cases s with
    | positive => exact le_rfl
    | negative => exact (neg_nonpos.mpr hnonneg).trans hnonneg
  have hshort : (m : ℝ) < 2 ^ 53 := by exact_mod_cast hcanonical.mantissa_lt
  calc signed s (magnitude m e) ≤ m * 2 ^ e := hsigned.trans_eq magnitude_eq
    _ < 2 ^ 53 * 2 ^ (971 : ℤ) :=
      mul_lt_mul hshort (zpow_le_zpow_right₀ one_le_two hlarge) (by positivity) (by positivity)
    _ = 2 ^ 1024 := by
      rw [← zpow_natCast, ← zpow_natCast, ← zpow_add₀ two_ne_zero]
      norm_num

/-- The root of a double above zero. -/
theorem value?_sqrt (hx : HasValue x a) (ha : 0 < a) :
    ∃ c, HasValue (Float.sqrt x) c ∧ |c - √a| ≤ roundoff * √a := by
  have hleast := leastDouble_le hx ha
  have hgreatest := lt_of_hasValue hx
  obtain ⟨m, e, hm, -, hunpack, rfl⟩ := exists_of_pos hx ha
  obtain ⟨r, t, acc, hcore, hdescribes, hlong⟩ := @sqrtCore_spec m e hm
  have hmodel : (Float.sqrt x).toModel =
      pack (roundWithAccuracy Format.binary64 .positive r t acc) := by
    have hsqrt : (Float.sqrt x).toModel =
        pack (UnpackedFloat.sqrt Format.binary64 x.toModel.unpack) := rfl
    rw [hsqrt, hunpack, ofMagnitude, dif_neg hm, UnpackedFloat.sqrt, hcore]
  have hvalue : √(magnitude m e) / 2 ^ t * 2 ^ t = √(magnitude m e) :=
    div_mul_cancel₀ _ (by positivity)
  rcases value?_rounded hmodel hdescribes hlong hvalue with ⟨c, -, hc, herror⟩ | ⟨-, hover⟩
  · refine ⟨c, hc, ?_⟩
    rcases herror with herror | ⟨herror, -⟩
    · exact herror
    · -- The root of the least double is far above the least double.
      have hroot : (2 : ℝ) ^ (-537 : ℤ) ≤ √(magnitude m e) := by
        refine Real.le_sqrt_of_sq_le (le_of_eq_of_le ?_ hleast)
        rw [leastDouble_eq, ← zpow_natCast, ← zpow_mul]
        norm_num
      calc |c - √(magnitude m e)| ≤ leastDouble / 2 := herror
        _ ≤ leastDouble := half_le_self leastDouble_pos.le
        _ ≤ roundoff * 2 ^ (-537 : ℤ) := by
          rw [leastDouble_eq, roundoff, magnitude_one, ← zpow_add₀ two_ne_zero]
          exact zpow_le_zpow_right₀ one_le_two (by norm_num)
        _ ≤ roundoff * √(magnitude m e) :=
          mul_le_mul_of_nonneg_left hroot (by norm_num [roundoff_eq])
  · have hsquare : (2 : ℝ) ^ 1024 ≤ (2 ^ 1023) ^ 2 := by
      rw [← pow_mul]
      exact pow_le_pow_right₀ one_le_two (by norm_num)
    have hroot : √(magnitude m e) < 2 ^ 1023 :=
      (Real.sqrt_lt' (by positivity)).mpr (lt_of_lt_of_le hgreatest hsquare)
    exact absurd hover (not_le.mpr hroot)

/-- A double with the value zero unpacks to a zero, of either sign. -/
theorem exists_unpack_eq_zero (hx : HasValue x 0) : ∃ s, x.toModel.unpack = .zero s := by
  rw [HasValue, value?] at hx
  cases hunpack : x.toModel.unpack with
  | notANumber => simp [hunpack, unpackedValue?] at hx
  | infinity s => cases s <;> simp [hunpack, unpackedValue?] at hx
  | zero s => exact ⟨s, rfl⟩
  | finite s m e hm =>
    have hpos := @magnitude_pos m e hm
    cases s <;> simp [hunpack, unpackedValue?, hpos.ne', -EReal.coe_neg] at hx

/-- A packed zero has the value zero, whatever its sign is. -/
theorem hasValue_zero_pack {z : Float} {s : Sign} (hz : z.toModel = pack (.zero s)) :
    HasValue z 0 := by
  have hunpack : (pack (.zero s)).unpack = .zero s := by cases s <;> rfl
  rw [HasValue, value?, hz, hunpack]
  rfl

/-- The root of zero is zero. -/
theorem hasValue_sqrt_zero (hx : HasValue x 0) : HasValue (Float.sqrt x) 0 := by
  have hsqrt : (Float.sqrt x).toModel =
      pack (UnpackedFloat.sqrt Format.binary64 x.toModel.unpack) := rfl
  obtain ⟨s, hzero⟩ := exists_unpack_eq_zero hx
  rw [hzero] at hsqrt
  exact hasValue_zero_pack hsqrt

/-- The root of infinity is infinite. -/
theorem isInfinite_sqrt (hx : IsInfinite x) : IsInfinite (Float.sqrt x) := by
  have hsqrt : (Float.sqrt x).toModel =
      pack (UnpackedFloat.sqrt Format.binary64 x.toModel.unpack) := rfl
  rw [hx.unpack_eq] at hsqrt
  exact isInfinite_pack hsqrt

end Roots

section Quotients

/-- A whole quotient describes the quotient by what is left. -/
theorem describes_div (n : ℕ) {d : ℕ} (hd : 0 < d) :
    Describes (n / d) (UnpackedFloat.accuracyOfFraction (n % d) d) (n / d : ℝ) := by
  have hd' : (0 : ℝ) < d := by exact_mod_cast hd
  have hsplit : (n : ℝ) / d = (n / d : ℕ) + (n % d : ℕ) / d := by
    rw [eq_comm, ← eq_sub_iff_add_eq', div_eq_iff hd'.ne', sub_mul, div_mul_cancel₀ _ hd'.ne']
    have h := Nat.div_add_mod' n d
    rw [eq_sub_iff_add_eq]
    exact_mod_cast (by omega : n % d + n / d * d = n)
  have hless : ((n % d : ℕ) : ℝ) / d < 1 := by
    rw [div_lt_one hd']
    exact_mod_cast Nat.mod_lt n hd
  unfold UnpackedFloat.accuracyOfFraction
  split_ifs with hzero
  · rw [Describes, hsplit, hzero, Nat.cast_zero, zero_div, add_zero]
  · have hpositive : 0 < ((n % d : ℕ) : ℝ) / d :=
      div_pos (by exact_mod_cast Nat.pos_of_ne_zero hzero) hd'
    rw [hsplit]
    rcases lt_trichotomy (2 * (n % d)) d with hlt | heq | hgt
    · rw [compare_lt_iff_lt.mpr hlt]
      have hhalf : ((n % d : ℕ) : ℝ) / d < 1 / 2 := by
        rw [div_lt_iff₀ hd']
        have : (2 * (n % d : ℕ) : ℝ) < d := by exact_mod_cast hlt
        linarith
      constructor <;> linarith
    · rw [compare_eq_iff_eq.mpr heq]
      have hhalf : ((n % d : ℕ) : ℝ) / d = 1 / 2 := by
        rw [div_eq_iff hd'.ne']
        have : (2 * (n % d : ℕ) : ℝ) = d := by exact_mod_cast heq
        linarith
      rw [Describes, hhalf]
      ring
    · rw [compare_gt_iff_gt.mpr hgt]
      have hhalf : 1 / 2 < ((n % d : ℕ) : ℝ) / d := by
        rw [lt_div_iff₀ hd']
        have : (d : ℝ) < (2 * (n % d : ℕ) : ℝ) := by exact_mod_cast hgt
        linarith
      constructor <;> linarith

/-- The quotient of two numbers is described by a mantissa that is long enough. -/
theorem divCore_spec {m m' : ℕ} {e e' : ℤ} (hm : m ≠ 0) (hm' : m' ≠ 0) : ∃ q t acc,
    UnpackedFloat.divCore Format.binary64 m e m' e' = (q, t, acc) ∧
      Describes q acc (magnitude m e / magnitude m' e' / 2 ^ t) ∧ (2 ^ 52 ≤ q ∨ t ≤ -1074) := by
  obtain ⟨t, ht⟩ : ∃ t, min (e - e')
      (max ((m.log2 : ℤ) + 1 + e - (m'.log2 + 1 + e') - 53) (-1074)) = t := ⟨_, rfl⟩
  have htarget : min (e - e')
      (Format.binary64.targetExponent (totalExponent m e - totalExponent m' e')) = t := ht
  let n := m <<< (e - e' - t).toNat
  have hn : n = m * 2 ^ (e - e' - t).toNat := Nat.shiftLeft_eq _ _
  have hcore : UnpackedFloat.divCore Format.binary64 m e m' e' =
      (n / m', t, UnpackedFloat.accuracyOfFraction (n % m') m') := by
    rw [UnpackedFloat.divCore, htarget]
  have hdivisor : (m' : ℝ) ≠ 0 := by exact_mod_cast hm'
  refine ⟨_, _, _, hcore, ?_, ?_⟩
  · have hquotient : magnitude m e / magnitude m' e' / 2 ^ t = n / m' := by
      have hscaled : (n : ℝ) = m * 2 ^ (e - e' - t) := by
        rw [hn, Nat.cast_mul, Nat.cast_pow, Nat.cast_ofNat, ← zpow_natCast]
        congr 2
        omega
      rw [hscaled, magnitude_eq, magnitude_eq, zpow_sub₀ two_ne_zero, zpow_sub₀ two_ne_zero]
      field_simp
    rw [hquotient]
    exact describes_div n (Nat.pos_of_ne_zero hm')
  · by_cases hleast : t ≤ -1074
    · exact .inr hleast
    · left
      rw [Nat.le_div_iff_mul_le (Nat.pos_of_ne_zero hm')]
      calc 2 ^ 52 * m' ≤ 2 ^ 52 * 2 ^ (m'.log2 + 1) :=
            Nat.mul_le_mul_left _ Nat.lt_log2_self.le
        _ = 2 ^ (52 + (m'.log2 + 1)) := (pow_add _ _ _).symm
        _ ≤ 2 ^ (m.log2 + (e - e' - t).toNat) := Nat.pow_le_pow_right two_pos (by omega)
        _ = 2 ^ m.log2 * 2 ^ (e - e' - t).toNat := pow_add _ _ _
        _ ≤ m * 2 ^ (e - e' - t).toNat := Nat.mul_le_mul_right _ (Nat.log2_self_le hm)
        _ = n := hn.symm

/-- The quotient of a double by one above zero. -/
theorem value?_div (hx : HasValue x a) (hy : HasValue y b) (hb : 0 < b)
    (hsmall : |a / b| < 2 ^ 1023) :
    ∃ c, HasValue (x / y) c ∧ |c - a / b| ≤ roundoff * |a / b| + leastDouble / 2 := by
  obtain ⟨s, m, e, -, -, hunpack, rfl⟩ := exists_ofMagnitude hx
  obtain ⟨m', e', hm', -, hunpack', rfl⟩ := exists_of_pos hy hb
  have hmodel : (x / y).toModel =
      pack (UnpackedFloat.div Format.binary64 x.toModel.unpack y.toModel.unpack) := rfl
  rw [hunpack, hunpack'] at hmodel
  have hnonneg : 0 ≤ roundoff * |signed s (magnitude m e) / magnitude m' e'| :=
    mul_nonneg (by norm_num [roundoff_eq]) (abs_nonneg _)
  by_cases hm : m = 0
  · have hzero : signed s (magnitude m e) = 0 := by cases s <;> simp [signed, magnitude, hm]
    rw [ofMagnitude, dif_pos hm, ofMagnitude, dif_neg hm'] at hmodel
    refine ⟨0, hasValue_zero_pack hmodel, ?_⟩
    rw [hzero]
    simpa using (half_pos leastDouble_pos).le
  · obtain ⟨q, t, acc, hcore, hdescribes, hlong⟩ := @divCore_spec m m' e e' hm hm'
    have hround : (x / y).toModel = pack (roundWithAccuracy Format.binary64 s q t acc) := by
      rw [hmodel, ofMagnitude, dif_neg hm, ofMagnitude, dif_neg hm', UnpackedFloat.div, hcore]
      cases s <;> rfl
    have hvalue := div_mul_cancel₀ (magnitude m e / magnitude m' e')
      (by positivity : (2 : ℝ) ^ t ≠ 0)
    have hquotient : 0 ≤ magnitude m e / magnitude m' e' :=
      div_nonneg magnitude_nonneg magnitude_nonneg
    have hleast := leastDouble_pos
    rw [signed_div, abs_signed, abs_of_nonneg hquotient] at hnonneg hsmall ⊢
    rcases value?_rounded hround hdescribes hlong hvalue with ⟨c, -, hc, herror⟩ | ⟨-, hover⟩
    · refine ⟨_, hc, ?_⟩
      rw [signed_sub, abs_signed]
      rcases herror with herror | ⟨herror, -⟩ <;> linarith
    · exact absurd hover (not_le.mpr hsmall)

/-- The quotient of a finite double by an infinite one. -/
theorem hasValue_div_infinite (hx : HasValue x a) (hy : IsInfinite y) : HasValue (x / y) 0 := by
  have hmodel : (x / y).toModel =
      pack (UnpackedFloat.div Format.binary64 x.toModel.unpack y.toModel.unpack) := rfl
  obtain ⟨s, m, e, -, -, hunpack, -⟩ := exists_ofMagnitude hx
  rw [hunpack, hy.unpack_eq, ofMagnitude] at hmodel
  split_ifs at hmodel
  · exact hasValue_zero_pack hmodel
  · exact hasValue_zero_pack hmodel

end Quotients
end FrameKinematics.Binary64
