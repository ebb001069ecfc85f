import Mathlib
import FrameKinematics.Scalar.Binary64

/-!
# The values of doubles

A double that is a number has a value: a dyadic number, or one of the two infinities. The bits of a
double are its sign, its exponent and its mantissa, and the mantissa of a double is as long as it can
be, so doubles of one sign are compared by their exponents first and by their mantissas second. So
the comparisons of doubles are those of their values, no comparison holds of what is no number, and
the greatest whole part and the opposite of a double are those of its value.
-/

namespace FrameKinematics

section Magnitudes

/-- The number `m * 2 ^ e`. -/
noncomputable def magnitude (m : ℕ) (e : ℤ) : ℝ := m * (2 : ℕ) ^ e

/-- A mantissa is as long as it can be in a double. -/
structure IsCanonical (m : ℕ) (e : ℤ) : Prop where
  mantissa_lt : m < 2 ^ 53
  exponent_ge : -1074 ≤ e
  long_or_least : 2 ^ 52 ≤ m ∨ e = -1074

variable {m n : ℕ} {e f : ℤ}

/-- A magnitude is a mantissa times a power of two. -/
theorem magnitude_eq : magnitude m e = m * 2 ^ e := by
  rw [magnitude, Nat.cast_ofNat]

/-- The magnitude of a mantissa that is not zero is positive. -/
theorem magnitude_pos (hm : 0 < m) : 0 < magnitude m e :=
  mul_pos (by exact_mod_cast hm) (by positivity)

/-- A larger exponent makes up for any mantissa. -/
theorem IsCanonical.magnitude_lt (hm : IsCanonical m e) (hn : IsCanonical n f) (h : e < f) :
    magnitude m e < magnitude n f := by
  have hlong : 2 ^ 52 ≤ n := hn.long_or_least.resolve_right (hm.exponent_ge.trans_lt h).ne'
  have hshort : (m : ℝ) < 2 ^ 53 := by exact_mod_cast hm.mantissa_lt
  rw [magnitude_eq, magnitude_eq]
  calc m * 2 ^ e < (2 : ℝ) ^ 53 * 2 ^ e := mul_lt_mul_of_pos_right hshort (by positivity)
    _ = 2 ^ 52 * 2 ^ (e + 1) := by
      rw [zpow_add_one₀ two_ne_zero]
      ring
    _ ≤ 2 ^ 52 * 2 ^ f :=
      mul_le_mul_of_nonneg_left (zpow_le_zpow_right₀ one_le_two h) (by positivity)
    _ ≤ n * 2 ^ f := mul_le_mul_of_nonneg_right (by exact_mod_cast hlong) (by positivity)

/-- The exponents decide between magnitudes, and if they are equal the mantissas do. -/
theorem IsCanonical.compare_eq (hm : IsCanonical m e) (hn : IsCanonical n f) :
    (compare e f).then (compare m n) = compare (magnitude m e) (magnitude n f) := by
  rcases lt_trichotomy e f with hlt | rfl | hgt
  · rw [compare_lt_iff_lt.mpr hlt, compare_lt_iff_lt.mpr (hm.magnitude_lt hn hlt)]
    rfl
  · have hmono : StrictMono fun k : ℕ => magnitude k e := fun j k hjk =>
      mul_lt_mul_of_pos_right (by exact_mod_cast hjk) (by positivity)
    have hcompare := hmono.cmp_map_eq m n
    rw [cmp_eq_compare, cmp_eq_compare] at hcompare
    rw [compare_eq_iff_eq.mpr rfl]
    exact hcompare.symm
  · rw [compare_gt_iff_gt.mpr hgt, compare_gt_iff_gt.mpr (hn.magnitude_lt hm hgt)]
    rfl

end Magnitudes

namespace Dyadic

/-- The value of a dyadic number. -/
noncomputable def value (d : Dyadic) : ℝ :=
  if d.negative then -magnitude d.mantissa d.exponent else magnitude d.mantissa d.exponent

/-- A dyadic number is its numerator over its denominator. -/
theorem magnitude_mul_denominator (d : Dyadic) :
    magnitude d.mantissa d.exponent * d.denominator = d.numerator := by
  have hsplit : d.exponent + (-d.exponent).toNat = d.exponent.toNat := by omega
  have hpower : (2 : ℝ) ^ d.exponent * 2 ^ (-d.exponent).toNat = 2 ^ d.exponent.toNat := by
    rw [← zpow_natCast 2 (-d.exponent).toNat, ← zpow_add₀ two_ne_zero, hsplit, zpow_natCast]
  rw [magnitude_eq, denominator, numerator, Nat.pow_eq, Nat.pow_eq]
  push_cast
  rw [mul_assoc, hpower]

/-- The greatest whole number that is not above a dyadic number is below the same whole numbers. -/
theorem floor_lt_iff (d : Dyadic) (n : ℤ) : d.floor < n ↔ d.value < n := by
  have hdenominator : (0 : ℤ) < d.denominator := by exact_mod_cast Nat.two_pow_pos _
  have hpositive : (0 : ℝ) < d.denominator := by exact_mod_cast hdenominator
  have hscaled : d.value * d.denominator =
      ((if d.negative then -(d.numerator : ℤ) else d.numerator : ℤ) : ℝ) := by
    rw [value]
    split_ifs
    · rw [neg_mul, magnitude_mul_denominator, Int.cast_neg, Int.cast_natCast]
    · rw [magnitude_mul_denominator, Int.cast_natCast]
  rw [floor, Int.ediv_lt_iff_lt_mul hdenominator, ← mul_lt_mul_iff_left₀ hpositive, hscaled]
  exact_mod_cast Iff.rfl

end Dyadic

namespace Binary64

open Float.Model
open Float.Model.UnpackedFloat (Sign)

/-- What an unpacked double is read as. -/
def Reading.ofUnpacked : UnpackedFloat → Reading
  | .infinity s => .infinite (s == .negative)
  | .notANumber => .notANumber
  | .zero s => .finite ⟨s == .negative, 0, -1074⟩
  | .finite s m e _ => .finite ⟨s == .negative, m, e⟩

section Fields

variable (b : BitVec 64)

/-- The mantissa field is the lowest 52 bits. -/
theorem toNat_unpackMantissa :
    (@UnpackedFloat.unpackMantissa Format.binary64 b).toNat = b.toNat % 2 ^ 52 := by
  rw [UnpackedFloat.unpackMantissa_def, BitVec.extractLsb'_toNat, Nat.shiftRight_zero]

/-- The exponent field is the eleven bits above the mantissa. -/
theorem toNat_unpackExponent :
    (@UnpackedFloat.unpackExponent Format.binary64 b).toNat = b.toNat / 2 ^ 52 % 2048 := by
  rw [UnpackedFloat.unpackExponent_def, BitVec.extractLsb'_toNat, Nat.shiftRight_eq_div_pow]
  rfl

/-- The sign field is the highest bit. -/
theorem toNat_unpackSign :
    (@UnpackedFloat.unpackSign Format.binary64 b).toNat = b.toNat / 2 ^ 63 := by
  rw [UnpackedFloat.unpackSign_def, BitVec.extractLsb'_toNat, Nat.shiftRight_eq_div_pow]
  have hlt := b.isLt
  change b.toNat / 2 ^ 63 % 2 = _
  omega

/-- The highest bit says whether the sign is negative. -/
theorem negative_eq : (b.toNat / 2 ^ 63 == 1) =
    (Sign.ofBitVec (@UnpackedFloat.unpackSign Format.binary64 b) == .negative) := by
  rw [← toNat_unpackSign]
  generalize @UnpackedFloat.unpackSign Format.binary64 b = v
  revert v
  decide

end Fields

/-- A double is read as it is unpacked. -/
theorem read_eq (x : Float) : read x = .ofUnpacked x.toModel.unpack := by
  have hbits : x.toBits.toNat = x.toModel.toBits.toBitVec.toNat := rfl
  have hfull (e : BitVec 11) : e.toNat = 2047 ↔ e = -1#11 := by
    rw [← BitVec.toNat_inj]
    rfl
  have hzero {n : Nat} (v : BitVec n) : v.toNat = 0 ↔ v = 0#n := by
    rw [← BitVec.toNat_inj, BitVec.toNat_ofNat, Nat.zero_mod]
  rw [read, hbits, unpack]
  generalize x.toModel.toBits.toBitVec = b
  simp only [Nat.pow_eq, negative_eq, ← toNat_unpackMantissa, ← toNat_unpackExponent]
  fun_cases UnpackedFloat.unpack Format.binary64 b with
  | case1 _ _ _ _ he hm => rw [if_pos ((hfull _).mpr he), if_pos ((hzero _).mpr hm)]; rfl
  | case2 _ _ he hm => rw [if_pos ((hfull _).mpr he), if_neg (mt (hzero _).mp hm)]; rfl
  | case3 _ _ _ _ hfinite he hm =>
    rw [if_neg (mt (hfull _).mp hfinite), if_pos ((hzero _).mpr he), (hzero _).mpr hm]
    rfl
  | case4 m e k v s hfinite he hm =>
    have hk : k + 1 = -1074 := by
      change (e.toNat : ℤ) - (1023 + 52) + 1 = _
      rw [(hzero _).mpr he]
      rfl
    rw [if_neg (mt (hfull _).mp hfinite), if_pos ((hzero _).mpr he), hk]
    rfl
  | case5 m e k v s hfinite he =>
    have hlong : (1#1 ++ m).toNat = m.toNat + 2 ^ 52 := by
      rw [BitVec.toNat_append, ← Nat.shiftLeft_add_eq_or_of_lt m.isLt, Nat.add_comm]
      rfl
    rw [if_neg (mt (hfull _).mp hfinite), if_neg (mt (hzero _).mp he), Reading.ofUnpacked, hlong]
    rfl

/-- The mantissa of a double is as long as it can be. -/
theorem isCanonical_of_unpack {x : Float} {s : Sign} {m : ℕ} {e : ℤ} {hm : 0 < m}
    (h : x.toModel.unpack = .finite s m e hm) : IsCanonical m e := by
  have hfraction : x.toBits.toNat % 2 ^ 52 < 2 ^ 52 := Nat.mod_lt _ (by decide)
  have hread := read_eq x
  rw [h, read] at hread
  simp only [Nat.pow_eq, Reading.ofUnpacked] at hread
  split_ifs at hread with hfull hinfinite hzero
  · injection hread with hread
    injection hread with _ hmantissa hexponent
    subst hmantissa hexponent
    exact ⟨hfraction.trans (by decide), le_rfl, .inr rfl⟩
  · injection hread with hread
    injection hread with _ hmantissa hexponent
    subst hmantissa hexponent
    exact ⟨by omega, by omega, .inl (by omega)⟩

/-- The value of an unpacked double that is a number. -/
noncomputable def unpackedValue? : UnpackedFloat → Option EReal
  | .notANumber => none
  | .infinity .positive => some ⊤
  | .infinity .negative => some ⊥
  | .zero _ => some 0
  | .finite .positive m e _ => some (magnitude m e : ℝ)
  | .finite .negative m e _ => some (-magnitude m e : ℝ)

/-- The value of a double that is a number. -/
noncomputable def value? (x : Float) : Option EReal := unpackedValue? x.toModel.unpack

/-- The literal zero has the value zero. -/
theorem value?_zero : value? 0.0 = some 0 := by
  have hzero : (0.0 : Float).toModel.unpack = .zero .positive := rfl
  rw [value?, hzero]
  rfl

section Comparison

variable {a b : UnpackedFloat}

/-- Unpacked doubles are compared as their values. -/
theorem compare_eq_lt_iff (ha : ∀ s m e hm, a = .finite s m e hm → IsCanonical m e)
    (hb : ∀ s m e hm, b = .finite s m e hm → IsCanonical m e) :
    a.compare b = some .lt ↔
      ∃ u v, unpackedValue? a = some u ∧ unpackedValue? b = some v ∧ u < v := by
  cases a with
  | notANumber => simp [unpackedValue?, UnpackedFloat.compare]
  | infinity s =>
    cases b with
    | notANumber => simp [unpackedValue?, UnpackedFloat.compare]
    | infinity s' =>
      cases s <;> cases s' <;> simp [unpackedValue?, UnpackedFloat.compare]
      rfl
    | zero s' => cases s <;> simp [unpackedValue?, UnpackedFloat.compare]
    | finite s' m' e' hm' =>
      cases s <;> cases s' <;> simp [unpackedValue?, UnpackedFloat.compare, -EReal.coe_neg]
  | zero s =>
    cases b with
    | notANumber => simp [unpackedValue?, UnpackedFloat.compare]
    | infinity s' => cases s' <;> simp [unpackedValue?, UnpackedFloat.compare]
    | zero s' => simp [unpackedValue?, UnpackedFloat.compare]
    | finite s' m' e' hm' =>
      have hpos := @magnitude_pos m' e' hm'
      cases s' <;> simp [unpackedValue?, UnpackedFloat.compare, hpos, hpos.le]
  | finite s m e hm =>
    have hpos := @magnitude_pos m e hm
    cases b with
    | notANumber => simp [unpackedValue?, UnpackedFloat.compare]
    | infinity s' =>
      cases s <;> cases s' <;> simp [unpackedValue?, UnpackedFloat.compare, -EReal.coe_neg]
    | zero s' => cases s <;> simp [unpackedValue?, UnpackedFloat.compare, hpos, hpos.le]
    | finite s' m' e' hm' =>
      have hpos' := @magnitude_pos m' e' hm'
      have hcompare := (ha _ _ _ _ rfl).compare_eq (hb _ _ _ _ rfl)
      cases s <;> cases s' <;>
        simp [unpackedValue?, UnpackedFloat.compare, hcompare, -EReal.coe_neg]
      · exact compare_gt_iff_gt
      · linarith
      · linarith
      · exact compare_lt_iff_lt

/-- What is a number is equal to itself. -/
theorem compare_self_iff : a.compare a = some .eq ↔ (unpackedValue? a).isSome := by
  cases a with
  | notANumber => simp [unpackedValue?, UnpackedFloat.compare]
  | infinity s => cases s <;> exact iff_of_true rfl rfl
  | zero s => exact iff_of_true rfl rfl
  | finite s m e hm => cases s <;> simp [unpackedValue?, UnpackedFloat.compare]

end Comparison

variable {x y : Float}

/-- Doubles are compared as their values. -/
theorem lt_iff : x < y ↔ ∃ u v, value? x = some u ∧ value? y = some v ∧ u < v := by
  have hcompare : x < y ↔ x.toModel.unpack.compare y.toModel.unpack = some .lt :=
    decide_eq_true_iff.trans beq_iff_eq
  rw [hcompare, compare_eq_lt_iff (fun _ _ _ _ => isCanonical_of_unpack)
    (fun _ _ _ _ => isCanonical_of_unpack)]
  rfl

/-- What is a number is equal to itself. -/
theorem beq_self_iff : (x == x) = true ↔ (value? x).isSome := by
  rw [value?, ← compare_self_iff]
  change (x.toModel.unpack.compare x.toModel.unpack == some .eq) = true ↔ _
  exact beq_iff_eq

section Opposite

/-- Without its sign an unpacked double is packed in the same way. -/
theorem exists_pack_neg {a : UnpackedFloat} (ha : a ≠ .notANumber) :
    ∃ s e m, UnpackedFloat.pack Format.binary64 a = UnpackedFloat.packComponents _ s e m ∧
      UnpackedFloat.pack Format.binary64 a.neg = UnpackedFloat.packComponents _ (-s) e m := by
  cases a with
  | notANumber => exact absurd rfl ha
  | infinity s => exact ⟨s, _, _, rfl, rfl⟩
  | zero s => exact ⟨s, _, _, rfl, rfl⟩
  | finite s m e hm =>
    simp only [UnpackedFloat.neg, UnpackedFloat.pack]
    split_ifs
    · exact ⟨s, _, _, rfl, rfl⟩
    · exact ⟨s, _, _, rfl, rfl⟩
    · exact ⟨s, _, _, rfl, rfl⟩

/-- The sign of a packed double is unpacked again. -/
theorem unpack_packComponents_neg (s : Sign) (e : BitVec 11) (m : BitVec 52) :
    UnpackedFloat.unpack Format.binary64 (UnpackedFloat.packComponents Format.binary64 (-s) e m) =
      (UnpackedFloat.unpack Format.binary64
        (UnpackedFloat.packComponents Format.binary64 s e m)).neg := by
  simp only [UnpackedFloat.unpack, UnpackedFloat.unpackMantissa_packComponents,
    UnpackedFloat.unpackExponent_packComponents, UnpackedFloat.unpackSign_packComponents,
    Sign.ofBitVec_toBitVec]
  split_ifs <;> rfl

/-- The opposite of a double is unpacked with the other sign. -/
theorem unpack_neg (x : Float) : (-x).toModel.unpack = x.toModel.unpack.neg := by
  by_cases hx : x.toModel.unpack = .notANumber
  · have hneg : (-x).toModel = pack x.toModel.unpack.neg := rfl
    rw [hneg, hx]
    rfl
  · obtain ⟨s, e, m, hpack, hpack'⟩ := exists_pack_neg hx
    have hbits : x.toModel.toBits.toBitVec = UnpackedFloat.packComponents Format.binary64 s e m :=
      (UnpackedFloat.pack_unpack_of_valid x.toModel.valid).symm.trans hpack
    have hbits' : (-x).toModel.toBits.toBitVec =
        UnpackedFloat.packComponents Format.binary64 (-s) e m := hpack'
    rw [unpack, unpack, hbits, hbits', unpack_packComponents_neg]

/-- The value of the opposite is the opposite of the value. -/
theorem unpackedValue?_neg (a : UnpackedFloat) :
    unpackedValue? a.neg = (unpackedValue? a).map (-·) := by
  cases a with
  | notANumber => rfl
  | infinity s => cases s <;> simp [unpackedValue?, UnpackedFloat.neg]
  | zero s => simp [unpackedValue?, UnpackedFloat.neg]
  | finite s m e hm => cases s <;> simp [unpackedValue?, UnpackedFloat.neg]

/-- The opposite of a double has the opposite value. -/
theorem value?_neg (x : Float) : value? (-x) = (value? x).map (-·) := by
  rw [value?, unpack_neg, unpackedValue?_neg, value?]

end Opposite

section WholePart

/-- A double that has a whole part has a value, which is below the same whole numbers. -/
theorem floor_eq_ok {n : Int} (h : floor x = .ok n) :
    ∃ u : ℝ, value? x = some (u : EReal) ∧ ∀ k : ℤ, n < k ↔ u < k := by
  rw [floor, read_eq] at h
  rw [value?]
  cases hx : x.toModel.unpack with
  | notANumber => simp [hx, Reading.ofUnpacked] at h
  | infinity s => simp [hx, Reading.ofUnpacked] at h
  | zero s =>
    rw [hx] at h
    injection h with h
    refine ⟨0, rfl, fun k => ?_⟩
    rw [← h, Dyadic.floor_lt_iff]
    simp [Dyadic.value, magnitude]
  | finite s m e hm =>
    rw [hx] at h
    injection h with h
    cases s with
    | positive => exact ⟨magnitude m e, rfl, fun k => by rw [← h, Dyadic.floor_lt_iff]; rfl⟩
    | negative => exact ⟨-magnitude m e, rfl, fun k => by rw [← h, Dyadic.floor_lt_iff]; rfl⟩

/-- A double whose floor is refused as infinite is one of the two infinities. -/
theorem floor_eq_error_infinite (h : floor x = .error .infinite) :
    value? x = some ⊥ ∨ value? x = some ⊤ := by
  rw [floor, read_eq] at h
  rw [value?]
  cases hx : x.toModel.unpack with
  | infinity s =>
    cases s with
    | positive => exact .inr rfl
    | negative => exact .inl rfl
  | _ => simp [hx, Reading.ofUnpacked] at h

/-- A double whose floor is refused as not a number has no value. -/
theorem floor_eq_error_notANumber (h : floor x = .error .notANumber) : value? x = none := by
  rw [floor, read_eq] at h
  rw [value?]
  cases hx : x.toModel.unpack with
  | notANumber => rfl
  | _ => simp [hx, Reading.ofUnpacked] at h

end WholePart

end Binary64

end FrameKinematics
