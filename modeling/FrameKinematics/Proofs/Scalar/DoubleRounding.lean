import FrameKinematics.Proofs.Scalar.DoubleValues
import FrameKinematics.Proofs.Scalar.Real

/-!
# Rounding to doubles

An operation on doubles computes a mantissa that is long enough, together with what is known of the
rest: nothing is left, or the rest is below, at, or above one half. This describes the exact result,
and goes on describing it when the mantissa is shortened to the length of a double. So the mantissa
is off by one half at most when it is rounded, which is a relative error of `2 ^ -53` where the
double is of full length. Where it has the least exponent the error is `2 ^ -1075` at most, and
there is none if nothing was left and the mantissa was not shortened. Packing keeps a rounded
double, or makes it infinite if its exponent is too large.
-/

namespace FrameKinematics.Binary64

open Float.Model
open Float.Model.UnpackedFloat (Accuracy ExtendedMantissa Sign roundWithAccuracy shiftToExponent
  shiftToTargetExponent)

section Mantissas

variable {m : ℕ} {acc : Accuracy} {x : ℝ}

/-- A mantissa and what is known of the rest describe a number. -/
def Describes (m : ℕ) (acc : Accuracy) (x : ℝ) : Prop :=
  match acc with
  | .exact => x = m
  | .inexact .lt => m < x ∧ x + x < m + m + 1
  | .inexact .eq => x + x = m + m + 1
  | .inexact .gt => m + m + 1 < x + x ∧ x < m + 1

/-- A mantissa describes numbers up to the next mantissa. -/
theorem Describes.bounds (h : Describes m acc x) : m ≤ x ∧ x < m + 1 := by
  cases acc with
  | exact =>
    obtain rfl : x = m := h
    exact ⟨le_rfl, by linarith⟩
  | inexact half =>
    cases half with
    | lt => exact ⟨h.1.le, by linarith [h.1, h.2]⟩
    | eq =>
      have hhalf : x + x = m + m + 1 := h
      exact ⟨by linarith, by linarith⟩
    | gt => exact ⟨by linarith [h.1], h.2⟩

/-- The nearest mantissa is at most one half away. -/
theorem Describes.abs_round_sub_le (h : Describes m acc x) :
    |(acc.roundToNearestEven m : ℝ) - x| ≤ 1 / 2 := by
  rw [abs_le]
  cases acc with
  | exact =>
    obtain rfl : x = m := h
    simp only [Accuracy.roundToNearestEven]
    constructor <;> linarith
  | inexact half =>
    cases half with
    | lt =>
      obtain ⟨hlow, hhigh⟩ := h
      simp only [Accuracy.roundToNearestEven]
      constructor <;> linarith
    | eq =>
      have hhalf : x + x = m + m + 1 := h
      have hodd : (0 : ℝ) ≤ (m % 2 : ℕ) ∧ ((m % 2 : ℕ) : ℝ) ≤ 1 :=
        ⟨Nat.cast_nonneg _, by exact_mod_cast (by omega : m % 2 ≤ 1)⟩
      simp only [Accuracy.roundToNearestEven, Nat.cast_add]
      constructor <;> linarith [hodd.1, hodd.2]
    | gt =>
      obtain ⟨hlow, hhigh⟩ := h
      simp only [Accuracy.roundToNearestEven, Nat.cast_add, Nat.cast_one]
      constructor <;> linarith

/-- A mantissa that is given with its accuracy has that accuracy. -/
theorem accuracy_ofMantissaAndAccuracy :
    (ExtendedMantissa.ofMantissaAndAccuracy m acc).accuracy = acc := by
  cases acc with
  | exact => rfl
  | inexact half => cases half <;> rfl

/-- A mantissa that is given with its accuracy is that mantissa. -/
theorem mantissa_ofMantissaAndAccuracy :
    (ExtendedMantissa.ofMantissaAndAccuracy m acc).mantissa = m := by
  cases acc with
  | exact => rfl
  | inexact half => cases half <;> rfl

/-- Half of a number is described by the mantissa without its last bit: that bit tells whether one
half is left, and the bits after it tell whether there is more. -/
theorem describes_shiftRightOne {em : ExtendedMantissa} (h : Describes em.mantissa em.accuracy x) :
    Describes em.shiftRightOne.mantissa em.shiftRightOne.accuracy (x / 2) := by
  obtain ⟨m, roundBit, stickyBit⟩ := em
  obtain ⟨k, rfl | rfl⟩ := Nat.even_or_odd' m
  · have hhalf : 2 * k / 2 = k := by omega
    cases roundBit <;> cases stickyBit <;>
      simp only [Describes, ExtendedMantissa.accuracy, ExtendedMantissa.shiftRightOne, hhalf,
        Nat.mul_mod_right, bne_self_eq_false, Bool.or_false, Bool.or_true, Nat.cast_mul,
        Nat.cast_ofNat] at h ⊢
    · linarith
    · constructor <;> linarith [h.1, h.2]
    · constructor <;> linarith
    · constructor <;> linarith [h.1, h.2]
  · have hhalf : (2 * k + 1) / 2 = k := by omega
    have hodd : ((2 * k + 1) % 2 != 0) = true := by
      rw [bne_iff_ne]
      omega
    cases roundBit <;> cases stickyBit <;>
      simp only [Describes, ExtendedMantissa.accuracy, ExtendedMantissa.shiftRightOne, hhalf, hodd,
        Bool.or_false, Bool.or_true, Nat.cast_mul, Nat.cast_ofNat, Nat.cast_add,
        Nat.cast_one] at h ⊢
    · linarith
    · constructor <;> linarith [h.1, h.2]
    · constructor <;> linarith
    · constructor <;> linarith [h.1, h.2]

/-- Shifting a mantissa to the right divides the number that it describes by a power of two. -/
theorem describes_shiftRight {em : ExtendedMantissa} (h : Describes em.mantissa em.accuracy x)
    (k : ℕ) : Describes (em >>> k).mantissa (em >>> k).accuracy (x / 2 ^ k) := by
  have hrepeat : em >>> k = k.repeat ExtendedMantissa.shiftRightOne em := rfl
  rw [hrepeat]
  induction k with
  | zero => simpa [Nat.repeat] using h
  | succ k ih =>
    rw [Nat.repeat, pow_succ, ← div_div]
    exact describes_shiftRightOne (ih rfl)

end Mantissas

/-- The relative error of a rounded number, at most. -/
noncomputable def roundoff : ℝ := magnitude 1 (-53)

/-- The least double above zero. -/
noncomputable def leastDouble : ℝ := magnitude 1 (-1074)

/-- The magnitude of mantissa one is the power of two with the exponent. -/
theorem magnitude_one (e : ℤ) : magnitude 1 e = 2 ^ e := by
  rw [magnitude_eq, Nat.cast_one, one_mul]

/-- The roundoff as a fraction. -/
theorem roundoff_eq : roundoff = 1 / 9007199254740992 := by
  norm_num [roundoff, magnitude_one]

/-- The least double is two to the power of minus 1074. -/
theorem leastDouble_eq : leastDouble = 2 ^ (-1074 : ℤ) := magnitude_one _

/-- The least double above zero is positive. -/
theorem leastDouble_pos : 0 < leastDouble := magnitude_pos one_pos

/-- The least double is smaller than the roundoff. -/
theorem leastDouble_le_roundoff : leastDouble ≤ roundoff := by
  rw [leastDouble, roundoff, magnitude_one, magnitude_one]
  exact zpow_le_zpow_right₀ one_le_two (by norm_num)

section Rounding

variable {m r : ℕ} {e t : ℤ} {acc : Accuracy} {x : ℝ}

/-- The exponent with which a mantissa has the length of a double, or the least exponent. -/
theorem targetExponent_eq :
    Format.binary64.targetExponent (totalExponent m e) = max (m.log2 + e - 52) (-1074) := by
  change max ((m.log2 : ℤ) + 1 + e - 53) (-1074) = _
  congr 1
  omega

/-- A mantissa that is too long is shifted to the exponent that leaves it 53 digits, or to the least
exponent. -/
theorem shiftToTargetExponent_eq (ht : max ((m.log2 : ℤ) + e - 52) (-1074) = t) (he : e ≤ t) :
    shiftToTargetExponent Format.binary64 m e acc =
      (ExtendedMantissa.ofMantissaAndAccuracy m acc >>> (t - e).toNat, t) := by
  rw [shiftToTargetExponent, shiftToExponent, targetExponent_eq, ht]
  congr 1
  omega

/-- The double with a sign and a mantissa. -/
def ofMagnitude (s : Sign) (m : ℕ) (e : ℤ) : UnpackedFloat :=
  if h : m = 0 then .zero s else .finite s m e (Nat.pos_of_ne_zero h)

/-- A mantissa that became one bit too long when it was rounded loses its last bit, which is
zero. -/
theorem exists_shortened (hr : r ≤ 2 ^ 53) (hlong : 2 ^ 52 ≤ r ∨ t = -1074) (ht : -1074 ≤ t) :
    ∃ m' e', IsCanonical m' e' ∧ magnitude m' e' = magnitude r t ∧
      (shiftToTargetExponent Format.binary64 r t .exact).1.mantissa = m' ∧
      (shiftToTargetExponent Format.binary64 r t .exact).2 = e' := by
  rcases Nat.lt_or_eq_of_le hr with hshort | rfl
  · refine ⟨r, t, ⟨hshort, ht, hlong⟩, rfl, ?_⟩
    have hlog : (r.log2 : ℤ) ≤ 52 := by
      by_cases hzero : r = 0
      · simp [hzero]
      · have := (Nat.log2_lt hzero).mpr hshort
        omega
    rw [shiftToTargetExponent, shiftToExponent, targetExponent_eq,
      (by omega : (max ((r.log2 : ℤ) + t - 52) (-1074) - t).toNat = 0)]
    exact ⟨rfl, by simp⟩
  · refine ⟨2 ^ 52, t + 1, ⟨by norm_num, by omega, .inl le_rfl⟩, ?_, ?_⟩
    · rw [magnitude_eq, magnitude_eq, zpow_add_one₀ two_ne_zero]
      push_cast
      ring
    · have hlog : (2 ^ 53).log2 = 53 := Nat.log2_two_pow
      rw [shiftToTargetExponent_eq (t := t + 1) (by rw [hlog]; omega) (by omega),
        (by omega : (t + 1 - t).toNat = 1)]
      exact ⟨rfl, rfl⟩

/-- Where the mantissa is cut off, it has the length of a double, or the exponent is the least
one. -/
theorem cut_bounds (hx : Describes m acc x) (hlong : 2 ^ 52 ≤ m ∨ e ≤ -1074)
    (ht : max ((m.log2 : ℤ) + e - 52) (-1074) = t) :
    x / 2 ^ (t - e).toNat < 2 ^ 53 ∧ (2 ^ 52 ≤ x / 2 ^ (t - e).toNat ∨ t = -1074) := by
  obtain ⟨hlow, hhigh⟩ := hx.bounds
  have hpower : (0 : ℝ) < 2 ^ (t - e).toNat := by positivity
  constructor
  · rw [div_lt_iff₀ hpower, ← pow_add]
    have hnext : m + 1 ≤ 2 ^ (53 + (t - e).toNat) := by
      calc m + 1 ≤ 2 ^ (m.log2 + 1) := Nat.lt_log2_self
        _ ≤ 2 ^ (53 + (t - e).toNat) := Nat.pow_le_pow_right two_pos (by omega)
    calc x < m + 1 := hhigh
      _ ≤ 2 ^ (53 + (t - e).toNat) := by exact_mod_cast hnext
  · by_cases hleast : t = -1074
    · exact .inr hleast
    · left
      have hm : m ≠ 0 := by
        rintro rfl
        rw [Nat.log2_zero] at ht
        omega
      rw [le_div_iff₀ hpower, ← pow_add]
      have hfirst : 2 ^ (52 + (t - e).toNat) ≤ m := by
        have hlog : 52 ≤ m.log2 := by
          rcases hlong with hlong | he
          · exact (Nat.le_log2 hm).mpr hlong
          · omega
        calc 2 ^ (52 + (t - e).toNat) ≤ 2 ^ m.log2 := Nat.pow_le_pow_right two_pos (by omega)
          _ ≤ m := Nat.log2_self_le hm
      calc (2 : ℝ) ^ (52 + (t - e).toNat) ≤ m := by exact_mod_cast hfirst
        _ ≤ x := hlow

/-- A whole number that is one half away at most is between the same whole numbers. -/
theorem whole_bounds {n : ℕ} (h : |(r : ℝ) - x| ≤ 1 / 2) : (x < n → r ≤ n) ∧ (n ≤ x → n ≤ r) := by
  obtain ⟨hlow, hhigh⟩ := abs_le.mp h
  constructor
  · intro hx
    have hlt : (r : ℝ) < n + 1 := by linarith
    have hlt' : r < n + 1 := by exact_mod_cast hlt
    omega
  · intro hx
    have hlt : (n : ℝ) < r + 1 := by linarith
    have hlt' : n < r + 1 := by exact_mod_cast hlt
    omega

/-- A rounded number is a double, up to the size of its exponent. The error is relative, or that of
the least exponent, where a mantissa that was not shortened has none. -/
theorem exists_roundWithAccuracy (hx : Describes m acc x) (hlong : 2 ^ 52 ≤ m ∨ e ≤ -1074)
    (s : Sign) :
    ∃ m' e', IsCanonical m' e' ∧
      roundWithAccuracy Format.binary64 s m e acc = ofMagnitude s m' e' ∧
      (|magnitude m' e' - x * 2 ^ e| ≤ roundoff * (x * 2 ^ e) ∨
        |magnitude m' e' - x * 2 ^ e| ≤ leastDouble / 2 ∧
          (acc = .exact → -1074 ≤ e → magnitude m' e' = x * 2 ^ e)) := by
  obtain ⟨t, ht⟩ : ∃ t, max ((m.log2 : ℤ) + e - 52) (-1074) = t := ⟨_, rfl⟩
  have he : e ≤ t := by
    rcases hlong with hlong | he
    · have := (Nat.le_log2 (by omega)).mpr hlong
      omega
    · omega
  obtain ⟨hshort, hcut⟩ := cut_bounds hx hlong ht
  have hshifted := @shiftToTargetExponent_eq m e t acc ht he
  set em := ExtendedMantissa.ofMantissaAndAccuracy m acc >>> (t - e).toNat with hem
  set y := x / 2 ^ (t - e).toNat with hy
  have hdescribes : Describes em.mantissa em.accuracy y := describes_shiftRight
    (by rwa [mantissa_ofMantissaAndAccuracy, accuracy_ofMantissaAndAccuracy]) _
  have hvalue : x * 2 ^ e = y * 2 ^ t := by
    rw [hy, div_mul_eq_mul_div, eq_div_iff (by positivity), mul_assoc, ← zpow_natCast,
      ← zpow_add₀ two_ne_zero]
    congr 2
    omega
  have hnear : |(em.roundedMantissa : ℝ) - y| ≤ 1 / 2 := hdescribes.abs_round_sub_le
  have hr : em.roundedMantissa ≤ 2 ^ 53 := (whole_bounds hnear).1 (by exact_mod_cast hshort)
  have hr' : 2 ^ 52 ≤ em.roundedMantissa ∨ t = -1074 :=
    hcut.imp_left fun hcut => (whole_bounds hnear).2 (by exact_mod_cast hcut)
  obtain ⟨m', e', hcanonical, hmagnitude, hm', he'⟩ := exists_shortened hr hr' (by omega)
  refine ⟨m', e', hcanonical, ?_, ?_⟩
  · rw [roundWithAccuracy, hshifted]
    simp only [hm', he']
    rfl
  · have herror : |magnitude m' e' - x * 2 ^ e| ≤ 1 / 2 * 2 ^ t := by
      rw [hmagnitude, magnitude_eq, hvalue, ← sub_mul, abs_mul,
        abs_of_pos (zpow_pos two_pos t : (0 : ℝ) < 2 ^ t)]
      exact mul_le_mul_of_nonneg_right hnear (by positivity)
    rcases hcut with hcut | rfl
    · left
      calc |magnitude m' e' - x * 2 ^ e| ≤ 1 / 2 * 2 ^ t := herror
        _ = roundoff * (2 ^ 52 * 2 ^ t) := by
          rw [roundoff_eq]
          ring
        _ ≤ roundoff * (y * 2 ^ t) := by
          rw [roundoff_eq]
          gcongr
        _ = roundoff * (x * 2 ^ e) := by rw [hvalue]
    · right
      constructor
      · calc |magnitude m' e' - x * 2 ^ e| ≤ 1 / 2 * 2 ^ (-1074 : ℤ) := herror
          _ = leastDouble / 2 := by
            rw [leastDouble_eq]
            ring
      · rintro rfl hleast
        obtain rfl : e = -1074 := le_antisymm he hleast
        have hkept : em.roundedMantissa = m := rfl
        obtain rfl : x = m := hx
        rw [hmagnitude, hkept, magnitude_eq]

end Rounding

section Packing

variable {m : ℕ} {e : ℤ}

/-- The parts of a packed double are unpacked again. -/
theorem unpack_packComponents {s : Sign} {field : BitVec 11} {fraction : BitVec 52}
    (hfield : field ≠ -1#11) :
    UnpackedFloat.unpack Format.binary64 (UnpackedFloat.packComponents _ s field fraction) =
      if field = 0#11 then ofMagnitude s fraction.toNat (-1074)
      else ofMagnitude s (2 ^ 52 + fraction.toNat) (field.toNat - 1075) := by
  simp only [UnpackedFloat.unpack, UnpackedFloat.unpackMantissa_packComponents,
    UnpackedFloat.unpackExponent_packComponents, UnpackedFloat.unpackSign_packComponents,
    Sign.ofBitVec_toBitVec]
  rw [if_neg hfield]
  split_ifs with hzero hfraction
  · rw [hfraction]
    rfl
  · have hne : fraction.toNat ≠ 0 := fun h => hfraction (BitVec.eq_of_toNat_eq h)
    rw [ofMagnitude, dif_neg hne, hzero]
    rfl
  · have hlong : (1#1 ++ fraction).toNat = 2 ^ 52 + fraction.toNat := by
      rw [BitVec.toNat_append, ← Nat.shiftLeft_add_eq_or_of_lt fraction.isLt]
      rfl
    have hne : 2 ^ 52 + fraction.toNat ≠ 0 := by positivity
    rw [ofMagnitude, dif_neg hne]
    simp only [hlong]
    rfl

/-- A double is unpacked as it was packed. One whose exponent is too large becomes infinite. -/
theorem unpack_pack (h : IsCanonical m e) (s : Sign) :
    (Float.Model.pack (ofMagnitude s m e)).unpack =
      if e ≤ 971 then ofMagnitude s m e else .infinity s := by
  obtain ⟨hshort, hleast, hlong⟩ := h
  rw [Float.Model.unpack, Float.Model.pack]
  by_cases hm : m = 0
  · obtain rfl : e = -1074 := by omega
    subst hm
    cases s <;> rfl
  rw [ofMagnitude, dif_neg hm]
  have hfield : (e + (Format.binary64.exponentBias : ℤ) +
      (Format.binary64.mantissaBitsWithoutImplicit : ℤ)).toNat = (e + 1075).toNat := by
    change (e + 1023 + 52).toNat = _
    omega
  have hlimit : 2 ^ Format.binary64.exponentBits = 2048 := rfl
  have hbits : Format.binary64.mantissaBits = 53 := rfl
  simp only [UnpackedFloat.pack, hfield, hlimit, hbits]
  by_cases hlarge : e ≤ 971
  · rw [if_neg (by omega), if_pos hlarge]
    by_cases hnormal : 2 ^ 52 ≤ m
    · have hlog : m.log2 = 52 := (Nat.log2_eq_iff hm).mpr ⟨hnormal, hshort⟩
      have hexponent : (BitVec.ofNat 11 (e + 1075).toNat).toNat = (e + 1075).toNat := by
        rw [BitVec.toNat_ofNat, Nat.mod_eq_of_lt (by omega)]
      have hfraction : (BitVec.ofNat 52 m).toNat = m - 2 ^ 52 := by
        rw [BitVec.toNat_ofNat]
        omega
      have hfull : BitVec.ofNat 11 (e + 1075).toNat ≠ -1#11 := by
        rw [Ne, ← BitVec.toNat_inj, hexponent]
        change (e + 1075).toNat ≠ 2047
        omega
      have hzero : BitVec.ofNat 11 (e + 1075).toNat ≠ 0#11 := by
        rw [Ne, ← BitVec.toNat_inj, hexponent]
        change (e + 1075).toNat ≠ 0
        omega
      rw [hlog, if_pos rfl, unpack_packComponents hfull, if_neg hzero, hexponent, hfraction,
        Nat.add_sub_cancel' hnormal, (by omega : ((e + 1075).toNat : ℤ) - 1075 = e), ofMagnitude,
        dif_neg hm]
    · have hlog : m.log2 + 1 ≠ 53 := by
        have := (Nat.log2_lt hm).mpr (Nat.lt_of_not_le hnormal)
        omega
      have hfraction : (BitVec.ofNat 52 m).toNat = m := by
        rw [BitVec.toNat_ofNat, Nat.mod_eq_of_lt (by omega)]
      obtain rfl : e = -1074 := hlong.resolve_left hnormal
      have hfull : 0#11 ≠ -1#11 := by decide
      rw [if_neg hlog, unpack_packComponents hfull, if_pos rfl, hfraction, ofMagnitude, dif_neg hm]
  · rw [if_pos (by omega), if_neg hlarge]
    cases s <;> rfl

end Packing
section Values

variable {m : ℕ} {e : ℤ} {acc : Accuracy} {x v : ℝ} {z : Float} {s : Sign}

/-- A number with a sign. -/
noncomputable def signed (s : Sign) (v : ℝ) : ℝ :=
  match s with
  | .positive => v
  | .negative => -v

section Signs

variable (s : Sign) (v w : ℝ)

/-- A sign does not change the absolute value. -/
theorem abs_signed : |signed s v| = |v| := by
  cases s with
  | positive => rfl
  | negative => exact abs_neg v

/-- Numbers with one sign are subtracted by their magnitudes. -/
theorem signed_sub : signed s v - signed s w = signed s (v - w) := by
  cases s with
  | positive => rfl
  | negative => exact (neg_sub' v w).symm

/-- A quotient has the sign of the dividend. -/
theorem signed_div : signed s v / w = signed s (v / w) := by
  cases s with
  | positive => rfl
  | negative => exact neg_div w v

/-- The square does not depend on the sign. -/
theorem signed_sq : signed s v ^ 2 = v ^ 2 := by
  cases s with
  | positive => rfl
  | negative => exact neg_sq v

end Signs

/-- The infinity with a sign. -/
noncomputable def signedInfinity (s : Sign) : EReal :=
  match s with
  | .positive => ⊤
  | .negative => ⊥

/-- Magnitudes are not negative. -/
theorem magnitude_nonneg : 0 ≤ magnitude m e :=
  mul_nonneg (Nat.cast_nonneg m) (by positivity)

/-- The value of a number that is made of a sign, a mantissa and an exponent. -/
theorem unpackedValue?_ofMagnitude :
    unpackedValue? (ofMagnitude s m e) = some (signed s (magnitude m e) : EReal) := by
  unfold ofMagnitude
  split_ifs with hm
  · cases s <;> simp [unpackedValue?, signed, magnitude, hm]
  · cases s <;> simp [unpackedValue?, signed]

/-- The exponents of doubles are bounded. -/
theorem exponent_le_of_unpack {hm : 0 < m} (h : z.toModel.unpack = .finite s m e hm) :
    e ≤ 971 := by
  have hread := read_eq z
  rw [h, read] at hread
  simp only [Nat.pow_eq, Reading.ofUnpacked] at hread
  split_ifs at hread with hfull hinfinite hzero
  · injection hread with hread
    injection hread with _ _ hexponent
    omega
  · injection hread with hread
    injection hread with _ _ hexponent
    omega

/-- A double whose value is a real number has a sign, a mantissa and an exponent. -/
theorem exists_ofMagnitude (h : value? z = some (v : EReal)) :
    ∃ s m e, IsCanonical m e ∧ e ≤ 971 ∧ z.toModel.unpack = ofMagnitude s m e ∧
      v = signed s (magnitude m e) := by
  rw [value?] at h
  cases hz : z.toModel.unpack with
  | notANumber => simp [hz, unpackedValue?] at h
  | infinity s => cases s <;> simp [hz, unpackedValue?] at h
  | zero s =>
    have hvalue : (0 : EReal) = v := by simpa [hz, unpackedValue?] using h
    have hv : v = 0 := by exact_mod_cast hvalue.symm
    refine ⟨s, 0, -1074, ⟨by norm_num, le_rfl, .inr rfl⟩, by norm_num, rfl, ?_⟩
    cases s <;> simp [hv, signed, magnitude]
  | finite s m e hm =>
    have hfinite : UnpackedFloat.finite s m e hm = ofMagnitude s m e := by
      rw [ofMagnitude, dif_neg hm.ne']
    rw [hz, hfinite, unpackedValue?_ofMagnitude, Option.some_inj] at h
    exact ⟨s, m, e, isCanonical_of_unpack hz, exponent_le_of_unpack hz, hfinite,
      (EReal.coe_injective h).symm⟩

/-- What an operation rounds has a value near the exact one, or is infinite where that is
large. -/
theorem value?_rounded (hz : z.toModel = pack (roundWithAccuracy Format.binary64 s m e acc))
    (hx : Describes m acc x) (hlong : 2 ^ 52 ≤ m ∨ e ≤ -1074) (hv : x * 2 ^ e = v) :
    (∃ c : ℝ, 0 ≤ c ∧ value? z = some (signed s c : EReal) ∧
      (|c - v| ≤ roundoff * v ∨
        |c - v| ≤ leastDouble / 2 ∧ (acc = .exact → -1074 ≤ e → c = v))) ∨
      value? z = some (signedInfinity s) ∧ 2 ^ 1023 ≤ v := by
  obtain ⟨m', e', hcanonical, hround, herror⟩ := exists_roundWithAccuracy hx hlong s
  rw [hv] at herror
  rw [value?, hz, hround, unpack_pack hcanonical]
  by_cases hlarge : e' ≤ 971
  · left
    rw [if_pos hlarge]
    exact ⟨magnitude m' e', magnitude_nonneg, unpackedValue?_ofMagnitude, herror⟩
  · right
    rw [if_neg hlarge]
    refine ⟨by cases s <;> rfl, ?_⟩
    have hm' : (2 : ℝ) ^ 52 ≤ m' := by
      exact_mod_cast hcanonical.long_or_least.resolve_right (by omega)
    have hmagnitude : 2 * (2 : ℝ) ^ 1023 ≤ magnitude m' e' := by
      rw [magnitude_eq]
      calc 2 * (2 : ℝ) ^ 1023 = (2 : ℝ) ^ 52 * (2 : ℝ) ^ (972 : ℤ) := by
            rw [← zpow_natCast, ← zpow_natCast, ← zpow_add₀ two_ne_zero,
              ← zpow_one_add₀ two_ne_zero]
            norm_num
        _ ≤ m' * (2 : ℝ) ^ e' :=
          mul_le_mul hm' (zpow_le_zpow_right₀ one_le_two (by omega)) (by positivity)
            (Nat.cast_nonneg _)
    have hv' : 0 ≤ v := by
      rw [← hv]
      exact mul_nonneg ((Nat.cast_nonneg m).trans hx.bounds.1) (by positivity)
    have hone : (1 : ℝ) ≤ 2 ^ 1023 := one_le_pow₀ one_le_two
    generalize (2 : ℝ) ^ 1023 = large at hmagnitude hone ⊢
    have hroundoff : roundoff ≤ 1 := by norm_num [roundoff_eq]
    rcases herror with herror | ⟨herror, -⟩
    · linarith [(abs_le.mp herror).2, mul_le_of_le_one_left hv' hroundoff]
    · linarith [(abs_le.mp herror).2, leastDouble_le_roundoff]

end Values

end FrameKinematics.Binary64
