import FrameKinematics.Proofs.Scalar.DoubleArithmetic
import FrameKinematics.Proofs.Scalar.Real
import FrameKinematics.Rotation

/-!
# What a rotation stores of a quaternion of doubles

A rotation refuses the quaternion of zeros and divides every other one by its norm. The norm is the
root of a sum of squares of doubles. As long as that sum is neither zero nor infinite, the squares
of the quotients add up to one again as well as the sum was right, and it is right unless it is
close to the least double. Where all squares vanish the norm is zero, though the quaternion is not,
and the quaternion is stored as it is. Where the sum of the squares is too large the norm is
infinite, and zeros are stored.
-/

namespace FrameKinematics

open Binary64

section Squares

variable {n : ℕ} {x y : Float} {a v : ℝ}

/-- A double is the sum of `n` squares of doubles up to roundings: each square may be off by the
least double, and each operation by a relative error. A sum that is infinite has been large. -/
def IsSumOfSquares (n : ℕ) (x : Float) (v : ℝ) : Prop :=
  (∃ c, 0 ≤ c ∧ HasValue x c ∧ |c - v| ≤ n * (roundoff * (v + v) + leastDouble)) ∨
    IsInfinite x ∧ magnitude 1 1020 ≤ v

/-- The magnitude of two to the power of 1020. -/
theorem magnitude_one_top : magnitude 1 1020 = 2 ^ 1020 := by
  rw [magnitude_one, zpow_ofNat]

/-- One square is a sum of one square, but for the rounding of one product. -/
theorem isSumOfSquares_one (hx : HasValue x a) : IsSumOfSquares 1 (x * x) (a ^ 2) := by
  rcases value?_square hx with ⟨c, hc, hvalue, herror⟩ | ⟨hinfinite, hlarge⟩
  · refine .inl ⟨c, hc, hvalue, herror.trans ?_⟩
    have hrelative : 0 ≤ roundoff * a ^ 2 := mul_nonneg (by norm_num [roundoff_eq]) (sq_nonneg a)
    have hleast := leastDouble_pos
    rw [Nat.cast_one]
    linarith
  · refine .inr ⟨hinfinite, ?_⟩
    rw [magnitude_one_top]
    exact (pow_le_pow_right₀ one_le_two (by norm_num)).trans hlarge

/-- One square more. -/
theorem IsSumOfSquares.add_square (hx : IsSumOfSquares n x v) (hv : 0 ≤ v) (hone : 1 ≤ n)
    (hthree : n ≤ 3) (hy : HasValue y a) : IsSumOfSquares (n + 1) (x + y * y) (v + a ^ 2) := by
  have hlarge : (2 : ℝ) ^ 1020 ≤ 2 ^ 1023 := pow_le_pow_right₀ one_le_two (by norm_num)
  rw [IsSumOfSquares, magnitude_one_top] at hx ⊢
  have hsquare := sq_nonneg a
  rcases hx with ⟨c, hc, hvalue, herror⟩ | ⟨hinfinite, hover⟩
  · rcases value?_square hy with ⟨c', hc', hvalue', herror'⟩ | ⟨hinfinite', hover'⟩
    · have hone' : (1 : ℝ) ≤ n := by exact_mod_cast hone
      have hthree' : (n : ℝ) ≤ 3 := by exact_mod_cast hthree
      have hleast := leastDouble_pos
      have hnv : n * v ≤ 3 * v := mul_le_mul_of_nonneg_right hthree' hv
      have hnleast : n * leastDouble ≤ 3 * leastDouble :=
        mul_le_mul_of_nonneg_right hthree' hleast.le
      have hna : 1 * a ^ 2 ≤ n * a ^ 2 := mul_le_mul_of_nonneg_right hone' hsquare
      rw [roundoff_eq] at herror herror'
      obtain ⟨hlow, hhigh⟩ := abs_le.mp herror
      obtain ⟨hlow', hhigh'⟩ := abs_le.mp herror'
      rcases value?_add hvalue hvalue' hc hc' with ⟨d, hd, hsum, hround⟩ | ⟨hinfinite, hover⟩
      · refine .inl ⟨d, hd, hsum, ?_⟩
        rw [roundoff_eq] at hround ⊢
        obtain ⟨hlow'', hhigh''⟩ := abs_le.mp hround
        push_cast
        exact abs_le.mpr ⟨by linarith, by linarith⟩
      · -- The terms are finite and near the real ones, so the real sum is large as well.
        refine .inr ⟨hinfinite, ?_⟩
        have hsmall : leastDouble ≤ 1 := leastDouble_le_roundoff.trans (by norm_num [roundoff_eq])
        have hbound : c + c' ≤ 2 * (v + a ^ 2) + 4 := by
          linarith only [hhigh, hhigh', hnv, hnleast, hsmall, hv, hsquare]
        have hsplit : (2 : ℝ) ^ 1023 = 2 ^ 1020 * 8 := by
          rw [← (by norm_num : (2 : ℝ) ^ 3 = 8), ← pow_add]
        have hpower : (1 : ℝ) ≤ 2 ^ 1020 := one_le_pow₀ one_le_two
        rw [hsplit] at hover
        generalize (2 : ℝ) ^ 1020 = p at hover hpower ⊢
        linarith only [hover, hpower, hbound]
    · exact .inr ⟨isInfinite_add_right hvalue hinfinite',
        hlarge.trans (hover'.trans (le_add_of_nonneg_left hv))⟩
  · have hfinite : IsInfinite (y * y) ∨ ∃ b, HasValue (y * y) b := by
      rcases value?_square hy with ⟨c, -, hvalue, -⟩ | ⟨hinfinite', -⟩
      · exact .inr ⟨c, hvalue⟩
      · exact .inl hinfinite'
    exact .inr ⟨isInfinite_add_left hinfinite hfinite, hover.trans (le_add_of_nonneg_right hsquare)⟩

/-- No double above zero is below the least one. -/
theorem hasValue_zero_of_le (hx : HasValue x a) (ha : 0 ≤ a) (hsmall : a ≤ leastDouble / 2) :
    HasValue x 0 := by
  rcases ha.eq_or_lt with rfl | hpos
  · exact hx
  · have hless := hsmall.trans_lt (half_lt_self leastDouble_pos)
    exact absurd (leastDouble_le hx hpos) (not_le.mpr hless)

/-- The square of zero is zero. -/
theorem hasValue_square_zero (hx : HasValue x 0) : HasValue (x * x) 0 := by
  rcases value?_square hx with ⟨c, hc, hvalue, herror⟩ | ⟨-, hlarge⟩
  · refine hasValue_zero_of_le hvalue hc ((le_abs_self c).trans ?_)
    simpa using herror
  · exact absurd hlarge (by norm_num)

/-- Zero and zero add up to zero. -/
theorem hasValue_add_zero (hx : HasValue x 0) (hy : HasValue y 0) : HasValue (x + y) 0 := by
  rcases value?_add hx hy le_rfl le_rfl with ⟨c, -, hvalue, herror⟩ | ⟨-, hlarge⟩
  · have hzero : c = 0 := by simpa using herror
    exact hzero ▸ hvalue
  · exact absurd hlarge (by norm_num)

end Squares

section Quotient

variable {x y : Float} {a n s : ℝ}

/-- The square of a rounded root is off by twice the relative error of the root, and a little
more. -/
theorem abs_div_sq_sub_one_le (hs : 0 < s) (hroot : |n - √s| ≤ roundoff * √s) :
    0 < n ∧ |s / n ^ 2 - 1| ≤ 3 * roundoff := by
  have hpos : 0 < √s := Real.sqrt_pos.mpr hs
  have hsquare : √s ^ 2 = s := Real.sq_sqrt hs.le
  rw [roundoff_eq] at hroot ⊢
  obtain ⟨hlow, hhigh⟩ := abs_le.mp hroot
  have hn : 0 < n := by linarith
  have hlow' : ((1 - 1 / 9007199254740992) * √s) ^ 2 ≤ n ^ 2 :=
    pow_le_pow_left₀ (by linarith) (by linarith) 2
  have hhigh' : n ^ 2 ≤ ((1 + 1 / 9007199254740992) * √s) ^ 2 :=
    pow_le_pow_left₀ hn.le (by linarith) 2
  rw [mul_pow, hsquare] at hlow' hhigh'
  have hnsq : 0 < n ^ 2 := by positivity
  rw [abs_le, le_sub_iff_add_le, sub_le_iff_le_add, le_div_iff₀ hnsq, div_le_iff₀ hnsq]
  exact ⟨hn, by linarith, by linarith⟩

/-- Dividing by a root that was rounded. The square of the quotient is near the quotient of the
squares. -/
theorem exists_quotient (hx : HasValue x a) (hy : HasValue y n) (hs : 0 < s)
    (hroot : |n - √s| ≤ roundoff * √s) (hbound : a ^ 2 ≤ 6 * s) :
    ∃ c, HasValue (x / y) c ∧ |c ^ 2 - a ^ 2 / s| ≤ 46 * roundoff := by
  obtain ⟨hn, hratio⟩ := abs_div_sq_sub_one_le hs hroot
  have hshare : a ^ 2 / s ≤ 6 := (div_le_iff₀ hs).mpr hbound
  have hshare' : 0 ≤ a ^ 2 / s := by positivity
  have hsplit : (a / n) ^ 2 = a ^ 2 / s * (s / n ^ 2) := by
    field_simp
  have hexact : |(a / n) ^ 2 - a ^ 2 / s| ≤ 18 * roundoff := by
    calc |(a / n) ^ 2 - a ^ 2 / s| = a ^ 2 / s * |s / n ^ 2 - 1| := by
          rw [hsplit, ← mul_sub_one, abs_mul, abs_of_nonneg hshare']
      _ ≤ 6 * (3 * roundoff) := mul_le_mul hshare hratio (abs_nonneg _) (by norm_num)
      _ = 18 * roundoff := by ring
  have hquotient : |a / n| ≤ 3 := by
    refine abs_le_of_sq_le_sq ?_ (by norm_num)
    rw [roundoff_eq] at hexact
    linarith [(abs_le.mp hexact).2]
  have hfinite : |a / n| < 2 ^ 1023 :=
    hquotient.trans_lt (lt_of_lt_of_le (by norm_num : (3 : ℝ) < 2 ^ 2)
      (pow_le_pow_right₀ one_le_two (by norm_num)))
  obtain ⟨c, hc, herror⟩ := value?_div hx hy hn hfinite
  refine ⟨c, hc, ?_⟩
  have herror' : |c - a / n| ≤ 4 * roundoff := by
    have hleast := leastDouble_le_roundoff
    rw [roundoff_eq] at herror hleast ⊢
    linarith
  have hsum : |c + a / n| ≤ 7 := by
    rw [roundoff_eq] at herror'
    rw [abs_le] at herror' hquotient ⊢
    constructor <;> linarith
  have hrounded : |c ^ 2 - (a / n) ^ 2| ≤ 28 * roundoff := by
    calc |c ^ 2 - (a / n) ^ 2| = |c + a / n| * |c - a / n| := by rw [← abs_mul, sq_sub_sq]
      _ ≤ 7 * (4 * roundoff) := mul_le_mul hsum herror' (abs_nonneg _) (by norm_num)
      _ = 28 * roundoff := by ring
  calc |c ^ 2 - a ^ 2 / s| ≤ |c ^ 2 - (a / n) ^ 2| + |(a / n) ^ 2 - a ^ 2 / s| :=
        abs_sub_le _ _ _
    _ ≤ 46 * roundoff := by linarith

end Quotient

namespace Quaternion

/-- The components of a quaternion of doubles have real numbers as their values. -/
structure HasValues (q : Quaternion Float) (v : Quaternion ℝ) : Prop where
  w : HasValue q.w v.w
  x : HasValue q.x v.x
  y : HasValue q.y v.y
  z : HasValue q.z v.z

variable {q : Quaternion Float} {v : Quaternion ℝ} {s : ℝ}

/-- The square of the norm as a sum of squares. -/
theorem normSq_eq_sq (v : Quaternion ℝ) : v.normSq = v.w ^ 2 + v.x ^ 2 + v.y ^ 2 + v.z ^ 2 := by
  simp only [normSq, pow_two]

/-- The sum of squares that doubles give is near the real one, or infinite. -/
theorem HasValues.normSq_cases (h : q.HasValues v) :
    (∃ s, 0 ≤ s ∧ HasValue q.normSq s ∧
      |s - v.normSq| ≤ 8 * roundoff * v.normSq + 4 * leastDouble) ∨
      IsInfinite q.normSq ∧ 2 ^ 1020 ≤ v.normSq := by
  have hone := isSumOfSquares_one h.w
  have htwo := hone.add_square (by positivity) le_rfl (by norm_num) h.x
  have hthree := htwo.add_square (by positivity) (by norm_num) (by norm_num) h.y
  have hfour : IsSumOfSquares 4 q.normSq _ :=
    hthree.add_square (by positivity) (by norm_num) le_rfl h.z
  rw [← normSq_eq_sq, IsSumOfSquares, magnitude_one_top] at hfour
  rcases hfour with ⟨s, hs, hsum, herror⟩ | hinfinite
  · refine .inl ⟨s, hs, hsum, herror.trans_eq ?_⟩
    push_cast
    ring
  · exact .inr hinfinite

/-- The squares of zeros add up to zero. -/
theorem HasValues.normSq_zero (h : q.HasValues ⟨0, 0, 0, 0⟩) : HasValue q.normSq 0 :=
  hasValue_add_zero
    (hasValue_add_zero
      (hasValue_add_zero (hasValue_square_zero h.w) (hasValue_square_zero h.x))
      (hasValue_square_zero h.y))
    (hasValue_square_zero h.z)

/-- A quaternion of doubles is found to be zero exactly if it is. -/
theorem HasValues.isZero_iff (h : q.HasValues v) : q.isZero = true ↔ v.normSq = 0 := by
  have hcomponent {x : Float} {a : ℝ} (hx : HasValue x a) : (x == 0.0) = true ↔ a = 0 :=
    beq_zero_iff.trans ⟨hx.unique, fun ha => ha ▸ hx⟩
  have hw := sq_nonneg v.w
  have hx := sq_nonneg v.x
  have hy := sq_nonneg v.y
  have hz := sq_nonneg v.z
  rw [isZero, Bool.and_eq_true, Bool.and_eq_true, Bool.and_eq_true, hcomponent h.w,
    hcomponent h.x, hcomponent h.y, hcomponent h.z, normSq_eq_sq]
  constructor
  · rintro ⟨⟨⟨hw, hx⟩, hy⟩, hz⟩
    rw [hw, hx, hy, hz]
    norm_num
  · intro hsum
    refine ⟨⟨⟨?_, ?_⟩, ?_⟩, ?_⟩ <;> refine pow_eq_zero_iff two_ne_zero |>.mp ?_ <;> linarith

/-- A quaternion whose squares all vanish is left as it is. -/
theorem normalize_of_vanishing (hsum : HasValue q.normSq 0) : q.normalize = q :=
  if_pos (beq_zero_iff.mpr (hasValue_sqrt_zero hsum))

/-- A quaternion whose norm is not zero is divided by it. -/
theorem normalize_eq_div {n : Float} (hn : Float.sqrt q.normSq = n) (hzero : ¬HasValue n 0) :
    q.normalize = ⟨q.w / n, q.x / n, q.y / n, q.z / n⟩ := by
  subst hn
  exact if_neg (mt beq_zero_iff.mp hzero)

/-- A quaternion with an infinite norm is turned into zeros. -/
theorem HasValues.normalize_of_isInfinite (h : q.HasValues v) (hsum : IsInfinite q.normSq) :
    q.normalize.HasValues ⟨0, 0, 0, 0⟩ := by
  have hroot := isInfinite_sqrt hsum
  rw [normalize_eq_div rfl hroot.not_hasValue]
  exact ⟨hasValue_div_infinite h.w hroot, hasValue_div_infinite h.x hroot,
    hasValue_div_infinite h.y hroot, hasValue_div_infinite h.z hroot⟩

/-- A finite sum of the squares of doubles is near the real one. -/
theorem HasValues.abs_normSq_sub_le (h : q.HasValues v) (hsum : HasValue q.normSq s) :
    |s - v.normSq| ≤ 8 * roundoff * v.normSq + 4 * leastDouble := by
  rcases h.normSq_cases with ⟨c, -, hc, herror⟩ | ⟨hinfinite, -⟩
  · rwa [hsum.unique hc]
  · exact absurd hsum hinfinite.not_hasValue

/-- The squares of the quotients add up to the share of the real sum of squares in the one that
doubles gave. -/
theorem HasValues.normSq_normalize (h : q.HasValues v) (hs : 0 < s) (hsum : HasValue q.normSq s) :
    ∃ t, HasValue q.normalize.normSq t ∧ |t - v.normSq / s| ≤ 2 ^ (-45 : ℤ) := by
  obtain ⟨n, hn, hroot⟩ := value?_sqrt hsum hs
  have hnorm : ¬HasValue (Float.sqrt q.normSq) 0 := by
    intro hzero
    have hpos := Real.sqrt_pos.mpr hs
    rw [hn.unique hzero, zero_sub, abs_neg, abs_of_pos hpos, roundoff_eq] at hroot
    linarith
  have hbound : v.normSq ≤ 6 * s := by
    have hleast := leastDouble_le hsum hs
    have herror := h.abs_normSq_sub_le hsum
    rw [roundoff_eq] at herror
    linarith [(abs_le.mp herror).1]
  have hparts := normSq_eq_sq v
  have hw := sq_nonneg v.w
  have hx := sq_nonneg v.x
  have hy := sq_nonneg v.y
  have hz := sq_nonneg v.z
  obtain ⟨w, hw, hw'⟩ := exists_quotient h.w hn hs hroot (by linarith)
  obtain ⟨x, hx, hx'⟩ := exists_quotient h.x hn hs hroot (by linarith)
  obtain ⟨y, hy, hy'⟩ := exists_quotient h.y hn hs hroot (by linarith)
  obtain ⟨z, hz, hz'⟩ := exists_quotient h.z hn hs hroot (by linarith)
  have hstored : q.normalize.HasValues ⟨w, x, y, z⟩ := by
    rw [normalize_eq_div rfl hnorm]
    exact ⟨hw, hx, hy, hz⟩
  have hshare : v.normSq / s = v.w ^ 2 / s + v.x ^ 2 / s + v.y ^ 2 / s + v.z ^ 2 / s := by
    rw [normSq_eq_sq, add_div, add_div, add_div]
  have hquotients : |(⟨w, x, y, z⟩ : Quaternion ℝ).normSq - v.normSq / s| ≤ 184 * roundoff := by
    rw [normSq_eq_sq, hshare]
    rw [abs_le] at hw' hx' hy' hz' ⊢
    constructor <;> linarith
  have hseven : (⟨w, x, y, z⟩ : Quaternion ℝ).normSq ≤ 7 := by
    have hsix : v.normSq / s ≤ 6 := (div_le_iff₀ hs).mpr hbound
    rw [roundoff_eq] at hquotients
    linarith [(abs_le.mp hquotients).2]
  rcases hstored.normSq_cases with ⟨t, -, ht, herror⟩ | ⟨-, hlarge⟩
  · refine ⟨t, ht, ?_⟩
    have hleast := leastDouble_le_roundoff
    have hnumeral : (2 : ℝ) ^ (-45 : ℤ) = 256 * roundoff := by norm_num [roundoff_eq]
    rw [hnumeral]
    rw [roundoff_eq] at hquotients herror hleast ⊢
    have hsplit := abs_sub_le t (⟨w, x, y, z⟩ : Quaternion ℝ).normSq (v.normSq / s)
    linarith
  · exact absurd hlarge (not_le.mpr (hseven.trans_lt (lt_of_lt_of_le
      (by norm_num : (7 : ℝ) < 2 ^ 3) (pow_le_pow_right₀ one_le_two (by norm_num)))))

/-- The squares of a quaternion vanish only if their real sum is a few times the least double. -/
theorem HasValues.normSq_le_of_vanishing (h : q.HasValues v) (hsum : HasValue q.normSq 0) :
    v.normSq ≤ 2 ^ (-1071 : ℤ) := by
  have hnumeral : (2 : ℝ) ^ (-1071 : ℤ) = 8 * leastDouble := by
    rw [leastDouble_eq, ← (by norm_num : (2 : ℝ) ^ (3 : ℤ) = 8), ← zpow_add₀ two_ne_zero]
    norm_num
  have hleast := leastDouble_pos
  have herror := h.abs_normSq_sub_le hsum
  rw [roundoff_eq] at herror
  rw [hnumeral]
  linarith [(abs_le.mp herror).1]

/-- The three ways in which a quaternion is normalised: by its norm, by a norm that vanishes, or by
one that is infinite. -/
theorem HasValues.normalize_cases (h : q.HasValues v) :
    (HasValue q.normSq 0 ∧ v.normSq ≤ 2 ^ (-1071 : ℤ) ∧ q.normalize = q) ∨
      (IsInfinite q.normSq ∧ 2 ^ 1020 ≤ v.normSq ∧ q.normalize.HasValues ⟨0, 0, 0, 0⟩) ∨
      ∃ s t, 0 < s ∧ HasValue q.normSq s ∧ HasValue q.normalize.normSq t ∧
        |t - v.normSq / s| ≤ 2 ^ (-45 : ℤ) := by
  rcases h.normSq_cases with ⟨s, hs, hsum, -⟩ | ⟨hinfinite, hlarge⟩
  · rcases hs.eq_or_lt with rfl | hpos
    · exact .inl ⟨hsum, h.normSq_le_of_vanishing hsum, normalize_of_vanishing hsum⟩
    · obtain ⟨t, ht, herror⟩ := h.normSq_normalize hpos hsum
      exact .inr (.inr ⟨s, t, hpos, hsum, ht, herror⟩)
  · exact .inr (.inl ⟨hinfinite, hlarge, h.normalize_of_isInfinite hinfinite⟩)

/-- A quaternion is normalised well if the real sum of its squares is neither small nor large. -/
theorem HasValues.normalize_near_one (h : q.HasValues v) (hlow : 2 ^ (-1065 : ℤ) ≤ v.normSq)
    (hhigh : v.normSq < 2 ^ 1020) :
    ∃ t, HasValue q.normalize.normSq t ∧ 0.99 ≤ t ∧ t ≤ 1.01 := by
  have hnumeral : (2 : ℝ) ^ (-1065 : ℤ) = 512 * leastDouble := by
    rw [leastDouble_eq, ← (by norm_num : (2 : ℝ) ^ (9 : ℤ) = 512), ← zpow_add₀ two_ne_zero]
    norm_num
  rw [hnumeral] at hlow
  rcases h.normSq_cases with ⟨s, -, hsum, herror⟩ | ⟨-, hlarge⟩
  · have hleast := leastDouble_pos
    rw [roundoff_eq] at herror
    obtain ⟨hbelow, habove⟩ := abs_le.mp herror
    have hs : 0 < s := by linarith
    obtain ⟨t, ht, hnear⟩ := h.normSq_normalize hs hsum
    have hratio : 0.991 ≤ v.normSq / s ∧ v.normSq / s ≤ 1.009 := by
      rw [le_div_iff₀ hs, div_le_iff₀ hs]
      constructor <;> linarith
    have hsmall : (2 : ℝ) ^ (-45 : ℤ) ≤ 0.001 := by norm_num
    obtain ⟨hbelow', habove'⟩ := abs_le.mp hnear
    exact ⟨t, ht, by linarith [hratio.1], by linarith [hratio.2]⟩
  · exact absurd hhigh (not_lt.mpr hlarge)

end Quaternion

namespace Rotation

variable {q : Quaternion Float} {v : Quaternion ℝ}

/-- What a rotation stores of a quaternion. It refuses zero and accepts every other quaternion of
finite components. The stored quaternion has a norm near one if the sum of the squares of the
components is neither too small nor too large for a double. But the sum may vanish in doubles, and
then the quaternion is stored as it is; and it may be infinite, and then zeros are stored. -/
theorem normalized_stores (h : q.HasValues v) :
    (v.normSq = 0 → normalized q = .error .zeroQuaternion) ∧
    (v.normSq ≠ 0 → ∃ r, normalized q = .ok r ∧
      ((HasValue q.normSq 0 ∧ v.normSq ≤ 2 ^ (-1071 : ℤ) ∧ r.quaternion = q) ∨
        (IsInfinite q.normSq ∧ 2 ^ 1020 ≤ v.normSq ∧ r.quaternion.HasValues ⟨0, 0, 0, 0⟩ ∧
          HasValue r.quaternion.normSq 0) ∨
        ∃ s t, 0 < s ∧ HasValue q.normSq s ∧ HasValue r.quaternion.normSq t ∧
          |t - v.normSq / s| ≤ 2 ^ (-45 : ℤ)) ∧
      (2 ^ (-1065 : ℤ) ≤ v.normSq → v.normSq < 2 ^ 1020 →
        ∃ t, HasValue r.quaternion.normSq t ∧ 0.99 ≤ t ∧ t ≤ 1.01)) := by
  constructor
  · intro hzero
    exact if_pos (h.isZero_iff.mpr hzero)
  · intro hzero
    refine ⟨⟨q.normalize⟩, if_neg (mt h.isZero_iff.mp hzero), ?_, h.normalize_near_one⟩
    rcases h.normalize_cases with hvanishing | ⟨hinfinite, hlarge, hzeros⟩ | hnear
    · exact .inl hvanishing
    · exact .inr (.inl ⟨hinfinite, hlarge, hzeros, hzeros.normSq_zero⟩)
    · exact .inr (.inr hnear)

/-- A quaternion of moderate length is stored with a norm near one. -/
theorem moderate_stored : (⟨3.0, 0.0, 4.0, 0.0⟩ : Quaternion Float).HasValues ⟨3, 0, 4, 0⟩ ∧
    ∃ r, normalized (⟨3.0, 0.0, 4.0, 0.0⟩ : Quaternion Float) = .ok r ∧
      ∃ t, HasValue r.quaternion.normSq t ∧ 0.99 ≤ t ∧ t ≤ 1.01 := by
  have hthree : (3.0 : Float).toModel.unpack =
      .finite .positive (3 * 2 ^ 51) (-51) (by norm_num) := rfl
  have hfour : (4.0 : Float).toModel.unpack = .finite .positive (2 ^ 52) (-50) (by norm_num) := rfl
  have hvalues : (⟨3.0, 0.0, 4.0, 0.0⟩ : Quaternion Float).HasValues ⟨3, 0, 4, 0⟩ := by
    refine ⟨?_, value?_zero, ?_, value?_zero⟩
    · rw [HasValue, value?, hthree]
      norm_num [unpackedValue?, magnitude]
    · rw [HasValue, value?, hfour]
      norm_num [unpackedValue?, magnitude]
  have hsum : (⟨3, 0, 4, 0⟩ : Quaternion ℝ).normSq = 25 := by norm_num [Quaternion.normSq]
  obtain ⟨r, hr, -, hnear⟩ := (normalized_stores hvalues).2 (by norm_num [hsum])
  refine ⟨hvalues, r, hr, hnear ?_ ?_⟩
  · rw [hsum]
    exact (zpow_le_one_of_nonpos₀ one_le_two (by norm_num)).trans (by norm_num)
  · rw [hsum]
    exact lt_of_lt_of_le (by norm_num : (25 : ℝ) < 2 ^ 5)
      (pow_le_pow_right₀ one_le_two (by norm_num))

/-- The squares of a quaternion that is not zero may vanish, and its norm is not near one then. -/
theorem tiny_unscaled : ∃ r, normalized (⟨1e-200, 0.0, 0.0, 0.0⟩ : Quaternion Float) = .ok r ∧
    r.quaternion.normSq < 0.99 := by
  refine ⟨⟨(⟨1e-200, 0.0, 0.0, 0.0⟩ : Quaternion Float).normalize⟩, if_neg ?_, ?_⟩
  · decide +kernel
  · decide +kernel

end Rotation

end FrameKinematics
