import Mathlib.Algebra.Polynomial.RingDivision
import FrameKinematics.Proofs.Interpolation.NewtonValues
import FrameKinematics.Proofs.Source.Runs
import FrameKinematics.Interpolation.Hermite

/-!
# Hermite interpolants

The interpolation of one coordinate gives the value and the derivatives of the polynomial of low
degree that meets the conditions. Scaling the abscissae around the point of evaluation is a change
of variable, and the chain rule undoes the powers of the scale. At different abscissae there is such
a polynomial for all conditions, so every interpolation goes through its samples.
-/

namespace FrameKinematics.Hermite

open Polynomial

/-- The value and the next derivatives of a polynomial at a point, `count` numbers in all. -/
noncomputable def derivatives (f : ℝ[X]) (count : ℕ) (a : ℝ) : List ℝ :=
  (List.range count).map fun i => (derivative^[i] f).eval a

/-- The value and the first two derivatives of a polynomial at a point. -/
noncomputable def jetAt (f : ℝ[X]) (x : ℝ) : Jet ℝ :=
  ⟨f.eval x, (derivative f).eval x, (derivative^[2] f).eval x⟩

section Scaling

variable (f : ℝ[X]) {scale : ℝ} (x : ℝ)

/-- A polynomial in the scaled abscissa around `x`. -/
noncomputable def scaled (scale : ℝ) : ℝ[X] := f.comp (C x + C scale * X)

/-- The scaled polynomial has the values of the polynomial at the scaled abscissae. -/
theorem eval_scaled (scale t : ℝ) : (scaled f x scale).eval t = f.eval (x + scale * t) := by
  rw [scaled, eval_comp, eval_add, eval_C, eval_mul, eval_C, eval_X]

/-- Each derivative in the scaled abscissa gets one more factor of the scale. -/
theorem iterate_derivative_scaled (scale : ℝ) (i : ℕ) :
    derivative^[i] (scaled f x scale) = C (scale ^ i) * scaled (derivative^[i] f) x scale := by
  induction i with
  | zero => rw [pow_zero, C_1, one_mul]; rfl
  | succ i ih =>
    have hinner : derivative (C x + C scale * X : ℝ[X]) = C scale := by
      rw [derivative_add, derivative_C, zero_add, derivative_C_mul, derivative_X, mul_one]
    rw [Function.iterate_succ_apply', ih, derivative_C_mul, scaled, derivative_comp, hinner,
      Function.iterate_succ_apply', scaled, pow_succ, C_mul]
    ring

/-- The change of variable does not raise the degree. -/
theorem degree_scaled_lt {n : ℕ} (hf : f.degree < n) (scale : ℝ) :
    (scaled f x scale).degree < n := by
  have hlinear : (C x + C scale * X : ℝ[X]).natDegree ≤ 1 := by
    rw [add_comm]
    exact natDegree_linear_le
  by_cases hzero : f = 0
  · rw [scaled, hzero, zero_comp, degree_zero]
    exact WithBot.bot_lt_coe n
  · rw [degree_eq_natDegree hzero, Nat.cast_lt] at hf
    have hcomp : (scaled f x scale).natDegree ≤ f.natDegree * 1 :=
      natDegree_comp_le.trans (Nat.mul_le_mul_left _ hlinear)
    refine lt_of_le_of_lt degree_le_natDegree ?_
    rw [Nat.cast_lt]
    omega

/-- The conditions of a polynomial are the conditions of the scaled polynomial at the scaled
abscissae. -/
theorem conditions_eq (hscale : scale ≠ 0) (xs : List ℝ) (count : ℕ) :
    conditions scale x xs (xs.map (derivatives f count)) =
      (xs.map fun a => (a - x) / scale).flatMap
        (Newton.conditionsAt (scaled f x scale) count) := by
  have hentry (a : ℝ) : ((derivatives f count a).zipIdx.map fun (value, i) =>
      ((a - x) / scale, value * Scalar.pow scale i)) =
        Newton.conditionsAt (scaled f x scale) count ((a - x) / scale) := by
    have hback : x + scale * ((a - x) / scale) = a := by
      rw [mul_div_cancel₀ _ hscale, add_sub_cancel]
    apply List.ext_getElem
    · simp [derivatives, Newton.conditionsAt]
    · intro i hi hi'
      have hpow : (Scalar.pow scale i : ℝ) = scale ^ i := rfl
      simp [derivatives, Newton.conditionsAt, iterate_derivative_scaled, eval_scaled, hback, hpow,
        mul_comm]
  induction xs with
  | nil => rfl
  | cons a xs ih =>
    rw [conditions] at ih
    rw [conditions, List.map_cons, List.zip_cons_cons, List.flatMap_cons, List.map_cons,
      List.flatMap_cons, ih]
    exact congrArg (· ++ _) (hentry a)

end Scaling

section Exactness

variable {f : ℝ[X]} {xs : List ℝ} {scale : ℝ}

/-- Repeating each abscissa multiplies their number. -/
theorem length_flatMap_replicate (ts : List ℝ) (n : ℕ) :
    (ts.flatMap (List.replicate n)).length = ts.length * n := by
  induction ts with
  | nil => rw [List.flatMap_nil, List.length_nil, Nat.zero_mul]
  | cons t ts ih =>
    rw [List.flatMap_cons, List.length_append, List.length_replicate, ih, List.length_cons,
      Nat.succ_mul, Nat.add_comm]

/-- A polynomial of degree less than the number of conditions is interpolated exactly, with its
first two derivatives. -/
theorem coordinate_eq {count : ℕ} (hcount : 0 < count) (hscale : scale ≠ 0) (hxs : xs ≠ [])
    (hdistinct : xs.Nodup) (hf : f.degree < (xs.length * count : ℕ)) (x : ℝ) :
    coordinate scale x xs (xs.map (derivatives f count)) = .ok (jetAt f x) := by
  obtain ⟨m, rfl⟩ : ∃ m, count = m + 1 := Nat.exists_eq_succ_of_ne_zero hcount.ne'
  have hinjective : Function.Injective fun a : ℝ => (a - x) / scale := by
    intro a b hab
    exact sub_left_injective ((div_left_inj' hscale).mp hab)
  obtain ⟨p, hp, hnodes, hcoefficients⟩ :=
    Newton.ofConditions_eq (scaled f x scale) (m := m) (hdistinct.map hinjective)
      (mt List.map_eq_nil_iff.mp hxs)
  have hform : Newton.form p.nodes p.coefficients = scaled f x scale := by
    rw [hcoefficients]
    apply Newton.form_remainders
    rw [hnodes, length_flatMap_replicate, List.length_map]
    exact degree_scaled_lt f x hf scale
  have hlength : p.coefficients.length = p.nodes.length := by
    rw [hcoefficients, Newton.length_remainders]
  have hfirst := iterate_derivative_scaled f x scale 1
  rw [Function.iterate_one] at hfirst
  have hpow (i : ℕ) : (Scalar.pow scale i : ℝ) = scale ^ i := rfl
  rw [coordinate, conditions_eq f x hscale]
  refine (bind_eq_of_ok hp).trans ?_
  rw [Newton.evaluate_eq 0.0 hlength, hform, hfirst, iterate_derivative_scaled f x scale 2,
    Scalar.zero_literal]
  refine congrArg Except.ok ?_
  simp [eval_scaled, hpow, hscale, jetAt]

end Exactness

section Existence

variable {f g : ℝ[X]} {a : ℝ} {count : ℕ}

/-- Polynomials that differ by a multiple of a power of `X - a` have the same first derivatives at
`a`. -/
theorem derivatives_congr (h : (X - C a) ^ count ∣ f - g) :
    derivatives f count a = derivatives g count a := by
  obtain ⟨q, hq⟩ := h
  apply List.map_congr_left
  intro i hi
  have hexpansion : taylor a f - taylor a g = X ^ count * taylor a q := by
    rw [← map_sub, hq, taylor_mul, taylor_pow, map_sub, taylor_X, taylor_C, add_sub_cancel_right]
  have hcoeff := congrArg (fun p => p.coeff i) hexpansion
  rw [coeff_sub, coeff_X_pow_mul', if_neg (not_le.mpr (List.mem_range.mp hi)), sub_eq_zero]
    at hcoeff
  rw [Newton.eval_iterate_derivative, Newton.eval_iterate_derivative, hcoeff]

/-- Some polynomial has given first derivatives at a point. -/
theorem exists_derivatives_eq (values : List ℝ) (a : ℝ) :
    ∃ f : ℝ[X], derivatives f values.length a = values := by
  let expansion : ℝ[X] :=
    ∑ i ∈ Finset.range values.length, C (values.getD i 0 / i.factorial) * X ^ i
  refine ⟨taylor (-a) expansion, ?_⟩
  have hback : taylor a (taylor (-a) expansion) = expansion := by
    rw [taylor_taylor, add_neg_cancel, taylor_zero]
  apply List.ext_getElem
  · rw [derivatives, List.length_map, List.length_range]
  · intro i hi hi'
    have hcoeff : expansion.coeff i = values[i] / i.factorial := by
      simp only [expansion, finsetSum_coeff, coeff_C_mul, coeff_X_pow]
      rw [Finset.sum_eq_single i]
      · simp [hi']
      · intro j _ hj
        rw [if_neg (Ne.symm hj), mul_zero]
      · intro hnot
        exact absurd (Finset.mem_range.mpr hi') hnot
    have hpositive : (i.factorial : ℝ) ≠ 0 := by exact_mod_cast Nat.factorial_ne_zero i
    simp only [derivatives, List.getElem_map, List.getElem_range]
    rw [Newton.eval_iterate_derivative, hback, hcoeff, Newton.factorial_eq,
      mul_div_cancel₀ _ hpositive]

/-- A polynomial can be changed at one point without being changed at others, as far as the first
derivatives go. -/
theorem exists_correction {s : Finset ℝ} (ha : a ∉ s) (count : ℕ) (target : ℝ[X]) :
    ∃ h : ℝ[X], h.degree < ((s.card + 1) * count : ℕ) ∧ (∀ b ∈ s, (X - C b) ^ count ∣ h) ∧
      (X - C a) ^ count ∣ h - target := by
  have hmonic (b : ℝ) : ((X - C b) ^ count).Monic := (monic_X_sub_C b).pow count
  have hdegree (b : ℝ) : ((X - C b) ^ count).natDegree = count := by
    rw [(monic_X_sub_C b).natDegree_pow, natDegree_X_sub_C, mul_one]
  let others : ℝ[X] := ∏ b ∈ s, (X - C b) ^ count
  have hothers : others.natDegree = s.card * count := by
    rw [natDegree_prod_of_monic _ _ fun b _ => hmonic b, Finset.sum_congr rfl fun b _ => hdegree b,
      Finset.sum_const, smul_eq_mul]
  obtain ⟨u, v, hcoprime⟩ : IsCoprime others ((X - C a) ^ count) := by
    apply IsCoprime.prod_left
    intro b hb
    have hne : b - a ≠ 0 := by
      rw [sub_ne_zero]
      rintro rfl
      exact ha hb
    exact (isCoprime_X_sub_C_of_isUnit_sub hne.isUnit).pow
  let rest : ℝ[X] := (u * target) %ₘ (X - C a) ^ count
  refine ⟨others * rest, ?_, ?_, ?_⟩
  · by_cases hzero : rest = 0
    · rw [hzero, mul_zero, degree_zero]
      exact WithBot.bot_lt_coe _
    · have hlow : rest.degree < count := by
        have hremainder := degree_modByMonic_lt (u * target) (hmonic a)
        rwa [degree_eq_natDegree (hmonic a).ne_zero, hdegree] at hremainder
      rw [degree_eq_natDegree hzero, Nat.cast_lt] at hlow
      have hproduct : (others * rest).natDegree ≤ others.natDegree + rest.natDegree :=
        natDegree_mul_le
      refine lt_of_le_of_lt degree_le_natDegree ?_
      rw [Nat.cast_lt, Nat.succ_mul]
      omega
  · intro b hb
    exact (Finset.dvd_prod_of_mem _ hb).mul_right rest
  · have hdivision := modByMonic_add_div (u * target) ((X - C a) ^ count)
    refine ⟨-(others * (u * target /ₘ (X - C a) ^ count) + v * target), ?_⟩
    linear_combination others * hdivision + target * hcoprime

/-- Conditions at different abscissae, equally many at each, are met by a polynomial whose degree is
less than their number. -/
theorem exists_interpolant {count : ℕ} (entries : List (ℝ × List ℝ))
    (hdistinct : (entries.map Prod.fst).Nodup) (hcount : ∀ e ∈ entries, e.2.length = count) :
    ∃ f : ℝ[X], f.degree < (entries.length * count : ℕ) ∧
      ∀ e ∈ entries, derivatives f count e.1 = e.2 := by
  induction entries with
  | nil =>
    refine ⟨0, ?_, fun e he => absurd he List.not_mem_nil⟩
    rw [degree_zero]
    exact WithBot.bot_lt_coe _
  | cons e es ih =>
    rw [List.map_cons, List.nodup_cons] at hdistinct
    obtain ⟨hnew, hrest⟩ := hdistinct
    obtain ⟨g, hg, hmeets⟩ := ih hrest fun e he => hcount e (List.mem_cons_of_mem _ he)
    obtain ⟨wanted, hwanted⟩ := exists_derivatives_eq e.2 e.1
    rw [hcount e List.mem_cons_self] at hwanted
    obtain ⟨h, hh, hkept, hchanged⟩ :=
      exists_correction (mt List.mem_toFinset.mp hnew) count (wanted - g)
    rw [List.toFinset_card_of_nodup hrest, List.length_map] at hh
    refine ⟨g + h, ?_, ?_⟩
    · have hsmaller : (es.length * count : ℕ) ≤ (es.length + 1) * count :=
        Nat.mul_le_mul_right _ (Nat.le_succ _)
      have hg' : g.degree < ((es.length + 1) * count : ℕ) :=
        lt_of_lt_of_le hg (by exact_mod_cast hsmaller)
      exact lt_of_le_of_lt (degree_add_le _ _) (max_lt hg' hh)
    · intro e' he'
      rcases List.mem_cons.mp he' with rfl | hearlier
      · rw [← hwanted]
        apply derivatives_congr
        have hdifference : g + h - wanted = h - (wanted - g) := by ring
        rwa [hdifference]
      · rw [← hmeets e' hearlier]
        apply derivatives_congr
        rw [add_sub_cancel_left]
        exact hkept e'.1 (List.mem_toFinset.mpr (List.mem_map_of_mem hearlier))

end Existence

section Vectors

/-- A list of different abscissae has none that occurs twice. -/
theorem repeats_eq_false {xs : List ℝ} (hdistinct : xs.Nodup) : repeats xs = false := by
  induction xs with
  | nil => rfl
  | cons x xs ih =>
    obtain ⟨hnew, hrest⟩ := List.nodup_cons.mp hdistinct
    have hoccurs : occurs x xs = false := by
      rw [occurs, List.any_eq_false]
      intro y hy
      have hne : x ≠ y := by
        rintro rfl
        exact hnew hy
      simp [hne]
    rw [repeats, hoccurs, ih hrest, Bool.or_false]

/-- Two abscissae or more that are all different pass their check. -/
theorem checkAbscissae_eq {xs : List ℝ} (hsize : 2 ≤ xs.length) (hdistinct : xs.Nodup) :
    (checkAbscissae xs : Except (Fault ℝ) Unit) = .ok () := by
  have hlong : ¬xs.length < minimumSize := not_lt.mpr hsize
  rw [checkAbscissae, if_neg hlong, repeats_eq_false hdistinct]
  rfl

/-- A warning does not stop a computation. -/
theorem warn_eq (count : ℕ) : (warn count : Except (Fault ℝ) Unit) = .ok () := by
  rw [warn]
  split_ifs <;> rfl

/-- The scale is never zero. -/
theorem scaleAround_ne_zero (xs : List ℝ) (x : ℝ) : scaleAround xs x ≠ 0 := by
  rw [scaleAround]
  split_ifs with hzero
  · rw [Scalar.one_literal]
    exact one_ne_zero
  · rw [Scalar.zero_literal] at hzero
    exact fun h => hzero (beq_iff_eq.mpr h)

/-- The first derivatives in a list are those of the jet. -/
theorem derivatives_eq_take {f : ℝ[X]} {order : ℕ} (horder : order ≤ 2) (x : ℝ) :
    derivatives f (order + 1) x =
      [(jetAt f x).value, (jetAt f x).first, (jetAt f x).second].take (order + 1) := by
  match order, horder with
  | 0, _ => rfl
  | 1, _ => rfl
  | 2, _ => rfl

/-- Samples at different abscissae, with equally many numbers each, are the values and derivatives of
a polynomial of low degree. -/
theorem exists_sampled {xs : List ℝ} {samples : List (List ℝ)} {count : ℕ} (hdistinct : xs.Nodup)
    (hlength : samples.length = xs.length) (hcounts : ∀ values ∈ samples, values.length = count) :
    ∃ f : ℝ[X], f.degree < (xs.length * count : ℕ) ∧ samples = xs.map (derivatives f count) := by
  have hfirst : (xs.zip samples).map Prod.fst = xs := List.map_fst_zip hlength.ge
  have hsecond : (xs.zip samples).map Prod.snd = samples := List.map_snd_zip hlength.le
  obtain ⟨f, hf, hmeets⟩ := exists_interpolant (xs.zip samples) (hfirst.symm ▸ hdistinct)
    fun e he => hcounts e.2 (List.of_mem_zip he).2
  rw [List.length_zip, hlength, min_self] at hf
  refine ⟨f, hf, ?_⟩
  conv_lhs => rw [← hsecond]
  conv_rhs => rw [← hfirst, List.map_map]
  exact List.map_congr_left fun e he => (hmeets e he).symm

/-- One coordinate of the interpolation at an abscissa of the sample has the values given there. -/
theorem coordinate_through {xs : List ℝ} {samples : List (List ℝ)} {order : ℕ} (horder : order ≤ 2)
    (hxs : xs ≠ []) (hdistinct : xs.Nodup) (hlength : samples.length = xs.length)
    (hsamples : ∀ values ∈ samples, values.length = order + 1) (x : ℝ) :
    ∃ jet : Jet ℝ, coordinate (scaleAround xs x) x xs samples = .ok jet ∧
      ∀ e ∈ xs.zip samples, e.1 = x →
        e.2 = [jet.value, jet.first, jet.second].take (order + 1) := by
  obtain ⟨f, hf, rfl⟩ := exists_sampled hdistinct hlength hsamples
  refine ⟨jetAt f x, coordinate_eq (Nat.succ_pos order) (scaleAround_ne_zero xs x) hxs hdistinct hf x,
    ?_⟩
  rintro e he rfl
  rw [List.zip, List.zipWith_map_right, List.zipWith_self] at he
  obtain ⟨a, -, rfl⟩ := List.mem_map.mp he
  exact derivatives_eq_take horder a

/-- The coordinates of vectors determine the vectors. -/
theorem eq_of_map_eq {us vs : List (Vec3 ℝ)} (hx : us.map Vec3.x = vs.map Vec3.x)
    (hy : us.map Vec3.y = vs.map Vec3.y) (hz : us.map Vec3.z = vs.map Vec3.z) : us = vs := by
  induction us generalizing vs with
  | nil =>
    rw [List.map_nil, eq_comm, List.map_eq_nil_iff] at hx
    exact hx.symm
  | cons u us ih =>
    cases vs with
    | nil => exact absurd hx (List.cons_ne_nil _ _)
    | cons v vs =>
      obtain ⟨hx, hxs⟩ := List.cons.inj hx
      obtain ⟨hy, hys⟩ := List.cons.inj hy
      obtain ⟨hz, hzs⟩ := List.cons.inj hz
      rw [Vec3.ext hx hy hz, ih hxs hys hzs]

/-- The interpolation of vectors at different abscissae does not fail, and at an abscissa of the
sample it has the value and the derivatives given there. -/
theorem vectors_through {xs : List ℝ} {samples : List (List (Vec3 ℝ))} {order : ℕ}
    (horder : order ≤ 2) (hsize : 2 ≤ xs.length) (hdistinct : xs.Nodup)
    (hlength : samples.length = xs.length)
    (hsamples : ∀ values ∈ samples, values.length = order + 1) (x : ℝ) :
    ∃ jet : Jet (Vec3 ℝ), (vectors order xs samples x : Except (Fault ℝ) _) = .ok jet ∧
      ∀ e ∈ xs.zip samples, e.1 = x →
        e.2 = [jet.value, jet.first, jet.second].take (order + 1) := by
  have hxs : xs ≠ [] := by
    rintro rfl
    exact absurd hsize (by decide)
  have hcolumn (g : Vec3 ℝ → ℝ) :
      ∃ jet : Jet ℝ, coordinate (scaleAround xs x) x xs (samples.map fun s => s.map g) = .ok jet ∧
        ∀ e ∈ xs.zip samples, e.1 = x →
          e.2.map g = [jet.value, jet.first, jet.second].take (order + 1) := by
    have hcounts : ∀ values ∈ samples.map fun s => s.map g, values.length = order + 1 := by
      intro values hvalues
      obtain ⟨s, hs, rfl⟩ := List.mem_map.mp hvalues
      rw [List.length_map, hsamples s hs]
    obtain ⟨jet, hjet, hthrough⟩ :=
      coordinate_through horder hxs hdistinct ((List.length_map _).trans hlength) hcounts x
    refine ⟨jet, hjet, fun e he hx => ?_⟩
    have hmapped : (e.1, e.2.map g) ∈ xs.zip (samples.map fun s => s.map g) := by
      rw [List.zip_map_right]
      exact List.mem_map_of_mem he
    exact hthrough _ hmapped hx
  obtain ⟨a, ha, hax⟩ := hcolumn Vec3.x
  obtain ⟨b, hb, hbx⟩ := hcolumn Vec3.y
  obtain ⟨c, hc, hcx⟩ := hcolumn Vec3.z
  refine ⟨⟨⟨a.value, b.value, c.value⟩, ⟨a.first, b.first, c.first⟩,
    ⟨a.second, b.second, c.second⟩⟩, ?_, fun e he hx => ?_⟩
  · refine (bind_eq_of_ok (ofExcept_of_ok (checkAbscissae_eq hsize hdistinct))).trans ?_
    refine (bind_eq_of_ok (warn_eq _)).trans ?_
    refine (bind_eq_of_ok (ofExcept_of_ok ha)).trans ?_
    refine (bind_eq_of_ok (ofExcept_of_ok hb)).trans ?_
    exact bind_eq_of_ok (ofExcept_of_ok hc)
  · apply eq_of_map_eq
    · rw [hax e he hx, List.map_take]
      rfl
    · rw [hbx e he hx, List.map_take]
      rfl
    · rw [hcx e he hx, List.map_take]
      rfl

end Vectors

end FrameKinematics.Hermite
