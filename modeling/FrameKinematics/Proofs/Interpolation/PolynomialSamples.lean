import FrameKinematics.Proofs.Interpolation.HermiteInterpolant
import FrameKinematics.Proofs.Interpolation.Purity
import FrameKinematics.Proofs.Document.Blocks
import FrameKinematics.Proofs.Source.GridRequests
import FrameKinematics.Interpolation.Samples

/-!
# Interpolation of samples of polynomials

Samples of any dimension come as nested lists. They are taken apart into the columns of the
coordinates, and each coordinate is interpolated by itself. When every coordinate is a polynomial of
degree less than the number of conditions, the interpolation gives its value and its first two
derivatives exactly.
-/

namespace FrameKinematics

namespace Hermite

open Polynomial

/-- What is interpolated depends on the lists of numbers alone. -/
theorem interpolate_computes {K : Type} [Scalar K] (abscissae samples point : Document K) :
    (interpolate abscissae samples point : Run K _).Computes
      (interpolate abscissae samples point) := by
  refine (Run.computes_ofExcept _).bind fun xs => ?_
  refine (Run.computes_ofExcept _).bind fun samples => ?_
  split
  · refine (warn_computes _).bind fun _ => ?_
    refine (Run.computes_ofExcept _).bind fun ts => ?_
    split
    · exact Run.computes_throw _
    · refine (Run.computes_ofExcept _).bind fun layers => ?_
      split
      · exact (Run.computes_throw _).bind fun _ => (Run.computes_ofExcept _).bind fun results =>
          Run.computes_pure _
      · exact (Run.computes_ofExcept _).bind fun results => Run.computes_pure _
  · exact Run.computes_throw _

section Columns

variable (fs : List ℝ[X]) (count : ℕ)

/-- The derivatives of one order of a vector of polynomials. -/
noncomputable def derivativeAt (order : ℕ) (a : ℝ) : List ℝ :=
  fs.map fun f => (derivative^[order] f).eval a

/-- The sample of a vector of polynomials at an abscissa: the vector of the values, then the vectors
of the derivatives, `count` vectors in all. -/
noncomputable def sampleAt (a : ℝ) : List (List ℝ) :=
  (List.range count).map fun order => derivativeAt fs order a

/-- A derivative has one coordinate for each polynomial. -/
theorem length_derivativeAt (order : ℕ) (a : ℝ) : (derivativeAt fs order a).length = fs.length :=
  List.length_map _

/-- A sample has as many vectors as were asked for. -/
theorem length_sampleAt (a : ℝ) : (sampleAt fs count a).length = count := by
  rw [sampleAt, List.length_map, List.length_range]

/-- All vectors of a sample have one coordinate for each polynomial. -/
theorem length_of_mem_sampleAt {a : ℝ} {values : List ℝ} (h : values ∈ sampleAt fs count a) :
    values.length = fs.length := by
  obtain ⟨order, -, rfl⟩ := List.mem_map.mp h
  exact length_derivativeAt fs order a

variable {fs count} {xs : List ℝ}

/-- Of each sample the vector of one order of derivation is taken. -/
theorem filterMap_layer?_sampleAt {order : ℕ} (horder : order < count) :
    ((⟨[xs.length, count, fs.length], (xs.map (sampleAt fs count)).flatten.flatten⟩ :
      Block ℝ).layers.filterMap fun sample => sample.layer? order) =
        xs.map fun a => ⟨[fs.length], derivativeAt fs order a⟩ := by
  have hitems : ∀ item ∈ (xs.map (sampleAt fs count)).map List.flatten,
      item.length = Block.volume [count, fs.length] := by
    intro item hitem
    obtain ⟨sample, hsample, rfl⟩ := List.mem_map.mp hitem
    obtain ⟨a, -, rfl⟩ := List.mem_map.mp hsample
    rw [length_flatten_of_length_eq fun values h => length_of_mem_sampleAt fs count h,
      length_sampleAt, Block.volume_cons, Block.volume_single]
  have hlayers := Block.layers_eq hitems
  rw [List.length_map, List.length_map, ← List.flatten_flatten, List.map_map, List.map_map]
    at hlayers
  rw [hlayers, List.filterMap_map]
  apply List.filterMap_eq_map_iff_forall_eq_some.mpr
  intro a _
  have hwide : ∀ values ∈ sampleAt fs count a, values.length = Block.volume [fs.length] :=
    fun values h => (length_of_mem_sampleAt fs count h).trans (Block.volume_single _).symm
  have hinside : order < (sampleAt fs count a).length := by rwa [length_sampleAt]
  have hvalue : (sampleAt fs count a)[order] = derivativeAt fs order a := by
    simp only [sampleAt, List.getElem_map, List.getElem_range]
  have hentry := Block.layer?_eq hwide hinside
  rwa [hvalue, length_sampleAt] at hentry

/-- The layer of one order of derivation has a row for each abscissa. -/
theorem layer_sampleAt {order : ℕ} (horder : order < count) :
    layer xs.length fs.length
        ⟨[xs.length, count, fs.length], (xs.map (sampleAt fs count)).flatten.flatten⟩ order =
      (.ok (xs.map (derivativeAt fs order)) : Except (Fault ℝ) (List (List ℝ))) := by
  have hwidth : ∀ row ∈ xs.map (derivativeAt fs order), row.length = fs.length := by
    intro row hrow
    obtain ⟨a, -, rfl⟩ := List.mem_map.mp hrow
    exact length_derivativeAt fs order a
  have hcut := Block.cut_spread hwidth
  have hentries : (xs.map fun a => (⟨[fs.length], derivativeAt fs order a⟩ : Block ℝ)).flatMap
      Block.entries = (xs.map (derivativeAt fs order)).flatten := by
    rw [List.flatMap_map, List.flatMap_def]
  have hfits : ¬Block.commonShape? [xs.length, fs.length] [xs.length, fs.length] ≠
      some [xs.length, fs.length] := not_not.mpr (Block.commonShape?_self _)
  rw [List.length_map] at hcut
  rw [layer, filterMap_layer?_sampleAt horder, hentries]
  exact (if_neg hfits).trans (congrArg Except.ok hcut)

/-- The columns of the coordinates hold the derivatives of the polynomials one by one. -/
theorem columns_eq :
    ((List.range fs.length).map fun j => (List.range xs.length).map fun i =>
      ((List.range count).map fun order => xs.map (derivativeAt fs order)).filterMap fun rows =>
        (rows.getD i [])[j]?) = fs.map fun f => xs.map (derivatives f count) := by
  apply map_range_eq_map
  intro j hj
  apply map_range_eq_map
  intro i hi
  rw [List.filterMap_map]
  apply List.filterMap_eq_map_iff_forall_eq_some.mpr
  intro order _
  simp [hi, hj, derivativeAt]

end Columns

section Distances

variable {xs : List ℝ}

/-- Different numbers are counted one by one. -/
theorem distinct_eq_length (hdistinct : xs.Nodup) : distinct xs = xs.length := by
  induction xs with
  | nil => rfl
  | cons x xs ih =>
    have hrepeats := repeats_eq_false hdistinct
    rw [repeats, Bool.or_eq_false_iff] at hrepeats
    rw [distinct, hrepeats.1, ih (List.nodup_cons.mp hdistinct).2]
    rfl

/-- Different abscissae, two at least, are accepted. -/
theorem abscissae_numbers (hsize : 2 ≤ xs.length) (hdistinct : xs.Nodup) :
    abscissae (Document.numbers xs) =
      (.ok ⟨[xs.length], xs⟩ : Except (Fault ℝ) (Block ℝ)) := by
  have hlong : ¬xs.length < minimumSize := not_lt.mpr hsize
  have hcount : ¬distinct xs ≠ xs.length := not_not.mpr (distinct_eq_length hdistinct)
  rw [abscissae, Document.block_numbers]
  change (if xs.length < minimumSize then _ else if distinct xs ≠ xs.length then _ else _) = _
  rw [if_neg hlong, if_neg hcount]
  rfl

/-- The distances of the abscissae from a single point. -/
theorem distances_real (x : ℝ) :
    distances ⟨[xs.length], xs⟩ (.real x) =
      (.ok (xs.map fun a => a - x) : Except (Fault ℝ) (List ℝ)) := by
  have hfactor : (Document.real x).factor [xs.length] =
      (.ok ⟨[], [x]⟩ : Except (Fault ℝ) (Block ℝ)) := rfl
  have hshape : Block.commonShape? [xs.length] [] = some [xs.length] := rfl
  have hspread : (⟨[xs.length], xs⟩ : Block ℝ).spread [xs.length] = xs :=
    Block.spread_self (Block.volume_single _).symm
  have hdifferences : List.zipWith (· - ·) xs (List.replicate xs.length x) =
      xs.map fun a => a - x := by
    rw [← List.map_const', List.zipWith_map_right, List.zipWith_self]
  have hzip : (⟨[xs.length], xs⟩ : Block ℝ).zipWith? (· - ·) ⟨[], [x]⟩ =
      some ⟨[xs.length], xs.map fun a => a - x⟩ := by
    rw [Block.zipWith?]
    change (Block.commonShape? [xs.length] [] >>= fun shape => _ : Option (Block ℝ)) = _
    rw [hshape]
    change some (Block.mk [xs.length] (List.zipWith (· - ·)
      ((⟨[xs.length], xs⟩ : Block ℝ).spread [xs.length])
      ((⟨[], [x]⟩ : Block ℝ).spread [xs.length]))) = _
    rw [hspread, Block.spread_number, hdifferences]
  refine (bind_eq_of_ok hfactor).trans ?_
  rw [hzip]
  rfl

end Distances

section Polynomials

variable {fs : List ℝ[X]} {count : ℕ} {xs : List ℝ}

/-- Shifting the abscissae shifts the polynomial. -/
theorem derivatives_shifted (f : ℝ[X]) (count : ℕ) (x a : ℝ) :
    derivatives (scaled f x 1) count (a - x) = derivatives f count a := by
  apply List.map_congr_left
  intro i _
  rw [iterate_derivative_scaled, one_pow, C_1, one_mul, eval_scaled, one_mul, add_sub_cancel]

/-- The coordinates of a vector of polynomials of low degree are interpolated one by one. -/
theorem coordinates_shifted (hsize : 2 ≤ xs.length) (hdistinct : xs.Nodup) (hcount : 0 < count)
    (hdegree : ∀ f ∈ fs, f.degree < (xs.length * count : ℕ)) (x : ℝ) :
    coordinates (xs.map fun a => a - x) (fs.map fun f => xs.map (derivatives f count)) 0.0 =
      (.ok (fs.map fun f => jetAt f x) : Except (Fault ℝ) (List (Jet ℝ))) := by
  have hnonempty : (xs.map fun a => a - x) ≠ [] := by
    rw [Ne, List.map_eq_nil_iff]
    rintro rfl
    exact absurd hsize (by decide)
  have hdifferent : (xs.map fun a => a - x).Nodup := hdistinct.map (sub_left_injective)
  have hlength : (xs.map fun a => a - x).length = xs.length := List.length_map _
  apply Grid.mapM_eq_ok
  rw [List.map_map, List.map_map]
  apply List.map_congr_left
  intro f hf
  have hlow : (scaled f x 1).degree < ((xs.map fun a => a - x).length * count : ℕ) := by
    rw [hlength]
    exact degree_scaled_lt f x (hdegree f hf) 1
  have hcolumn : xs.map (derivatives f count) =
      (xs.map fun a => a - x).map (derivatives (scaled f x 1) count) := by
    rw [List.map_map]
    exact List.map_congr_left fun a _ => (derivatives_shifted f count x a).symm
  have hjet : jetAt (scaled f x 1) 0 = jetAt f x := by
    have hfirst := iterate_derivative_scaled f x 1 1
    rw [Function.iterate_one] at hfirst
    rw [jetAt, hfirst, iterate_derivative_scaled f x 1 2]
    simp [eval_scaled, jetAt]
  change coordinate _ 0.0 (xs.map fun a => a - x) (xs.map (derivatives f count)) = _
  rw [hcolumn, coordinate_eq hcount (scaleAround_ne_zero _ _) hnonempty hdifferent hlow,
    Scalar.zero_literal, hjet]
  rfl

/-- The blocks of the samples of polynomials are interpolated coordinate by coordinate. -/
theorem interpolate_sampleAt (hsize : 2 ≤ xs.length) (hdistinct : xs.Nodup) (hcount : 0 < count)
    (hdegree : ∀ f ∈ fs, f.degree < (xs.length * count : ℕ)) (x : ℝ) :
    (interpolate (Document.numbers xs) (Document.layers (xs.map (sampleAt fs count))) (.real x) :
      Except (Fault ℝ) _) =
        .ok [derivativeAt fs 0 x, derivativeAt fs 1 x, derivativeAt fs 2 x] := by
  have hrows : (xs.map (sampleAt fs count)) ≠ [] := by
    rw [Ne, List.map_eq_nil_iff]
    rintro rfl
    exact absurd hsize (by decide)
  have hcounts : ∀ row ∈ xs.map (sampleAt fs count), row.length = count := by
    intro row hrow
    obtain ⟨a, -, rfl⟩ := List.mem_map.mp hrow
    exact length_sampleAt fs count a
  have hsizes : ∀ row ∈ xs.map (sampleAt fs count), ∀ values ∈ row, values.length = fs.length := by
    intro row hrow values hvalues
    obtain ⟨a, -, rfl⟩ := List.mem_map.mp hrow
    exact length_of_mem_sampleAt fs count hvalues
  have hblock := Document.block_layers hrows hcount hcounts hsizes
  rw [List.length_map] at hblock
  have hlayers : (List.range count).mapM (layer xs.length fs.length
      ⟨[xs.length, count, fs.length], (xs.map (sampleAt fs count)).flatten.flatten⟩) =
        (.ok ((List.range count).map fun order => xs.map (derivativeAt fs order)) :
          Except (Fault ℝ) _) := by
    apply Grid.mapM_eq_ok
    rw [List.map_map]
    exact List.map_congr_left fun order horder => layer_sampleAt (List.mem_range.mp horder)
  have hwhole : ¬(xs.map fun a => a - x).length ≠ xs.length := not_not.mpr (List.length_map _)
  have hcolumns := coordinates_shifted hsize hdistinct hcount hdegree x
  rw [← columns_eq] at hcolumns
  refine (bind_eq_of_ok (ofExcept_of_ok (abscissae_numbers hsize hdistinct))).trans ?_
  refine (bind_eq_of_ok (ofExcept_of_ok hblock)).trans ?_
  refine (bind_eq_of_ok (warn_eq _)).trans ?_
  refine (bind_eq_of_ok (ofExcept_of_ok (distances_real x))).trans ?_
  refine (bind_eq_of_ok (ofExcept_of_ok hlayers)).trans ?_
  refine (if_neg hwhole).trans ?_
  refine (bind_eq_of_ok (ofExcept_of_ok hcolumns)).trans ?_
  exact congrArg Except.ok (by simp [derivativeAt, jetAt])

/-- Vectors of polynomials of degree less than the number of conditions are interpolated exactly:
whatever the dimension, the number of derivatives given and the order of the abscissae, the values
and the first two derivatives at the point of evaluation are those of the polynomials. -/
theorem interpolate_polynomials (hsize : 2 ≤ xs.length) (hdistinct : xs.Nodup) (hcount : 0 < count)
    (hdegree : ∀ f ∈ fs, f.degree < (xs.length * count : ℕ)) (x : ℝ) :
    (interpolate (Document.numbers xs) (Document.layers (xs.map (sampleAt fs count))) (.real x) :
      Run ℝ _).Yields (.ok [derivativeAt fs 0 x, derivativeAt fs 1 x, derivativeAt fs 2 x]) := by
  rw [← interpolate_sampleAt hsize hdistinct hcount hdegree x]
  exact (interpolate_computes _ _ _).yields

/-- Three abscissae out of order with two conditions each determine a polynomial of degree five. -/
theorem interpolate_polynomials_unordered :
    2 ≤ [(2 : ℝ), -1, 1].length ∧ [(2 : ℝ), -1, 1].Nodup ∧ 0 < 2 ∧
      (∀ f ∈ [(X ^ 5 : ℝ[X]), 1 - X], f.degree < ([(2 : ℝ), -1, 1].length * 2 : ℕ)) ∧
      (interpolate (Document.numbers [2, -1, 1]) (Document.layers
        [[[32, -1], [80, -1]], [[-1, 2], [5, -1]], [[1, 0], [5, -1]]]) (.real 3) :
          Run ℝ _).Yields (.ok [[243, -2], [405, -1], [540, 0]]) := by
  have hdistinct : [(2 : ℝ), -1, 1].Nodup := by norm_num
  have hdegree : ∀ f ∈ [(X ^ 5 : ℝ[X]), 1 - X], f.degree < ([(2 : ℝ), -1, 1].length * 2 : ℕ) := by
    intro f hf
    rcases List.mem_pair.mp hf with rfl | rfl
    · rw [degree_X_pow]
      exact_mod_cast (by decide : 5 < 6)
    · have hlinear : (1 - X : ℝ[X]).degree ≤ 1 := by
        refine (degree_sub_le _ _).trans (max_le ?_ degree_X_le)
        exact degree_one_le.trans zero_le_one
      exact lt_of_le_of_lt hlinear (by exact_mod_cast (by decide : 1 < 6))
  refine ⟨by decide, hdistinct, by decide, hdegree, ?_⟩
  have hresult := interpolate_polynomials (by decide) hdistinct (by decide) hdegree 3
  have hsamples : [(2 : ℝ), -1, 1].map (sampleAt [X ^ 5, 1 - X] 2) =
      [[[32, -1], [80, -1]], [[-1, 2], [5, -1]], [[1, 0], [5, -1]]] := by
    simp [sampleAt, derivativeAt, List.range_succ]
    norm_num
  have hvalues : [derivativeAt [X ^ 5, 1 - X] 0 3, derivativeAt [X ^ 5, 1 - X] 1 3,
      derivativeAt [X ^ 5, 1 - X] 2 3] = [[243, -2], [405, -1], [(540 : ℝ), 0]] := by
    simp [derivativeAt]
    norm_num
  rwa [hsamples, hvalues] at hresult

end Polynomials

end Hermite

end FrameKinematics
