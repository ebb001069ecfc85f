import Mathlib.RingTheory.Polynomial.Basic
import FrameKinematics.Proofs.Interpolation.HermiteInterpolant
import FrameKinematics.Proofs.Motion.Jets
import FrameKinematics.Linear.Matrix

/-!
# Interpolation of vectors is linear

Vectors at different abscissae, with equally many derivatives each, lie on a curve whose coordinates
are polynomials of low degree, and the interpolation finds the value and the first two derivatives
of this curve. A matrix takes the curve to the curve of the images, so interpolation commutes with
matrices. Vectors that vanish lie on the curve that stays at zero.
-/

namespace FrameKinematics

namespace Hermite

open Polynomial

/-- A derivative of a curve at an abscissa. -/
noncomputable def derivativeOn (curve : Vec3 ℝ[X]) (a : ℝ) (i : ℕ) : Vec3 ℝ :=
  curve.map fun f => (derivative^[i] f).eval a

/-- The value and the next derivatives of a curve at an abscissa, `count` vectors in all. -/
noncomputable def derivativesOn (curve : Vec3 ℝ[X]) (count : ℕ) (a : ℝ) : List (Vec3 ℝ) :=
  (List.range count).map (derivativeOn curve a)

/-- The value and the first two derivatives of a curve at an abscissa. -/
noncomputable def jetOn (curve : Vec3 ℝ[X]) (a : ℝ) : Jet (Vec3 ℝ) :=
  ⟨derivativeOn curve a 0, derivativeOn curve a 1, derivativeOn curve a 2⟩

/-- All coordinates of a curve have degrees less than a number. -/
structure IsLow (curve : Vec3 ℝ[X]) (n : ℕ) : Prop where
  x : curve.x.degree < n
  y : curve.y.degree < n
  z : curve.z.degree < n

variable {xs : List ℝ} {samples : List (List (Vec3 ℝ))} {order : ℕ} {curve : Vec3 ℝ[X]}

/-- Curves of low degree are interpolated exactly. -/
theorem vectors_derivativesOn (hsize : 2 ≤ xs.length) (hdistinct : xs.Nodup)
    (hlow : IsLow curve (xs.length * (order + 1))) (x : ℝ) :
    (vectors order xs (xs.map (derivativesOn curve (order + 1))) x : Except (Fault ℝ) _) =
      .ok (jetOn curve x) := by
  have hxs : xs ≠ [] := by
    rintro rfl
    exact absurd hsize (by decide)
  have hcolumn {g : Vec3 ℝ → ℝ} {f : ℝ[X]}
      (hg : ∀ a i, g (derivativeOn curve a i) = (derivative^[i] f).eval a)
      (hf : f.degree < (xs.length * (order + 1) : ℕ)) :
      coordinate (scaleAround xs x) x xs
        ((xs.map (derivativesOn curve (order + 1))).map fun sample => sample.map g) =
          .ok (jetAt f x) := by
    rw [← coordinate_eq (Nat.succ_pos order) (scaleAround_ne_zero xs x) hxs hdistinct hf x,
      List.map_map]
    congr 1
    refine List.map_congr_left fun a _ => ?_
    rw [Function.comp_apply, derivativesOn, List.map_map]
    exact List.map_congr_left fun i _ => hg a i
  refine (bind_eq_of_ok (ofExcept_of_ok (checkAbscissae_eq hsize hdistinct))).trans ?_
  refine (bind_eq_of_ok (warn_eq _)).trans ?_
  refine (bind_eq_of_ok (ofExcept_of_ok (hcolumn (fun _ _ => rfl) hlow.x))).trans ?_
  refine (bind_eq_of_ok (ofExcept_of_ok (hcolumn (fun _ _ => rfl) hlow.y))).trans ?_
  exact bind_eq_of_ok (ofExcept_of_ok (hcolumn (fun _ _ => rfl) hlow.z))

/-- Vectors at different abscissae, with equally many derivatives each, lie on a curve of low
degree. -/
theorem exists_curve {count : ℕ} (hdistinct : xs.Nodup) (hlength : samples.length = xs.length)
    (hcounts : ∀ values ∈ samples, values.length = count) :
    ∃ curve, IsLow curve (xs.length * count) ∧ samples = xs.map (derivativesOn curve count) := by
  have hcolumn (g : Vec3 ℝ → ℝ) : ∃ f : ℝ[X], f.degree < (xs.length * count : ℕ) ∧
      (samples.map fun sample => sample.map g) = xs.map (derivatives f count) := by
    refine exists_sampled hdistinct ((List.length_map _).trans hlength) ?_
    intro values hvalues
    obtain ⟨sample, hsample, rfl⟩ := List.mem_map.mp hvalues
    rw [List.length_map, hcounts sample hsample]
  obtain ⟨f, hf, hx⟩ := hcolumn Vec3.x
  obtain ⟨g, hg, hy⟩ := hcolumn Vec3.y
  obtain ⟨h, hh, hz⟩ := hcolumn Vec3.z
  refine ⟨⟨f, g, h⟩, ⟨hf, hg, hh⟩, ?_⟩
  apply List.ext_getElem
  · rw [List.length_map, hlength]
  · intro i hi hi'
    rw [List.getElem_map]
    have hat {c : Vec3 ℝ → ℝ} {p : ℝ[X]}
        (hc : (samples.map fun sample => sample.map c) = xs.map (derivatives p count)) :
        samples[i].map c = derivatives p count (xs.get ⟨i, hlength ▸ hi⟩) := by
      have hentry := List.getElem_of_eq hc (by rwa [List.length_map])
      rwa [List.getElem_map, List.getElem_map] at hentry
    apply eq_of_map_eq
    · rw [hat hx, derivativesOn, List.map_map]
      rfl
    · rw [hat hy, derivativesOn, List.map_map]
      rfl
    · rw [hat hz, derivativesOn, List.map_map]
      rfl

section Images

/-- The combination of the coordinates of a curve with the entries of a row. -/
noncomputable def combination (row : Vec3 ℝ) (curve : Vec3 ℝ[X]) : ℝ[X] :=
  row.x • curve.x + row.y • curve.y + row.z • curve.z

/-- The curve of the images under a matrix. -/
noncomputable def image (m : Mat3 ℝ) (curve : Vec3 ℝ[X]) : Vec3 ℝ[X] :=
  ⟨combination m.top curve, combination m.middle curve, combination m.bottom curve⟩

/-- The image of a curve under a matrix has no higher degree than the curve. -/
theorem isLow_image {n : ℕ} (m : Mat3 ℝ) (hlow : IsLow curve n) : IsLow (image m curve) n := by
  have hrow (row : Vec3 ℝ) : (combination row curve).degree < n := by
    obtain ⟨hx, hy, hz⟩ := hlow
    rw [← mem_degreeLT] at hx hy hz ⊢
    exact add_mem (add_mem (Submodule.smul_mem _ _ hx) (Submodule.smul_mem _ _ hy))
      (Submodule.smul_mem _ _ hz)
  exact ⟨hrow m.top, hrow m.middle, hrow m.bottom⟩

/-- The derivatives of the images are the images of the derivatives. -/
theorem derivativeOn_image (m : Mat3 ℝ) (curve : Vec3 ℝ[X]) (a : ℝ) (i : ℕ) :
    derivativeOn (image m curve) a i = m.apply (derivativeOn curve a i) := by
  have hrow (row : Vec3 ℝ) :
      (derivative^[i] (combination row curve)).eval a = row.dot (derivativeOn curve a i) := by
    simp only [combination, iterate_map_add, iterate_derivative_smul, eval_add, eval_smul,
      smul_eq_mul]
    rfl
  ext
  · exact hrow m.top
  · exact hrow m.middle
  · exact hrow m.bottom

/-- Interpolation commutes with matrices. -/
theorem vectors_apply (m : Mat3 ℝ) (hsize : 2 ≤ xs.length) (hdistinct : xs.Nodup)
    (hlength : samples.length = xs.length)
    (hcounts : ∀ values ∈ samples, values.length = order + 1) {x : ℝ} {jet : Jet (Vec3 ℝ)}
    (h : (vectors order xs samples x : Except (Fault ℝ) _) = .ok jet) :
    (vectors order xs (samples.map fun sample => sample.map m.apply) x : Except (Fault ℝ) _) =
      .ok (jet.map m.apply) := by
  obtain ⟨curve, hlow, rfl⟩ := exists_curve hdistinct hlength hcounts
  rw [vectors_derivativesOn hsize hdistinct hlow] at h
  obtain rfl := Except.ok.inj h
  have himages : ((xs.map (derivativesOn curve (order + 1))).map fun sample => sample.map m.apply) =
      xs.map (derivativesOn (image m curve) (order + 1)) := by
    rw [List.map_map]
    refine List.map_congr_left fun a _ => ?_
    rw [Function.comp_apply, derivativesOn, List.map_map]
    exact List.map_congr_left fun i _ => (derivativeOn_image m curve a i).symm
  rw [himages, vectors_derivativesOn hsize hdistinct (isLow_image m hlow)]
  simp only [jetOn, Jet.map, derivativeOn_image]

/-- Vectors that vanish are interpolated by a vector that vanishes, with its derivatives. -/
theorem vectors_zero (hsize : 2 ≤ xs.length) (hdistinct : xs.Nodup) (x : ℝ) :
    (vectors order xs (xs.map fun _ => List.replicate (order + 1) 0) x : Except (Fault ℝ) _) =
      .ok ⟨0, 0, 0⟩ := by
  have hstill (a : ℝ) (i : ℕ) : derivativeOn ⟨0, 0, 0⟩ a i = 0 := by
    ext <;> simp [derivativeOn, Vec3.map]
  have hlow : IsLow ⟨0, 0, 0⟩ (xs.length * (order + 1)) := by
    have hzero : (0 : ℝ[X]).degree < (xs.length * (order + 1) : ℕ) := by
      rw [degree_zero]
      exact WithBot.bot_lt_coe _
    exact ⟨hzero, hzero, hzero⟩
  have hconditions : (xs.map fun _ => List.replicate (order + 1) (0 : Vec3 ℝ)) =
      xs.map (derivativesOn ⟨0, 0, 0⟩ (order + 1)) := by
    refine List.map_congr_left fun a _ => ?_
    rw [derivativesOn, funext (hstill a), List.map_const', List.length_range]
  rw [hconditions, vectors_derivativesOn hsize hdistinct hlow, jetOn, hstill, hstill, hstill]

end Images

end Hermite

end FrameKinematics
