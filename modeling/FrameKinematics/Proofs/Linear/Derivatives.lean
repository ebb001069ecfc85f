import Mathlib.Analysis.Calculus.Deriv.Add
import Mathlib.Analysis.Calculus.Deriv.Inv
import Mathlib.Analysis.Calculus.Deriv.Mul
import Mathlib.Analysis.SpecialFunctions.Sqrt
import Mathlib.Tactic.FieldSimp
import Mathlib.Topology.Algebra.Module.ModuleTopology
import FrameKinematics.Proofs.Linear.SkewMatrices

/-!
# Derivatives of vectors and matrices

A path of vectors is differentiated in each coordinate, and a path of matrices in each row. The rule
of Leibniz holds for all products. Away from the origin the inverse of the length of a vector has a
derivative, too. No path is asked to be differentiable anywhere but at the time in question.
-/

open scoped Topology

namespace FrameKinematics

section UniformAcceleration

variable (x v a s : ℝ)

/-- The velocity of a uniformly accelerated coordinate has the acceleration as its derivative. -/
theorem hasDerivAt_linear : HasDerivAt (fun t => v + t * a) a s :=
  (((hasDerivAt_id' s).mul_const a).const_add v).congr_deriv (one_mul a)

/-- The derivative of a path with uniform acceleration is linear. -/
theorem hasDerivAt_quadratic :
    HasDerivAt (fun t => x + t * (v + 0.5 * t * a)) (v + s * a) s := by
  have hslope := (((hasDerivAt_id' s).const_mul 0.5).mul_const a).const_add v
  exact (((hasDerivAt_id' s).mul hslope).const_add x).congr_deriv (by ring)

end UniformAcceleration

namespace Vec3

/-- A path of vectors has a derivative at a time, in each coordinate. -/
structure HasDerivativeAt (path : ℝ → Vec3 ℝ) (slope : Vec3 ℝ) (s : ℝ) : Prop where
  x : HasDerivAt (fun t => (path t).x) slope.x s
  y : HasDerivAt (fun t => (path t).y) slope.y s
  z : HasDerivAt (fun t => (path t).z) slope.z s

namespace HasDerivativeAt

variable {p q : ℝ → Vec3 ℝ} {p' q' v : Vec3 ℝ} {s : ℝ}

/-- A derivative may be written in another form. -/
theorem congr_slope (hp : HasDerivativeAt p p' s) (heq : p' = v) : HasDerivativeAt p v s :=
  heq ▸ hp

/-- The derivative of a sum of paths is the sum of their derivatives. -/
theorem add (hp : HasDerivativeAt p p' s) (hq : HasDerivativeAt q q' s) :
    HasDerivativeAt (fun t => p t + q t) (p' + q') s :=
  ⟨hp.x.add hq.x, hp.y.add hq.y, hp.z.add hq.z⟩

/-- The rule of Leibniz for multiples. -/
theorem smul {k : ℝ → ℝ} {k' : ℝ} (hk : HasDerivAt k k' s) (hp : HasDerivativeAt p p' s) :
    HasDerivativeAt (fun t => k t • p t) (k' • p s + k s • p') s :=
  ⟨hk.mul hp.x, hk.mul hp.y, hk.mul hp.z⟩

/-- The rule of Leibniz for the vector product, whose order stays. -/
theorem cross (hp : HasDerivativeAt p p' s) (hq : HasDerivativeAt q q' s) :
    HasDerivativeAt (fun t => (p t).cross (q t)) (p'.cross (q s) + (p s).cross q') s where
  x := ((hp.y.mul hq.z).sub (hp.z.mul hq.y)).congr_deriv (by simp; ring)
  y := ((hp.z.mul hq.x).sub (hp.x.mul hq.z)).congr_deriv (by simp; ring)
  z := ((hp.x.mul hq.y).sub (hp.y.mul hq.x)).congr_deriv (by simp; ring)

/-- The rule of Leibniz for the scalar product. -/
theorem dot (hp : HasDerivativeAt p p' s) (hq : HasDerivativeAt q q' s) :
    HasDerivAt (fun t => (p t).dot (q t)) (p'.dot (q s) + (p s).dot q') s := by
  refine (((hp.x.mul hq.x).add (hp.y.mul hq.y)).add (hp.z.mul hq.z)).congr_deriv ?_
  simp only [Vec3.dot]
  ring

/-- A path that is not in the origin is not there either for a while before and after. -/
theorem eventually_ne_zero (hp : HasDerivativeAt p p' s) (hne : p s ≠ 0) : ∀ᶠ t in 𝓝 s, p t ≠ 0 := by
  have hsquare : (p s).dot (p s) ≠ 0 := by
    rw [← norm_sq]
    exact pow_ne_zero 2 (mt norm_eq_zero.mp hne)
  refine ((hp.dot hp).continuousAt.eventually_ne hsquare).mono fun t ht hzero => ht ?_
  rw [hzero, dot_zero]

/-- The inverse of the length, away from the origin. -/
theorem inv_norm (hp : HasDerivativeAt p p' s) (hne : p s ≠ 0) :
    HasDerivAt (fun t => (p t).norm⁻¹) (-(p s).dot p' * (p s).norm⁻¹ ^ 3) s := by
  have hnorm : (p s).norm ≠ 0 := mt norm_eq_zero.mp hne
  have hsquare : (p s).dot (p s) ≠ 0 := by
    rw [← norm_sq]
    exact pow_ne_zero 2 hnorm
  have hlength : HasDerivAt (fun t => (p t).norm) ((p s).dot p' / (p s).norm) s := by
    refine ((hp.dot hp).sqrt hsquare).congr_deriv ?_
    rw [dot_comm p', ← two_mul, mul_div_mul_left _ _ two_ne_zero]
    rfl
  refine (hlength.inv hnorm).congr_deriv ?_
  field_simp

end HasDerivativeAt

end Vec3

namespace Mat3

/-- A path of matrices has a derivative at a time, in each row. -/
structure HasDerivativeAt (path : ℝ → Mat3 ℝ) (slope : Mat3 ℝ) (s : ℝ) : Prop where
  top : Vec3.HasDerivativeAt (fun t => (path t).top) slope.top s
  middle : Vec3.HasDerivativeAt (fun t => (path t).middle) slope.middle s
  bottom : Vec3.HasDerivativeAt (fun t => (path t).bottom) slope.bottom s

namespace HasDerivativeAt

variable {p q : ℝ → Mat3 ℝ} {p' q' c : Mat3 ℝ} {s : ℝ}

/-- The derivative of a sum of matrices is the sum of their derivatives. -/
theorem add (hp : HasDerivativeAt p p' s) (hq : HasDerivativeAt q q' s) :
    HasDerivativeAt (fun t => p t + q t) (p' + q') s :=
  ⟨hp.top.add hq.top, hp.middle.add hq.middle, hp.bottom.add hq.bottom⟩

/-- The rule of Leibniz for the scalar products of the rows. -/
theorem mulTranspose (hp : HasDerivativeAt p p' s) (hq : HasDerivativeAt q q' s) :
    HasDerivativeAt (fun t => (p t).mulTranspose (q t))
      (p'.mulTranspose (q s) + (p s).mulTranspose q') s := by
  have hrow {u : ℝ → Vec3 ℝ} {u' : Vec3 ℝ} (hu : Vec3.HasDerivativeAt u u' s) :
      Vec3.HasDerivativeAt (fun t => (q t).apply (u t)) ((q s).apply u' + q'.apply (u s)) s :=
    ⟨(hq.top.dot hu).congr_deriv (add_comm _ _), (hq.middle.dot hu).congr_deriv (add_comm _ _),
      (hq.bottom.dot hu).congr_deriv (add_comm _ _)⟩
  exact ⟨hrow hp.top, hrow hp.middle, hrow hp.bottom⟩

/-- A path that rests has no derivative but zero. -/
theorem eq_zero (hp : HasDerivativeAt p p' s) (hrest : ∀ᶠ t in 𝓝 s, p t = c) : p' = 0 := by
  have hentry (entry : Mat3 ℝ → ℝ) {slope : ℝ}
      (h : HasDerivAt (fun t => entry (p t)) slope s) : slope = 0 := by
    have hconst : (fun t => entry (p t)) =ᶠ[𝓝 s] fun _ => entry c :=
      hrest.mono fun t ht => congrArg entry ht
    exact h.unique ((hasDerivAt_const s (entry c)).congr_of_eventuallyEq hconst)
  ext
  · exact hentry (fun m => m.top.x) hp.top.x
  · exact hentry (fun m => m.top.y) hp.top.y
  · exact hentry (fun m => m.top.z) hp.top.z
  · exact hentry (fun m => m.middle.x) hp.middle.x
  · exact hentry (fun m => m.middle.y) hp.middle.y
  · exact hentry (fun m => m.middle.z) hp.middle.z
  · exact hentry (fun m => m.bottom.x) hp.bottom.x
  · exact hentry (fun m => m.bottom.y) hp.bottom.y
  · exact hentry (fun m => m.bottom.z) hp.bottom.z

end HasDerivativeAt

end Mat3

end FrameKinematics
