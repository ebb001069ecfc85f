import Mathlib.Analysis.Calculus.Deriv.Add
import Mathlib.Analysis.Calculus.Deriv.Mul
import Mathlib.Analysis.SpecialFunctions.Trigonometric.Deriv
import FrameKinematics.Proofs.Linear.Derivatives
import FrameKinematics.Proofs.Motion.Extrapolation

/-!
# Paths and their motions

A motion says where a path is at time zero, and its first two derivatives there. The motions of
paths follow the rules of the calculus, and a frame that starts to turn adds the terms of the
moving frame to them.
-/

namespace FrameKinematics

namespace Rotation

/-- A rotation adds two vector products with the vector part of its quaternion. -/
theorem apply_eq (r : Rotation ℝ) (v : Vec3 ℝ) :
    r.apply v = v + (2 * r.quaternion.w) • r.quaternion.vector.cross v +
      (2 : ℝ) • r.quaternion.vector.cross (r.quaternion.vector.cross v) := by
  ext <;> simp [apply, Quaternion.rotate] <;> ring

/-- The rotation formula of Rodrigues. -/
theorem swing_apply (w : Vec3 ℝ) (φ : ℝ) (v : Vec3 ℝ) :
    (swing w φ).apply v = v - (Real.sin (w.norm * φ) / w.norm) • w.cross v +
      ((1 - Real.cos (w.norm * φ)) / (w.norm * w.norm)) • w.cross (w.cross v) := by
  have hangle : w.norm * φ = 2 * (0.5 * (w.norm * φ)) := by ring
  have hsine : Real.sin (w.norm * φ) / w.norm =
      2 * Real.cos (0.5 * (w.norm * φ)) * (Real.sin (0.5 * (w.norm * φ)) / w.norm) := by
    rw [hangle, Real.sin_two_mul]
    ring_nf
  have hversine : (1 - Real.cos (w.norm * φ)) / (w.norm * w.norm) =
      2 * (Real.sin (0.5 * (w.norm * φ)) / w.norm *
        (Real.sin (0.5 * (w.norm * φ)) / w.norm)) := by
    rw [hangle, Real.cos_two_mul, Real.cos_sq']
    ring_nf
  rw [apply_eq, swing_vector, swing_w, hsine, hversine, Vec3.smul_cross, Vec3.smul_cross,
    Vec3.cross_smul]
  module

end Rotation

/-- A real function has a value and two derivatives at zero. The first derivative exists everywhere,
so that there is something to derive a second time. -/
def HasJet (f : ℝ → ℝ) (value first second : ℝ) : Prop :=
  ∃ f' : ℝ → ℝ, (∀ s, HasDerivAt f (f' s) s) ∧ HasDerivAt f' second 0 ∧ f 0 = value ∧ f' 0 = first

namespace HasJet

variable {f g : ℝ → ℝ} {x v a y w b : ℝ}

/-- A constant has no derivatives. -/
theorem const (c : ℝ) : HasJet (fun _ => c) c 0 0 :=
  ⟨fun _ => 0, fun s => hasDerivAt_const s c, hasDerivAt_const 0 0, rfl, rfl⟩

/-- The identity has the first derivative one. -/
theorem id : HasJet (fun s => s) 0 1 0 :=
  ⟨fun _ => 1, hasDerivAt_id', hasDerivAt_const 0 1, rfl, rfl⟩

/-- Half the square has the second derivative one. -/
theorem half_square : HasJet (fun s => 0.5 * s * s) 0 0 1 := by
  refine ⟨fun s => s, fun s => ?_, hasDerivAt_id' 0, ?_, rfl⟩
  · exact (((hasDerivAt_id' s).const_mul 0.5).mul (hasDerivAt_id' s)).congr_deriv (by ring)
  · simp

/-- The derivatives of a sum are the sums of the derivatives. -/
theorem add (hf : HasJet f x v a) (hg : HasJet g y w b) :
    HasJet (fun s => f s + g s) (x + y) (v + w) (a + b) := by
  obtain ⟨f', hf', hsecond, rfl, rfl⟩ := hf
  obtain ⟨g', hg', hsecond', rfl, rfl⟩ := hg
  exact ⟨fun s => f' s + g' s, fun s => (hf' s).add (hg' s), hsecond.add hsecond', rfl, rfl⟩

/-- The derivatives of a difference are the differences of the derivatives. -/
theorem sub (hf : HasJet f x v a) (hg : HasJet g y w b) :
    HasJet (fun s => f s - g s) (x - y) (v - w) (a - b) := by
  obtain ⟨f', hf', hsecond, rfl, rfl⟩ := hf
  obtain ⟨g', hg', hsecond', rfl, rfl⟩ := hg
  exact ⟨fun s => f' s - g' s, fun s => (hf' s).sub (hg' s), hsecond.sub hsecond', rfl, rfl⟩

/-- A constant factor multiplies the derivatives. -/
theorem const_mul (c : ℝ) (hf : HasJet f x v a) :
    HasJet (fun s => c * f s) (c * x) (c * v) (c * a) := by
  obtain ⟨f', hf', hsecond, rfl, rfl⟩ := hf
  exact ⟨fun s => c * f' s, fun s => (hf' s).const_mul c, hsecond.const_mul c, rfl, rfl⟩

/-- The rule of Leibniz. -/
theorem mul (hf : HasJet f x v a) (hg : HasJet g y w b) :
    HasJet (fun s => f s * g s) (x * y) (v * y + x * w) (a * y + 2 * v * w + x * b) := by
  obtain ⟨f', hf', hsecond, rfl, rfl⟩ := hf
  obtain ⟨g', hg', hsecond', rfl, rfl⟩ := hg
  refine ⟨fun s => f' s * g s + f s * g' s, fun s => (hf' s).mul (hg' s), ?_, rfl, rfl⟩
  exact ((hsecond.mul (hg' 0)).add ((hf' 0).mul hsecond')).congr_deriv (by ring)

/-- Uniform acceleration. -/
theorem quadratic (x v a : ℝ) : HasJet (fun s => x + s * (v + 0.5 * s * a)) x v a := by
  refine ⟨fun s => v + s * a, hasDerivAt_quadratic x v a, hasDerivAt_linear v a 0, ?_, ?_⟩
  · simp
  · simp

variable {n : ℝ}

/-- To second order the sine of an angle, over the speed, is the time. -/
theorem sine (hn : n ≠ 0) (hf : HasJet f 0 v a) :
    HasJet (fun s => Real.sin (n * f s) / n) 0 v a := by
  obtain ⟨f', hf', hsecond, hvalue, rfl⟩ := hf
  refine ⟨fun s => Real.cos (n * f s) * f' s, fun s => ?_, ?_, ?_, ?_⟩
  · refine (((hf' s).const_mul n).sin.div_const n).congr_deriv ?_
    field_simp
  · refine (((hf' 0).const_mul n).cos.mul hsecond).congr_deriv ?_
    simp [hvalue]
  · simp [hvalue]
  · simp [hvalue]

/-- To second order the versed sine of an angle, over the square of the speed, is half the square of
the time. -/
theorem versine (hn : n ≠ 0) (hf : HasJet f 0 v a) :
    HasJet (fun s => (1 - Real.cos (n * f s)) / (n * n)) 0 0 (v * v) := by
  obtain ⟨f', hf', hsecond, hvalue, rfl⟩ := hf
  refine ⟨fun s => Real.sin (n * f s) / n * f' s, fun s => ?_, ?_, ?_, ?_⟩
  · refine ((((hf' s).const_mul n).cos.const_sub 1).div_const (n * n)).congr_deriv ?_
    field_simp
  · refine ((((hf' 0).const_mul n).sin.div_const n).mul hsecond).congr_deriv ?_
    simp [hvalue, hn]
  · simp [hvalue]
  · simp [hvalue]

end HasJet

namespace Motion

/-- A path is differentiable, twice at time zero, and the motion holds its position and its first
two derivatives at time zero. -/
def Starts (m : Motion ℝ) (path : ℝ → Vec3 ℝ) : Prop :=
  HasJet (fun s => (path s).x) m.position.x m.velocity.x m.acceleration.x ∧
    HasJet (fun s => (path s).y) m.position.y m.velocity.y m.acceleration.y ∧
    HasJet (fun s => (path s).z) m.position.z m.velocity.z m.acceleration.z

namespace Starts

variable {m n : Motion ℝ} {p q : ℝ → Vec3 ℝ}

/-- A path that stays at a point starts at rest. -/
theorem const (v : Vec3 ℝ) : Starts ⟨v, 0, 0⟩ fun _ => v :=
  ⟨.const v.x, .const v.y, .const v.z⟩

/-- A sum of paths starts with the sum of the motions. -/
theorem add (hm : m.Starts p) (hn : n.Starts q) : (m + n).Starts fun s => p s + q s :=
  ⟨hm.1.add hn.1, hm.2.1.add hn.2.1, hm.2.2.add hn.2.2⟩

/-- A difference of paths starts with the difference of the motions. -/
theorem sub (hm : m.Starts p) (hn : n.Starts q) : (m - n).Starts fun s => p s - q s :=
  ⟨hm.1.sub hn.1, hm.2.1.sub hn.2.1, hm.2.2.sub hn.2.2⟩

/-- A multiple of a path starts as the product rule says. -/
theorem smul {f : ℝ → ℝ} {x v a : ℝ} (hf : HasJet f x v a) (hm : m.Starts p) :
    Starts ⟨x • m.position, v • m.position + x • m.velocity,
      a • m.position + (2 * v) • m.velocity + x • m.acceleration⟩ fun s => f s • p s :=
  ⟨hf.mul hm.1, hf.mul hm.2.1, hf.mul hm.2.2⟩

/-- The vector product with a fixed vector starts with the vector products. -/
theorem cross (w : Vec3 ℝ) (hm : m.Starts p) :
    Starts ⟨w.cross m.position, w.cross m.velocity, w.cross m.acceleration⟩
      fun s => w.cross (p s) := by
  obtain ⟨hx, hy, hz⟩ := hm
  exact ⟨(hz.const_mul w.y).sub (hy.const_mul w.z), (hx.const_mul w.z).sub (hz.const_mul w.x),
    (hy.const_mul w.x).sub (hx.const_mul w.y)⟩

/-- Two descriptions of one path start alike. -/
theorem congr (hm : m.Starts p) (heq : m = n) (hpath : ∀ s, p s = q s) : n.Starts q := by
  rwa [← heq, ← funext hpath]

/-- A path that is turned by a fixed rotation. -/
theorem apply (r : Rotation ℝ) (hm : m.Starts p) :
    Starts ⟨r.apply m.position, r.apply m.velocity, r.apply m.acceleration⟩
      fun s => r.apply (p s) := by
  have hcross := hm.cross r.quaternion.vector
  have hdouble := hcross.cross r.quaternion.vector
  have hpath := (hm.add (smul (.const (2 * r.quaternion.w)) hcross)).add (smul (.const 2) hdouble)
  refine hpath.congr ?_ fun s => (r.apply_eq (p s)).symm
  ext1
  · exact (r.apply_eq m.position).symm
  · simp [r.apply_eq m.velocity]
  · simp [r.apply_eq m.acceleration]

/-- A path in a frame that starts to turn about `w`. The time that the frame turns for starts with
the derivatives `a` and `b`. -/
theorem swing (w : Vec3 ℝ) {f : ℝ → ℝ} {a b : ℝ} (hf : HasJet f 0 a b) (hm : m.Starts p) :
    Starts ⟨m.position, m.velocity - a • w.cross m.position,
      m.acceleration - b • w.cross m.position - (2 * a) • w.cross m.velocity +
        (a * a) • w.cross (w.cross m.position)⟩ fun s => (Rotation.swing w (f s)).apply (p s) := by
  by_cases hw : w = 0
  · refine hm.congr ?_ fun s => ?_
    · ext1 <;> simp [hw]
    · rw [hw, Rotation.zero_swing, Rotation.identity_apply]
  · have hnorm : w.norm ≠ 0 := mt Vec3.norm_eq_zero.mp hw
    have hcross := hm.cross w
    have hpath := (hm.sub (smul (hf.sine hnorm) hcross)).add
      (smul (hf.versine hnorm) (hcross.cross w))
    refine hpath.congr ?_ fun s => (Rotation.swing_apply w (f s) (p s)).symm
    ext1
    · simp
    · simp
    · simp
      abel

/-- The extrapolation of a motion is a path that starts with this motion. -/
theorem shift (m : Motion ℝ) : m.Starts fun s => (m.shift s).position :=
  ⟨.quadratic _ _ _, .quadratic _ _ _, .quadratic _ _ _⟩

end Starts

end Motion

end FrameKinematics
