import FrameKinematics.Proofs.Linear.ScalarProduct
import FrameKinematics.Line

/-!
# The normal form of lines

A line holds a unit vector along it and the foot of the coordinate origin on it, whichever points of
the line it was built from. So a line is known by any of its points and a unit vector, and the
constructor either refuses two points or gives the line that this vector spans from the first of
them. Two points that are one unit apart are refused if the tolerance is one or more.
-/

namespace FrameKinematics.Line

variable {l : Line ℝ} {p q u : Vec3 ℝ} {tolerance : ℝ}

/-- The direction is a unit vector, and the origin is orthogonal to it. -/
structure IsNormal (l : Line ℝ) : Prop where
  unit : l.direction.dot l.direction = 1
  orthogonal : l.origin.dot l.direction = 0

/-- The line through a point along a unit vector. -/
noncomputable def spanned (p u : Vec3 ℝ) (tolerance : ℝ) : Line ℝ :=
  ⟨p - p.dot u • u, u, tolerance⟩

/-- A line through a point along a direction of length one is in normal form. -/
theorem isNormal_spanned (hu : u.dot u = 1) (p : Vec3 ℝ) (tolerance : ℝ) :
    (spanned p u tolerance).IsNormal := by
  refine ⟨hu, ?_⟩
  simp only [spanned, Vec3.sub_dot, Vec3.smul_dot, hu]
  ring

/-- A line in normal form is spanned from its origin. -/
theorem IsNormal.spanned_origin (hl : l.IsNormal) :
    spanned l.origin l.direction l.tolerance = l := by
  rw [spanned, hl.orthogonal, zero_smul, sub_zero]

/-- The points of a line are those that it is spanned from, each at its abscissa. -/
theorem pointAt_spanned (p u : Vec3 ℝ) (tolerance s : ℝ) :
    (spanned p u tolerance).pointAt (p.dot u + s) = p + s • u := by
  simp only [pointAt, spanned]
  module

/-- A point of a line lies away from its origin along the direction. -/
theorem pointAt_sub_origin (l : Line ℝ) (s : ℝ) : l.pointAt s - l.origin = s • l.direction :=
  add_sub_cancel_left _ _

/-- The points of a line are at distance zero from it. -/
theorem IsNormal.distance_pointAt (hl : l.IsNormal) (s : ℝ) : l.distance (l.pointAt s) = 0 := by
  rw [distance, pointAt_sub_origin]
  simp only [Vec3.smul_dot, hl.unit, mul_one, sub_self]
  exact Vec3.norm_zero

/-- The constructor refuses points that are no further apart than the tolerance. Any other two span
a line along the unit vector from the first to the second. -/
theorem through_eq (p q : Vec3 ℝ) (tolerance : ℝ) :
    through p q tolerance =
      if (q - p).norm ≤ tolerance then .error (.coincidentPoints p q)
      else .ok (spanned p ((q - p) / (q - p).norm) tolerance) :=
  rfl

/-- A line that was built with a tolerance that is not negative is in normal form. -/
theorem isNormal_of_through (htolerance : 0 ≤ tolerance)
    (hbuilt : through p q tolerance = .ok l) : l.IsNormal ∧ l.tolerance = tolerance := by
  rw [through_eq] at hbuilt
  split_ifs at hbuilt with hnear
  obtain rfl := Except.ok.inj hbuilt
  have hnorm : (q - p).norm ≠ 0 := by linarith
  exact ⟨isNormal_spanned (Vec3.dot_self_div_norm hnorm) p tolerance, rfl⟩

/-- Two points that are one unit apart are accepted only with a tolerance below one. -/
theorem through_unit (hu : u.dot u = 1) (p : Vec3 ℝ) (tolerance : ℝ) :
    through p (p + u) tolerance =
      if 1 ≤ tolerance then .error (.coincidentPoints p (p + u))
      else .ok (spanned p u tolerance) := by
  have hdelta : p + u - p = u := by abel
  have hdirection : u / (1 : ℝ) = u := by rw [Vec3.div_eq_smul, inv_one, one_smul]
  rw [through_eq, hdelta, Vec3.norm_of_dot_self hu, hdirection]

end FrameKinematics.Line
