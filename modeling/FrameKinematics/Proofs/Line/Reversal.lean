import FrameKinematics.Proofs.Line.NormalForm

/-!
# Reversed lines

The reversed line is spanned from the same origin along the opposite unit vector, so it is the same
set of points, and the signed distances along it change their signs. Reversing it again gives the
line back. The constructor that builds it applies the tolerance of the line to two points one unit
apart, so a line with a tolerance of one or more cannot be reversed, however far apart the points
were that it was built from.
-/

namespace FrameKinematics.Line

variable {l : Line ℝ} {p q : Vec3 ℝ} {tolerance : ℝ}

/-- The line with the opposite direction. -/
noncomputable def opposite (l : Line ℝ) : Line ℝ := ⟨l.origin, -l.direction, l.tolerance⟩

/-- The opposite of the opposite line is the line. -/
theorem opposite_opposite (l : Line ℝ) : l.opposite.opposite = l := by
  simp only [opposite, neg_neg]

/-- The opposite of a line in normal form is in normal form. -/
theorem IsNormal.opposite (hl : l.IsNormal) : l.opposite.IsNormal where
  unit := by simpa only [Line.opposite, Vec3.neg_dot, Vec3.dot_neg, neg_neg] using hl.unit
  orthogonal := by simp only [Line.opposite, Vec3.dot_neg, hl.orthogonal, neg_zero]

/-- Signed distances change their signs with the direction. -/
theorem abscissa_opposite (l : Line ℝ) (point : Vec3 ℝ) :
    l.opposite.abscissa point = -l.abscissa point :=
  Vec3.dot_neg _ _

/-- The distance of a point does not depend on the orientation of the line. -/
theorem distance_opposite (l : Line ℝ) (point : Vec3 ℝ) :
    l.opposite.distance point = l.distance point := by
  simp only [distance, opposite, Vec3.dot_neg, neg_smul, smul_neg, neg_neg]

/-- A line in normal form is reversed exactly if its tolerance is below one. -/
theorem IsNormal.revert_eq (hl : l.IsNormal) :
    l.revert =
      if 1 ≤ l.tolerance then .error (.coincidentPoints l.origin (l.origin - l.direction))
      else .ok l.opposite := by
  have hunit : (-l.direction).dot (-l.direction) = 1 := hl.opposite.unit
  have hspanned : spanned l.origin (-l.direction) l.tolerance = l.opposite :=
    hl.opposite.spanned_origin
  rw [revert, sub_eq_add_neg, through_unit hunit, hspanned]

/-- One line is the reverse of another one: they have the same points with opposite signs. -/
structure IsReverse (l m : Line ℝ) : Prop where
  origin_eq : m.origin = l.origin
  tolerance_eq : m.tolerance = l.tolerance
  direction_eq : m.direction = -l.direction
  abscissa_eq : ∀ point, m.abscissa point = -l.abscissa point
  distance_eq : ∀ point, m.distance point = l.distance point

/-- The opposite line reverses a line. -/
theorem isReverse_opposite (l : Line ℝ) : l.IsReverse l.opposite :=
  ⟨rfl, rfl, rfl, l.abscissa_opposite, l.distance_opposite⟩

/-- Reversal is an involution on the lines that were built with a tolerance below one, and fails on
all others: it takes two points one unit apart for coincident. -/
theorem revert_involution (htolerance : 0 ≤ tolerance) (hbuilt : through p q tolerance = .ok l) :
    (tolerance < 1 → ∃ m, l.revert = .ok m ∧ l.IsReverse m ∧ m.revert = .ok l) ∧
    (1 ≤ tolerance → l.revert = .error (.coincidentPoints l.origin (l.origin - l.direction))) := by
  obtain ⟨hnormal, rfl⟩ := isNormal_of_through htolerance hbuilt
  refine ⟨fun hbelow => ⟨l.opposite, ?_, l.isReverse_opposite, ?_⟩, fun hlarge => ?_⟩
  · rw [hnormal.revert_eq, if_neg (not_le.mpr hbelow)]
  · have hagain : ¬1 ≤ l.opposite.tolerance := not_le.mpr hbelow
    rw [hnormal.opposite.revert_eq, if_neg hagain, opposite_opposite]
  · rw [hnormal.revert_eq, if_pos hlarge]

/-- A slanted line that does not go through the coordinate origin. -/
noncomputable def slanted (tolerance : ℝ) : Line ℝ :=
  ⟨⟨1, -0.16, 0.12⟩, ⟨0, 0.6, 0.8⟩, tolerance⟩

/-- The line is spanned by two points that are five units apart. -/
theorem through_slanted (tolerance : ℝ) (hbelow : tolerance < 5) :
    through ⟨1, 2, 3⟩ ⟨1, 5, 7⟩ tolerance = .ok (slanted tolerance) := by
  have hnorm : ((⟨1, 5, 7⟩ : Vec3 ℝ) - ⟨1, 2, 3⟩).norm = 5 := by
    rw [Vec3.norm_eq, Real.sqrt_eq_iff_mul_self_eq (by norm_num) (by norm_num)]
    norm_num
  rw [through_eq, hnorm, if_neg (not_le.mpr hbelow)]
  refine congrArg Except.ok ?_
  ext <;> norm_num [spanned, slanted, Vec3.dot, Vec3.div_eq_smul]

/-- A line through two points with a small tolerance is reversed, and comes back when it is reversed
again. -/
theorem slanted_revert_involution :
    (0 : ℝ) ≤ 1 / 2 ∧ through ⟨1, 2, 3⟩ ⟨1, 5, 7⟩ (1 / 2) = .ok (slanted (1 / 2)) ∧
    ∃ m, (slanted (1 / 2)).revert = .ok m ∧ (slanted (1 / 2)).IsReverse m ∧
      m.revert = .ok (slanted (1 / 2)) := by
  have hbuilt := through_slanted (1 / 2) (by norm_num)
  have htolerance : (0 : ℝ) ≤ 1 / 2 := by norm_num
  exact ⟨htolerance, hbuilt, (revert_involution htolerance hbuilt).1 (by norm_num)⟩

/-- With a tolerance of two units the points are accepted, but the line cannot be reversed. -/
theorem coarse_slanted_not_reversed :
    (0 : ℝ) ≤ 2 ∧ through ⟨1, 2, 3⟩ ⟨1, 5, 7⟩ (2 : ℝ) = .ok (slanted 2) ∧
    (slanted 2).revert = .error (.coincidentPoints (slanted 2).origin
      ((slanted 2).origin - (slanted 2).direction)) := by
  have hbuilt := through_slanted 2 (by norm_num)
  have hnormal := (isNormal_of_through (by norm_num) hbuilt).1
  refine ⟨by norm_num, hbuilt, ?_⟩
  rw [hnormal.revert_eq, if_pos (by norm_num [slanted])]

end FrameKinematics.Line
