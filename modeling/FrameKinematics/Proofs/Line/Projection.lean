import Mathlib.Order.Bounds.Basic
import FrameKinematics.Proofs.Line.NormalForm

/-!
# Projection on a line

The abscissa of a point is the parameter of its foot on the line, and the vector from the foot to
the point is orthogonal to the direction. So by Pythagoras no other point of the line is as near,
and the distance that the library computes is the least one. All of this needs the normal form of a
line and nothing else, and the line through two points has it.
-/

namespace FrameKinematics.Line

variable {l : Line ℝ} {p q : Vec3 ℝ} {tolerance : ℝ}

/-- The abscissa reads back the parameter of a point of the line. -/
theorem IsNormal.abscissa_pointAt (hl : l.IsNormal) (s : ℝ) : l.abscissa (l.pointAt s) = s := by
  rw [abscissa, pointAt_sub_origin, Vec3.smul_dot, hl.unit, mul_one]

/-- The point at zero is the origin. -/
theorem pointAt_zero (l : Line ℝ) : l.pointAt 0 = l.origin := by
  rw [pointAt, zero_smul, add_zero]

/-- The distance of a point from a line is the distance from its foot. -/
theorem distance_eq_norm_sub_foot (l : Line ℝ) (point : Vec3 ℝ) :
    l.distance point = (point - l.pointAt (l.abscissa point)).norm := by
  have hoffset : point - l.pointAt (l.abscissa point) =
      point - l.origin - l.abscissa point • l.direction := by
    unfold pointAt
    abel
  rw [hoffset]
  rfl

/-- The vector from the foot of a point to the point is orthogonal to the line. -/
theorem IsNormal.sub_foot_dot (hl : l.IsNormal) (point : Vec3 ℝ) :
    (point - l.pointAt (l.abscissa point)).dot l.direction = 0 := by
  simp only [pointAt, abscissa, Vec3.sub_dot, Vec3.add_dot, Vec3.smul_dot, hl.unit]
  ring

/-- The theorem of Pythagoras for a point, its foot and any other point of the line. -/
theorem IsNormal.norm_sub_pointAt_sq (hl : l.IsNormal) (point : Vec3 ℝ) (s : ℝ) :
    (point - l.pointAt s).norm ^ 2 = l.distance point ^ 2 + (l.abscissa point - s) ^ 2 := by
  have hsplit : point - l.pointAt s =
      (point - l.pointAt (l.abscissa point)) + (l.abscissa point - s) • l.direction := by
    unfold pointAt
    module
  have hacross := hl.sub_foot_dot point
  have halong : l.direction.dot (point - l.pointAt (l.abscissa point)) = 0 := by
    rw [Vec3.dot_comm, hacross]
  rw [distance_eq_norm_sub_foot, Vec3.norm_sq, Vec3.norm_sq, hsplit]
  simp only [Vec3.add_dot, Vec3.dot_add, Vec3.smul_dot, Vec3.dot_smul, hl.unit, hacross, halong]
  ring

/-- The foot of a point is the nearest point of the line. -/
theorem IsNormal.distance_le (hl : l.IsNormal) (point : Vec3 ℝ) (s : ℝ) :
    l.distance point ≤ (point - l.pointAt s).norm := by
  have hpythagoras := hl.norm_sub_pointAt_sq point s
  refine le_of_sq_le_sq ?_ (Vec3.norm_nonneg _)
  linarith [sq_nonneg (l.abscissa point - s)]

/-- No other point of the line is as near as the foot. -/
theorem IsNormal.eq_abscissa_of_norm_eq (hl : l.IsNormal) {point : Vec3 ℝ} {s : ℝ}
    (hnear : (point - l.pointAt s).norm = l.distance point) : s = l.abscissa point := by
  have hpythagoras := hl.norm_sub_pointAt_sq point s
  rw [hnear] at hpythagoras
  have hgap : (l.abscissa point - s) ^ 2 = 0 := by linarith
  exact (sub_eq_zero.mp (pow_eq_zero_iff two_ne_zero |>.mp hgap)).symm

/-- The origin of a line is the foot of the coordinate origin. -/
theorem IsNormal.abscissa_zero (hl : l.IsNormal) : l.abscissa 0 = 0 := by
  rw [abscissa, Vec3.sub_dot, Vec3.zero_dot, hl.orthogonal, sub_zero]

/-- Any point of a line but its origin is further from the coordinate origin. -/
theorem IsNormal.norm_origin_lt (hl : l.IsNormal) {s : ℝ} (hs : s ≠ 0) :
    l.origin.norm < (l.pointAt s).norm := by
  have hdistance : l.distance 0 = l.origin.norm := by
    rw [distance_eq_norm_sub_foot, hl.abscissa_zero, pointAt_zero, zero_sub, Vec3.norm_neg]
  have hpoint : ((0 : Vec3 ℝ) - l.pointAt s).norm = (l.pointAt s).norm := by
    rw [zero_sub, Vec3.norm_neg]
  have hle := hl.distance_le 0 s
  rw [hdistance, hpoint] at hle
  refine lt_of_le_of_ne hle fun heq => hs ?_
  have hfoot : s = l.abscissa 0 := hl.eq_abscissa_of_norm_eq (by rw [hpoint, hdistance, heq])
  rw [hfoot, hl.abscissa_zero]

/-- Both points that a line is spanned from are on it, as far apart as they were. -/
theorem exists_pointAt_spanned (hne : (q - p).norm ≠ 0) (tolerance : ℝ) :
    ∃ s, (spanned p ((q - p) / (q - p).norm) tolerance).pointAt s = p ∧
      (spanned p ((q - p) / (q - p).norm) tolerance).pointAt (s + (q - p).norm) = q := by
  refine ⟨p.dot ((q - p) / (q - p).norm), ?_, ?_⟩
  · have hstart := pointAt_spanned p ((q - p) / (q - p).norm) tolerance 0
    rwa [add_zero, zero_smul, add_zero] at hstart
  · have hback : (q - p).norm • ((q - p) / (q - p).norm) = q - p := by
      rw [Vec3.div_eq_smul, smul_smul, mul_inv_cancel₀ hne, one_smul]
    rw [pointAt_spanned, hback]
    abel

/-- A line goes through two points, from the first to the second, and its origin, its abscissae and
its distances are those of Euclidean geometry. -/
structure GoesThrough (l : Line ℝ) (p q : Vec3 ℝ) : Prop where
  norm_direction : l.direction.norm = 1
  origin_dot_direction : l.origin.dot l.direction = 0
  /-- The origin is the one point of the line that is closest to the coordinate origin. -/
  origin_closest : l.pointAt 0 = l.origin ∧ ∀ s, s ≠ 0 → l.origin.norm < (l.pointAt s).norm
  distance_start : l.distance p = 0
  distance_finish : l.distance q = 0
  abscissa_sub : l.abscissa q - l.abscissa p = (q - p).norm
  abscissa_pointAt : ∀ s, l.abscissa (l.pointAt s) = s
  /-- The distance of a point is the least distance from a point of the line. -/
  distance_isLeast : ∀ point, IsLeast (Set.range fun s => (point - l.pointAt s).norm)
    (l.distance point)
  /-- It is attained at the abscissa, and nowhere else. -/
  distance_attained : ∀ point s,
    (point - l.pointAt s).norm = l.distance point ↔ s = l.abscissa point

/-- A line that has two points the right distance apart goes through both. -/
theorem IsNormal.goesThrough (hl : l.IsNormal) {s : ℝ} (hp : l.pointAt s = p)
    (hq : l.pointAt (s + (q - p).norm) = q) : l.GoesThrough p q where
  norm_direction := Vec3.norm_of_dot_self hl.unit
  origin_dot_direction := hl.orthogonal
  origin_closest := ⟨l.pointAt_zero, fun _ => hl.norm_origin_lt⟩
  distance_start := by rw [← hp, hl.distance_pointAt]
  distance_finish := by rw [← hq, hl.distance_pointAt]
  abscissa_sub := by
    have hstart : l.abscissa p = s := by rw [← hp, hl.abscissa_pointAt]
    have hfinish : l.abscissa q = s + (q - p).norm := by
      conv_lhs => rw [← hq]
      exact hl.abscissa_pointAt _
    rw [hstart, hfinish, add_sub_cancel_left]
  abscissa_pointAt := hl.abscissa_pointAt
  distance_isLeast point := by
    refine ⟨⟨l.abscissa point, (distance_eq_norm_sub_foot l point).symm⟩, ?_⟩
    rintro _ ⟨s, rfl⟩
    exact hl.distance_le point s
  distance_attained point s := by
    constructor
    · exact hl.eq_abscissa_of_norm_eq
    · rintro rfl
      exact (distance_eq_norm_sub_foot l point).symm

/-- Two points that are further apart than a tolerance span a line, and it goes through them. -/
theorem through_goesThrough (htolerance : 0 ≤ tolerance) (hapart : tolerance < (q - p).norm) :
    ∃ l, through p q tolerance = .ok l ∧ l.tolerance = tolerance ∧ l.GoesThrough p q := by
  have hne : (q - p).norm ≠ 0 := by linarith
  have hbuilt : through p q tolerance =
      .ok (spanned p ((q - p) / (q - p).norm) tolerance) := by
    rw [through_eq, if_neg (not_le.mpr hapart)]
  obtain ⟨hnormal, hkept⟩ := isNormal_of_through htolerance hbuilt
  obtain ⟨s, hp, hq⟩ := exists_pointAt_spanned hne tolerance
  exact ⟨_, hbuilt, hkept, hnormal.goesThrough hp hq⟩

/-- A tolerance of four units is allowed for two points that are five units apart. -/
theorem steep_goesThrough :
    (0 : ℝ) ≤ 4 ∧ (4 : ℝ) < ((⟨2, 3, 5⟩ : Vec3 ℝ) - ⟨2, 0, 1⟩).norm ∧
    ∃ l, through (⟨2, 0, 1⟩ : Vec3 ℝ) ⟨2, 3, 5⟩ 4 = .ok l ∧ l.tolerance = 4 ∧
      l.GoesThrough ⟨2, 0, 1⟩ ⟨2, 3, 5⟩ := by
  have htolerance : (0 : ℝ) ≤ 4 := by norm_num
  have hnorm : ((⟨2, 3, 5⟩ : Vec3 ℝ) - ⟨2, 0, 1⟩).norm = 5 := by
    rw [Vec3.norm_eq, Real.sqrt_eq_iff_mul_self_eq (by norm_num) (by norm_num)]
    norm_num
  have hapart : (4 : ℝ) < ((⟨2, 3, 5⟩ : Vec3 ℝ) - ⟨2, 0, 1⟩).norm := by
    rw [hnorm]
    norm_num
  exact ⟨htolerance, hapart, through_goesThrough htolerance hapart⟩

end FrameKinematics.Line
