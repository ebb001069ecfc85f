import FrameKinematics.Proofs.Line.Reversal
import FrameKinematics.Proofs.Transform.Composition

/-!
# Images of lines

A transform takes the points of a line to the points of a line, which the transformed direction
spans from the image of any point, with the same spacing. The image is built from the images of two
points one unit apart, to which the constructor applies the tolerance of the line. So a line with a
tolerance of one or more has an image under the neutral transform only.
-/

namespace FrameKinematics.Transform

variable {t : Transform ℝ} {l : Line ℝ} {p q : Vec3 ℝ} {tolerance : ℝ}

/-- The image of a point that is shifted by a free vector is shifted by the image of the vector. -/
theorem mapPosition_add (t : Transform ℝ) (p v : Vec3 ℝ) :
    t.mapPosition (p + v) = t.mapPosition p + t.mapVector v := by
  cases t with
  | neutral => rfl
  | dated _ c a =>
    change a.rotation.apply (p + v + c.position) =
      a.rotation.apply (p + c.position) + a.rotation.apply v
    rw [← Rotation.apply_add]
    congr 1
    abel

/-- The image of a multiple of a vector is the multiple of the image. -/
theorem mapVector_smul (t : Transform ℝ) (s : ℝ) (v : Vec3 ℝ) :
    t.mapVector (s • v) = s • t.mapVector v := by
  cases t with
  | neutral => rfl
  | dated _ c a => exact Rotation.apply_smul v a.rotation s

/-- Rigid transforms keep the scalar products of free vectors. -/
theorem IsRigid.mapVector_dot (ht : t.IsRigid) (u v : Vec3 ℝ) :
    (t.mapVector u).dot (t.mapVector v) = u.dot v := by
  cases t with
  | neutral => rfl
  | dated _ c a => exact Rotation.HasUnitNorm.apply_dot u v ht

/-- A line is the image of another one: it has the image of the direction and the same tolerance,
and the points of the line become points of the image, with the same spacing. -/
structure IsLineImage (t : Transform ℝ) (l m : Line ℝ) : Prop where
  direction_eq : m.direction = t.mapVector l.direction
  tolerance_eq : m.tolerance = l.tolerance
  distance_eq_zero : ∀ s, m.distance (t.mapPosition (l.pointAt s)) = 0
  exists_pointAt_eq : ∃ start, ∀ s, m.pointAt (start + s) = t.mapPosition (l.pointAt s)

/-- The line that the image of the direction spans from the image of the origin. -/
noncomputable def lineImage (t : Transform ℝ) (l : Line ℝ) : Line ℝ :=
  .spanned (t.mapPosition l.origin) (t.mapVector l.direction) l.tolerance

/-- The image of a line has the images of its points, with a shift along the line. -/
theorem pointAt_lineImage (t : Transform ℝ) (l : Line ℝ) (s : ℝ) :
    (t.lineImage l).pointAt ((t.mapPosition l.origin).dot (t.mapVector l.direction) + s) =
      t.mapPosition (l.pointAt s) := by
  have himage : t.mapPosition (l.pointAt s) =
      t.mapPosition l.origin + s • t.mapVector l.direction := by
    rw [Line.pointAt, mapPosition_add, mapVector_smul]
  rw [himage]
  exact Line.pointAt_spanned _ _ _ _

/-- A rigid transform maps a line in normal form to one in normal form. -/
theorem IsRigid.isLineImage (ht : t.IsRigid) (hl : l.IsNormal) :
    t.IsLineImage l (t.lineImage l) where
  direction_eq := rfl
  tolerance_eq := rfl
  distance_eq_zero s := by
    have hunit : (t.mapVector l.direction).dot (t.mapVector l.direction) = 1 := by
      rw [ht.mapVector_dot, hl.unit]
    rw [← pointAt_lineImage]
    exact (Line.isNormal_spanned hunit _ _).distance_pointAt _
  exists_pointAt_eq := ⟨_, t.pointAt_lineImage l⟩

/-- A line in normal form has its image under a rigid transform, unless the transform is not the
neutral one and the tolerance of the line is one or more. -/
theorem IsRigid.mapLine_eq (ht : t.IsRigid) (hl : l.IsNormal) :
    t.mapLine l =
      if t.isNeutral = false ∧ 1 ≤ l.tolerance then
        .error (.coincidentPoints (t.mapPosition l.origin)
          (t.mapPosition (l.origin + l.direction)))
      else .ok (t.lineImage l) := by
  cases t with
  | neutral => exact congrArg Except.ok hl.spanned_origin.symm
  | dated date c a =>
    have hunit := (ht.mapVector_dot l.direction l.direction).trans hl.unit
    rw [mapLine, mapPosition_add, Line.through_unit hunit]
    simp only [isNeutral, true_and]
    rfl

/-- A rigid transform moves every line that was built with a tolerance below one to its image. The
neutral transform leaves all lines as they are, and any other one fails on the lines with a larger
tolerance: it takes the images of two points one unit apart for coincident. -/
theorem mapLine_image (ht : t.IsRigid) (htolerance : 0 ≤ tolerance)
    (hbuilt : Line.through p q tolerance = .ok l) :
    (t.isNeutral = true ∨ tolerance < 1 → ∃ m, t.mapLine l = .ok m ∧ t.IsLineImage l m) ∧
    (t.isNeutral = false → 1 ≤ tolerance → t.mapLine l = .error
      (.coincidentPoints (t.mapPosition l.origin) (t.mapPosition (l.origin + l.direction)))) := by
  obtain ⟨hnormal, rfl⟩ := Line.isNormal_of_through htolerance hbuilt
  rw [ht.mapLine_eq hnormal]
  refine ⟨fun hmoves => ⟨t.lineImage l, if_neg ?_, ht.isLineImage hnormal⟩,
    fun hother hlarge => if_pos ⟨hother, hlarge⟩⟩
  rintro ⟨hother, hlarge⟩
  rcases hmoves with hneutral | hbelow
  · rw [hneutral] at hother
    cases hother
  · linarith

/-- A line through two points with a small tolerance has an image. -/
theorem turning_slanted_image :
    turning.IsRigid ∧ (0 : ℝ) ≤ 1 / 2 ∧
    Line.through ⟨1, 2, 3⟩ ⟨1, 5, 7⟩ (1 / 2) = .ok (Line.slanted (1 / 2)) ∧
    ∃ m, turning.mapLine (.slanted (1 / 2)) = .ok m ∧ turning.IsLineImage (.slanted (1 / 2)) m := by
  have hbuilt := Line.through_slanted (1 / 2) (by norm_num)
  have htolerance : (0 : ℝ) ≤ 1 / 2 := by norm_num
  exact ⟨turning_isRigid, htolerance, hbuilt,
    (mapLine_image turning_isRigid htolerance hbuilt).1 (.inr (by norm_num))⟩

/-- With a tolerance of two units the points are accepted, but the line has no image. -/
theorem turning_coarse_slanted_no_image :
    turning.IsRigid ∧ (0 : ℝ) ≤ 2 ∧
    Line.through ⟨1, 2, 3⟩ ⟨1, 5, 7⟩ (2 : ℝ) = .ok (Line.slanted 2) ∧
    turning.mapLine (.slanted 2) = .error
      (.coincidentPoints (turning.mapPosition (Line.slanted 2).origin)
        (turning.mapPosition ((Line.slanted 2).origin + (Line.slanted 2).direction))) := by
  have hbuilt := Line.through_slanted 2 (by norm_num)
  have hnormal := (Line.isNormal_of_through (by norm_num) hbuilt).1
  refine ⟨turning_isRigid, by norm_num, hbuilt, ?_⟩
  rw [turning_isRigid.mapLine_eq hnormal]
  exact if_pos ⟨rfl, by norm_num [Line.slanted]⟩

end FrameKinematics.Transform
