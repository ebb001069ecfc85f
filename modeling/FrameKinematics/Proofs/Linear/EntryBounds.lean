import FrameKinematics.Proofs.Linear.MatrixAlgebra

/-!
# Bounds of entries

A matrix is within a bound if none of its entries is larger in absolute value. Bounds add up, and
those of scalar products, determinants and cofactors follow from those of the entries. In the other
direction the sum of the squares of the entries bounds each entry.
-/

namespace FrameKinematics

/-- No coordinate of a vector is larger than a bound, in absolute value. -/
structure Vec3.Within (u : Vec3 ℝ) (bound : ℝ) : Prop where
  x : |u.x| ≤ bound
  y : |u.y| ≤ bound
  z : |u.z| ≤ bound

/-- No entry of a matrix is larger than a bound, in absolute value. -/
structure Mat3.Within (a : Mat3 ℝ) (bound : ℝ) : Prop where
  top : a.top.Within bound
  middle : a.middle.Within bound
  bottom : a.bottom.Within bound

namespace Vec3.Within

variable {u v : Vec3 ℝ} {α β s σ : ℝ}

/-- A bound on the coordinates of a vector is not negative. -/
theorem nonneg (hu : u.Within α) : 0 ≤ α :=
  (abs_nonneg u.x).trans hu.x

/-- A bound may be taken larger. -/
theorem mono (hu : u.Within α) (hle : α ≤ β) : u.Within β :=
  ⟨hu.x.trans hle, hu.y.trans hle, hu.z.trans hle⟩

/-- The bound of a sum is the sum of the bounds. -/
theorem add (hu : u.Within α) (hv : v.Within β) : (u + v).Within (α + β) :=
  ⟨(abs_add_le _ _).trans (add_le_add hu.x hv.x), (abs_add_le _ _).trans (add_le_add hu.y hv.y),
    (abs_add_le _ _).trans (add_le_add hu.z hv.z)⟩

/-- Differences are bounded like sums. -/
theorem sub (hu : u.Within α) (hv : v.Within β) : (u - v).Within (α + β) :=
  ⟨(abs_sub _ _).trans (add_le_add hu.x hv.x), (abs_sub _ _).trans (add_le_add hu.y hv.y),
    (abs_sub _ _).trans (add_le_add hu.z hv.z)⟩

/-- The bound of a product of numbers is the product of the bounds. -/
theorem abs_mul_le {x y : ℝ} (hx : |x| ≤ α) (hy : |y| ≤ β) : |x * y| ≤ α * β := by
  rw [abs_mul]
  exact mul_le_mul hx hy (abs_nonneg y) ((abs_nonneg x).trans hx)

/-- The bound of a multiple is the product of the bounds. -/
theorem smul (hs : |s| ≤ σ) (hu : u.Within α) : (s • u).Within (σ * α) :=
  ⟨abs_mul_le hs hu.x, abs_mul_le hs hu.y, abs_mul_le hs hu.z⟩

/-- A scalar product has three terms, each of them bounded by the product of the bounds. -/
theorem abs_dot_le (hu : u.Within α) (hv : v.Within β) : |u.dot v| ≤ 3 * (α * β) := by
  have hx := abs_mul_le hu.x hv.x
  have hy := abs_mul_le hu.y hv.y
  have hz := abs_mul_le hu.z hv.z
  calc |u.dot v| ≤ |u.x * v.x| + |u.y * v.y| + |u.z * v.z| := abs_add_three _ _ _
    _ ≤ 3 * (α * β) := by linarith

/-- Each coordinate of a vector product has two such terms. -/
theorem cross (hu : u.Within α) (hv : v.Within β) : (u.cross v).Within (2 * (α * β)) := by
  have hminor {a b c d : ℝ} (ha : |a| ≤ α) (hb : |b| ≤ β) (hc : |c| ≤ α) (hd : |d| ≤ β) :
      |a * b - c * d| ≤ 2 * (α * β) := by
    have hfirst := abs_mul_le ha hb
    have hsecond := abs_mul_le hc hd
    exact (abs_sub _ _).trans (by linarith)
  exact ⟨hminor hu.y hv.z hu.z hv.y, hminor hu.z hv.x hu.x hv.z, hminor hu.x hv.y hu.y hv.x⟩

/-- The length of a vector bounds its coordinates. -/
theorem of_dot_self (hα : 0 ≤ α) (hsquares : u.dot u ≤ α ^ 2) : u.Within α := by
  have hx := mul_self_nonneg u.x
  have hy := mul_self_nonneg u.y
  have hz := mul_self_nonneg u.z
  unfold dot at hsquares
  exact ⟨abs_le_of_sq_le_sq (by linarith) hα, abs_le_of_sq_le_sq (by linarith) hα,
    abs_le_of_sq_le_sq (by linarith) hα⟩

end Vec3.Within

namespace Mat3

variable {a b : Mat3 ℝ} {α β s σ : ℝ}

namespace Within

/-- A bound on the entries of a matrix is not negative. -/
theorem nonneg (ha : a.Within α) : 0 ≤ α :=
  ha.top.nonneg

/-- A bound on entries may be taken larger. -/
theorem mono (ha : a.Within α) (hle : α ≤ β) : a.Within β :=
  ⟨ha.top.mono hle, ha.middle.mono hle, ha.bottom.mono hle⟩

/-- The bound of a sum of matrices is the sum of the bounds. -/
theorem add (ha : a.Within α) (hb : b.Within β) : (a + b).Within (α + β) :=
  ⟨ha.top.add hb.top, ha.middle.add hb.middle, ha.bottom.add hb.bottom⟩

/-- Differences of matrices are bounded like sums. -/
theorem sub (ha : a.Within α) (hb : b.Within β) : (a - b).Within (α + β) :=
  ⟨ha.top.sub hb.top, ha.middle.sub hb.middle, ha.bottom.sub hb.bottom⟩

/-- The bound of a multiple of a matrix is the product of the bounds. -/
theorem smul (hs : |s| ≤ σ) (ha : a.Within α) : (s • a).Within (σ * α) :=
  ⟨ha.top.smul hs, ha.middle.smul hs, ha.bottom.smul hs⟩

/-- The transposed matrix has the same entries. -/
theorem transpose (ha : a.Within α) : a.transpose.Within α :=
  ⟨⟨ha.top.x, ha.middle.x, ha.bottom.x⟩, ⟨ha.top.y, ha.middle.y, ha.bottom.y⟩,
    ⟨ha.top.z, ha.middle.z, ha.bottom.z⟩⟩

/-- The trace is a sum of three entries. -/
theorem abs_trace_le (ha : a.Within α) : |a.trace| ≤ 3 * α := by
  have htop := ha.top.x
  have hmiddle := ha.middle.y
  have hbottom := ha.bottom.z
  calc |a.trace| ≤ |a.top.x| + |a.middle.y| + |a.bottom.z| := abs_add_three _ _ _
    _ ≤ 3 * α := by linarith

/-- Cofactors are vector products of rows. -/
theorem cofactors (ha : a.Within α) : a.cofactors.Within (2 * (α * α)) :=
  ⟨ha.middle.cross ha.bottom, ha.bottom.cross ha.top, ha.top.cross ha.middle⟩

/-- The determinant is a scalar product of a row with a vector product of rows. -/
theorem abs_det_le (ha : a.Within α) : |a.det| ≤ 6 * α ^ 3 := by
  have hdet := ha.top.abs_dot_le (ha.middle.cross ha.bottom)
  calc |a.det| ≤ 3 * (α * (2 * (α * α))) := hdet
    _ = 6 * α ^ 3 := by ring

/-- The sum of the squares of nine entries is at most nine times the square of their bound. -/
theorem normSq_le (ha : a.Within α) : a.normSq ≤ (3 * α) ^ 2 := by
  have htop := (abs_le.mp (ha.top.abs_dot_le ha.top)).2
  have hmiddle := (abs_le.mp (ha.middle.abs_dot_le ha.middle)).2
  have hbottom := (abs_le.mp (ha.bottom.abs_dot_le ha.bottom)).2
  unfold normSq
  linarith

/-- The sum of the squares of the entries bounds the entries. -/
theorem of_normSq (hα : 0 ≤ α) (hsquares : a.normSq ≤ α ^ 2) : a.Within α := by
  have htop := a.top.dot_self_nonneg
  have hmiddle := a.middle.dot_self_nonneg
  have hbottom := a.bottom.dot_self_nonneg
  unfold normSq at hsquares
  exact ⟨.of_dot_self hα (by linarith), .of_dot_self hα (by linarith),
    .of_dot_self hα (by linarith)⟩

/-- The entries of the identity are bounded by one. -/
theorem one : (Mat3.one : Mat3 ℝ).Within 1 := by
  constructor <;> constructor <;> norm_num [Mat3.one, Vec3.unitX, Vec3.unitY, Vec3.unitZ]

/-- Only equal matrices have no distance. -/
theorem sub_zero_iff : (a - b).Within 0 ↔ a = b := by
  constructor
  · intro h
    have hentry {x y : ℝ} (hxy : |x - y| ≤ 0) : x = y := sub_eq_zero.mp (abs_nonpos_iff.mp hxy)
    ext
    · exact hentry h.top.x
    · exact hentry h.top.y
    · exact hentry h.top.z
    · exact hentry h.middle.x
    · exact hentry h.middle.y
    · exact hentry h.middle.z
    · exact hentry h.bottom.x
    · exact hentry h.bottom.y
    · exact hentry h.bottom.z
  · rintro rfl
    constructor <;> constructor <;> simp

end Within

/-- The largest entry is within a bound if and only if all entries are. -/
theorem largestEntry_le_iff (a : Mat3 ℝ) (α : ℝ) : a.largestEntry ≤ α ↔ a.Within α := by
  have hentries : a.largestEntry = max (max (max (max (max (max (max (max |a.top.x| |a.top.y|)
      |a.top.z|) |a.middle.x|) |a.middle.y|) |a.middle.z|) |a.bottom.x|) |a.bottom.y|)
      |a.bottom.z| := by
    simp [largestEntry, toList, rows, Vec3.toList, Scalar.maximum, Scalar.larger_real, Scalar.abs_real]
  rw [hentries]
  simp only [max_le_iff]
  constructor
  · rintro ⟨⟨⟨⟨⟨⟨⟨⟨hxx, hxy⟩, hxz⟩, hyx⟩, hyy⟩, hyz⟩, hzx⟩, hzy⟩, hzz⟩
    exact ⟨⟨hxx, hxy, hxz⟩, ⟨hyx, hyy, hyz⟩, ⟨hzx, hzy, hzz⟩⟩
  · rintro ⟨⟨hxx, hxy, hxz⟩, ⟨hyx, hyy, hyz⟩, ⟨hzx, hzy, hzz⟩⟩
    exact ⟨⟨⟨⟨⟨⟨⟨⟨hxx, hxy⟩, hxz⟩, hyx⟩, hyy⟩, hyz⟩, hzx⟩, hzy⟩, hzz⟩

end Mat3

end FrameKinematics
