import Mathlib.Algebra.BigOperators.Fin
import Mathlib.LinearAlgebra.Matrix.Notation
import FrameKinematics.Proofs.Rotation.MatrixForm
import FrameKinematics.Proofs.Transform.Composition

/-!
# The Jacobian of a transform

A transform maps positions and velocities by an affine map, and its Jacobian is the linear part of
this map: it takes the difference of two states to the difference of their images, exactly and not
only to first order. The chain rule follows, because the images under a composition are images of
images. Written into a larger table, the Jacobian takes the upper left corner and leaves the rest.
-/

namespace FrameKinematics

/-- The number in a row and a column of a table, if the table reaches that far. -/
def cell? {K : Type} (rows : List (List K)) (i j : ℕ) : Option K :=
  rows[i]?.bind fun row => row[j]?

namespace Motion

/-- Position and velocity as one column of six numbers. -/
def state (m : Motion ℝ) : Fin 6 → ℝ :=
  ![m.position.x, m.position.y, m.position.z, m.velocity.x, m.velocity.y, m.velocity.z]

/-- The state of a difference is the difference of the states. -/
theorem state_sub (m n : Motion ℝ) : (m - n).state = m.state - n.state := by
  funext i
  fin_cases i <;> rfl

/-- Six numbers are the position and the velocity of a motion. -/
theorem exists_state_eq (v : Fin 6 → ℝ) : ∃ m : Motion ℝ, m.state = v := by
  refine ⟨⟨⟨v 0, v 1, v 2⟩, ⟨v 3, v 4, v 5⟩, 0⟩, ?_⟩
  funext i
  fin_cases i <;> rfl

end Motion

namespace Mat3

/-- The skew symmetric matrix of a vector, times a matrix, is the matrix followed by the vector
product. -/
theorem skewProduct_apply (v u : Vec3 ℝ) (a : Mat3 ℝ) :
    (skewProduct v a).apply u = v.cross (a.apply u) := by
  ext <;> simp [skewProduct, apply, Vec3.dot] <;> ring

end Mat3

namespace Transform

section Linear

variable {s t : Transform ℝ}

/-- The Jacobian as a matrix. -/
noncomputable def jacobianMatrix (t : Transform ℝ) : Matrix (Fin 6) (Fin 6) ℝ :=
  fun i j => (cell? t.jacobian i j).getD 0

/-- The blocks of the Jacobian are the matrix of the rotation and its derivative. The neutral
transform is no exception. -/
theorem jacobianBlocks_eq (t : Transform ℝ) :
    t.jacobianBlocks = (t.angular.rotation.matrix,
      Mat3.skewProduct (-t.angular.rate) t.angular.rotation.matrix) := by
  cases t with
  | neutral =>
    have hmatrix : (Rotation.identity : Rotation ℝ).matrix = .one := Quaternion.matrix_one
    have hstill : Mat3.skewProduct (0 : Vec3 ℝ) .one = ⟨.zero, .zero, .zero⟩ := by
      ext <;> simp [Mat3.skewProduct]
    rw [jacobianBlocks, angular, AngularMotion.identity_rotation, AngularMotion.identity_rate,
      neg_zero, hmatrix, hstill]
  | dated => rfl

/-- The difference of the images of two motions is what is seen of the difference. -/
theorem mapMotion_sub_mapMotion (t : Transform ℝ) (m n : Motion ℝ) :
    t.mapMotion m - t.mapMotion n = t.angular.applyTo (m - n) := by
  cases t with
  | neutral => exact (AngularMotion.identity_applyTo _).symm
  | dated _ c a =>
    change a.applyTo (m + c) - a.applyTo (n + c) = a.applyTo (m - n)
    rw [← AngularMotion.applyTo_sub, add_sub_add_right_eq_sub]

/-- The Jacobian applied to a state, by blocks. -/
theorem jacobianMatrix_mulVec (t : Transform ℝ) (m : Motion ℝ) :
    t.jacobianMatrix.mulVec m.state =
      Motion.state ⟨t.jacobianBlocks.1.apply m.position,
        t.jacobianBlocks.2.apply m.position + t.jacobianBlocks.1.apply m.velocity, 0⟩ := by
  funext i
  fin_cases i <;>
    simp [Matrix.mulVec, dotProduct, Fin.sum_univ_succ, jacobianMatrix, cell?, jacobian,
      Motion.state, Mat3.rows, Vec3.toList, Mat3.apply, Vec3.dot] <;>
    ring

/-- The Jacobian takes the difference of two states to the difference of their images, whatever the
accelerations are. -/
theorem IsRigid.jacobianMatrix_mulVec_sub (ht : t.IsRigid) (m n : Motion ℝ) :
    t.jacobianMatrix.mulVec (m.state - n.state) =
      (t.mapMotion m).state - (t.mapMotion n).state := by
  rw [← Motion.state_sub, ← Motion.state_sub, mapMotion_sub_mapMotion, jacobianMatrix_mulVec,
    jacobianBlocks_eq, Mat3.skewProduct_apply]
  have happly (v : Vec3 ℝ) : t.angular.rotation.matrix.apply v = t.angular.rotation.apply v :=
    (Rotation.HasUnitNorm.apply_eq_matrix_apply ht v).symm
  simp only [happly, Vec3.neg_cross, neg_add_eq_sub]
  rfl

/-- The chain rule: images under a composition are images of images. -/
theorem IsRigid.jacobianMatrix_compose (hs : s.IsRigid) (ht : t.IsRigid) {u : Transform ℝ}
    (hu : u.IsRigid) (hmaps : ∀ m, u.mapMotion m = t.mapMotion (s.mapMotion m)) :
    u.jacobianMatrix = t.jacobianMatrix * s.jacobianMatrix := by
  rw [Matrix.ext_iff_mulVec]
  intro v
  obtain ⟨m, rfl⟩ := Motion.exists_state_eq v
  have hrest : m.state = m.state - (0 : Motion ℝ).state := by rw [← Motion.state_sub, sub_zero]
  rw [← Matrix.mulVec_mulVec, hrest, hu.jacobianMatrix_mulVec_sub, hmaps, hmaps,
    hs.jacobianMatrix_mulVec_sub, ht.jacobianMatrix_mulVec_sub]

end Linear

section Tables

variable {K : Type} [Scalar K] (t : Transform K)

/-- The Jacobian has six rows and six columns. -/
theorem length_jacobian : t.jacobian.length = 6 := rfl

/-- A row of the Jacobian has six numbers. -/
theorem length_of_mem_jacobian {row : List K} (hrow : row ∈ t.jacobian) : row.length = 6 := by
  have hlengths : t.jacobian.map List.length = List.replicate 6 6 := rfl
  exact List.eq_of_mem_replicate (hlengths ▸ List.mem_map_of_mem hrow)

/-- A table after the Jacobian is written into its upper left corner. -/
def overwritten (rows : List (List K)) : List (List K) :=
  (t.jacobian.zip rows).map (fun (j, row) => j ++ row.drop 6) ++ rows.drop 6

variable {rows : List (List K)}

/-- A table with six rows and columns, at least, can be written into. -/
theorem jacobianInto_eq (hrows : 6 ≤ rows.length) (hcolumns : ∀ row ∈ rows, 6 ≤ row.length) :
    t.jacobianInto rows = .ok (t.overwritten rows) := by
  have hfits : ¬(rows.length < 6 ∨ (rows.any fun row => decide (row.length < 6)) = true) := by
    rintro (hshort | hnarrow)
    · omega
    · obtain ⟨row, hrow, hlength⟩ := List.any_eq_true.mp hnarrow
      have hwide := hcolumns row hrow
      rw [decide_eq_true_eq] at hlength
      omega
  unfold jacobianInto
  exact if_neg hfits

/-- The rows that the Jacobian is written into are six. -/
theorem length_corner (hrows : 6 ≤ rows.length) :
    ((t.jacobian.zip rows).map fun (j, row) => j ++ row.drop 6).length = 6 := by
  rw [List.length_map, List.length_zip, length_jacobian]
  omega

/-- Of each of the first six rows the first six numbers are replaced. -/
theorem getElem?_overwritten_of_lt {i : ℕ} (hi : i < 6) (hrows : 6 ≤ rows.length) :
    (t.overwritten rows)[i]? = some (t.jacobian[i] ++ rows[i].drop 6) := by
  have hcorner := t.length_corner hrows
  unfold overwritten
  rw [List.getElem?_append_left (by omega), List.getElem?_eq_getElem (by omega),
    List.getElem_map, List.getElem_zip]
  rfl

/-- The rows below stay. -/
theorem getElem?_overwritten_of_le {i : ℕ} (hi : 6 ≤ i) (hrows : 6 ≤ rows.length) :
    (t.overwritten rows)[i]? = rows[i]? := by
  have hcorner := t.length_corner hrows
  have hbehind : 6 + (i - 6) = i := by omega
  unfold overwritten
  rw [List.getElem?_append_right (by omega), hcorner, List.getElem?_drop, hbehind]

/-- The upper left corner of the table that is written is the Jacobian, and the other numbers
stay. -/
theorem cell?_overwritten (hrows : 6 ≤ rows.length) (i j : ℕ) :
    cell? (t.overwritten rows) i j =
      if i < 6 ∧ j < 6 then cell? t.jacobian i j else cell? rows i j := by
  unfold cell?
  by_cases hi : i < 6
  · have hlength := t.length_of_mem_jacobian (List.getElem_mem hi)
    rw [t.getElem?_overwritten_of_lt hi hrows, List.getElem?_eq_getElem hi,
      List.getElem?_eq_getElem (show i < rows.length by omega)]
    by_cases hj : j < 6
    · rw [if_pos ⟨hi, hj⟩]
      exact List.getElem?_append_left (by omega)
    · have hbehind : 6 + (j - 6) = j := by omega
      rw [if_neg (fun h => hj h.2)]
      refine (List.getElem?_append_right (by omega)).trans ?_
      rw [hlength, List.getElem?_drop, hbehind]
      rfl
  · rw [t.getElem?_overwritten_of_le (by omega) hrows, if_neg (fun h => hi h.1)]

/-- Writing does not change the shape of a table. -/
theorem map_length_overwritten (hrows : 6 ≤ rows.length) (hcolumns : ∀ row ∈ rows, 6 ≤ row.length) :
    (t.overwritten rows).map List.length = rows.map List.length := by
  apply List.ext_getElem?
  intro i
  rw [List.getElem?_map, List.getElem?_map]
  by_cases hi : i < 6
  · have hinside : i < rows.length := by omega
    have hlength := t.length_of_mem_jacobian (List.getElem_mem hi)
    have hwide := hcolumns rows[i] (List.getElem_mem hinside)
    rw [t.getElem?_overwritten_of_lt hi hrows, List.getElem?_eq_getElem hinside, Option.map_some,
      Option.map_some, List.length_append, List.length_drop, hlength]
    congr 1
    omega
  · rw [t.getElem?_overwritten_of_le (by omega) hrows]

end Tables

variable {s t : Transform ℝ}

/-- The Jacobian of a rigid transform, the neutral one included. It is the matrix that takes an
increment of position and velocity to the exact change of the transformed position and velocity, the
Jacobian of a composition is the product of the Jacobians, and a table with six rows and columns, at
least, has the Jacobian in its upper left corner after it is written into, and elsewhere what it had
before. A table that is written into is an array of the caller; the rows that `jacobianInto` returns
are what this array holds after the call. -/
theorem jacobian_exact (hs : s.IsRigid) (ht : t.IsRigid) :
    (t.jacobian = List.ofFn fun i => List.ofFn fun j => t.jacobianMatrix i j) ∧
    (∀ m dp dv, t.jacobianMatrix.mulVec ![dp.x, dp.y, dp.z, dv.x, dv.y, dv.z] =
      (t.mapMotion ⟨m.position + dp, m.velocity + dv, m.acceleration⟩).state -
        (t.mapMotion m).state) ∧
    (∀ date, ∃ u, compose date s t = .ok u ∧
      u.jacobianMatrix = t.jacobianMatrix * s.jacobianMatrix) ∧
    (∀ rows, 6 ≤ rows.length → (∀ row ∈ rows, 6 ≤ row.length) →
      ∃ written, t.jacobianInto rows = .ok written ∧
        written.map List.length = rows.map List.length ∧
        ∀ i j, cell? written i j =
          if i < 6 ∧ j < 6 then cell? t.jacobian i j else cell? rows i j) := by
  refine ⟨rfl, fun m dp dv => ?_, fun date => ?_, fun rows hrows hcolumns => ?_⟩
  · have hincrement : ![dp.x, dp.y, dp.z, dv.x, dv.y, dv.z] =
        (⟨m.position + dp, m.velocity + dv, m.acceleration⟩ : Motion ℝ).state - m.state := by
      funext i
      fin_cases i <;> simp [Motion.state]
    rw [hincrement, ht.jacobianMatrix_mulVec_sub]
  · obtain ⟨u, hu, -, hplaces⟩ := hs.places.compose ht.places date
    refine ⟨u, hu, hs.jacobianMatrix_compose ht hplaces.isRigid fun m => ?_⟩
    rw [hplaces.mapMotion_eq, hs.places.mapMotion_eq, ht.places.mapMotion_eq, Placement.mul_act]
  · exact ⟨_, t.jacobianInto_eq hrows hcolumns, t.map_length_overwritten hrows hcolumns,
      t.cell?_overwritten hrows⟩

/-- All of this for two transforms and a table of seven rows and eight columns. -/
theorem turning_halfTurn_jacobian_exact :
    turning.IsRigid ∧ halfTurn.IsRigid ∧
      (∀ m dp dv, halfTurn.jacobianMatrix.mulVec ![dp.x, dp.y, dp.z, dv.x, dv.y, dv.z] =
        (halfTurn.mapMotion ⟨m.position + dp, m.velocity + dv, m.acceleration⟩).state -
          (halfTurn.mapMotion m).state) ∧
      (∃ u, compose .j2000 turning halfTurn = .ok u ∧
        u.jacobianMatrix = halfTurn.jacobianMatrix * turning.jacobianMatrix) ∧
      ∃ written, halfTurn.jacobianInto (List.replicate 7 (List.replicate 8 7)) = .ok written ∧
        cell? written 0 0 = some (-1) ∧ cell? written 0 7 = some 7 ∧
        cell? written 6 0 = some 7 := by
  obtain ⟨-, hchange, hchain, hwrite⟩ := jacobian_exact turning_isRigid halfTurn_isRigid
  obtain ⟨written, hwritten, -, hentries⟩ := hwrite (List.replicate 7 (List.replicate 8 7))
    (by decide) (by simp)
  have hcorner : cell? halfTurn.jacobian 0 0 = some (-1) := by
    norm_num [cell?, jacobian, jacobianBlocks, halfTurn, Rotation.matrix, Quaternion.matrix,
      Mat3.rows, Vec3.toList]
  refine ⟨turning_isRigid, halfTurn_isRigid, hchange, hchain .j2000, written, hwritten, ?_, ?_, ?_⟩
  · rw [hentries, if_pos (by decide), hcorner]
  · rw [hentries, if_neg (by decide)]
    rfl
  · rw [hentries, if_neg (by decide)]
    rfl

end Transform

end FrameKinematics
