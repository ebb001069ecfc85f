import FrameKinematics.Proofs.Calendar.NearestLabel
import FrameKinematics.Proofs.Interpolation.HermiteInterpolant
import FrameKinematics.Proofs.Source.GridRequests
import FrameKinematics.Interpolation.Motion

/-!
# Dated samples

The entries of a sample are put in order, and their distances from an instant are the abscissae of
the interpolation. At different instants the abscissae are different, and an entry at the instant of
interpolation has the abscissa zero, so the interpolation of motions goes through it.
-/

namespace FrameKinematics

namespace Instant

variable {α : Type} (date : Instant ℝ) (sample : List (Instant ℝ × α))

/-- The seconds from an instant to an entry. -/
def distance (entry : Instant ℝ × α) : ℝ := entry.1.elapsed - date.elapsed

/-- Sorting keeps all entries. -/
theorem sortOn_perm {K : Type} [Scalar K] (key : α → Instant K) (entries : List α) :
    (sortOn key entries).Perm entries :=
  List.mergeSort_perm _ _

/-- The abscissae of a sample are its distances from the instant. -/
theorem abscissaeFrom_real :
    (abscissaeFrom date sample : Except (Fault ℝ) (List ℝ)) = .ok (sample.map date.distance) := by
  apply Grid.mapM_eq_ok
  rw [List.map_map]
  exact List.map_congr_left fun entry _ => since_real entry.1 date

/-- The entries of a sample in order, with their distances from the instant. -/
noncomputable def placed : List (ℝ × α) :=
  (sortOn Prod.fst sample).map fun entry => (date.distance entry, entry.2)

/-- The sorted distances and the sorted values together are the placed entries. -/
theorem zip_distance :
    ((sortOn Prod.fst sample).map date.distance).zip ((sortOn Prod.fst sample).map Prod.snd) =
      date.placed sample :=
  List.zip_map'

/-- The placed entries are in the order of their distances. -/
theorem map_fst_placed :
    (date.placed sample).map Prod.fst = (sortOn Prod.fst sample).map date.distance := by
  rw [placed, List.map_map]
  rfl

variable {date sample} in

/-- An entry is placed with its distance. -/
theorem mem_placed {x : ℝ} {a : α} :
    (x, a) ∈ date.placed sample ↔ ∃ entry ∈ sample, date.distance entry = x ∧ entry.2 = a := by
  simp only [placed, List.mem_map, (sortOn_perm Prod.fst sample).mem_iff, Prod.mk.injEq]

/-- No two entries of a sample of at least two are at one instant. -/
structure Separates : Prop where
  size : 2 ≤ sample.length
  distinct : (sample.map fun entry => entry.1.elapsed).Nodup

variable {sample}

/-- Sorted entries have different distances from every instant. -/
theorem Separates.nodup_distance (h : Separates sample) :
    ((sortOn Prod.fst sample).map date.distance).Nodup := by
  have hdistances : (sample.map fun entry => entry.1.elapsed - date.elapsed).Nodup := by
    have hmapped := h.distinct.map (@sub_left_injective _ _ date.elapsed)
    rwa [List.map_map] at hmapped
  exact ((sortOn_perm Prod.fst sample).map _).nodup_iff.mpr hdistances

/-- A sample whose instants are apart keeps its two entries when it is sorted. -/
theorem Separates.two_le_length (h : Separates sample) :
    2 ≤ (sortOn Prod.fst sample).length := by
  rw [(sortOn_perm Prod.fst sample).length_eq]
  exact h.size

/-- Such a sample has two placed entries at least. -/
theorem Separates.two_le_length_placed (h : Separates sample) : 2 ≤ (date.placed sample).length := by
  rw [placed, List.length_map]
  exact h.two_le_length

/-- Its placed entries have different distances. -/
theorem Separates.nodup_placed (h : Separates sample) :
    ((date.placed sample).map Prod.fst).Nodup := by
  rw [map_fst_placed]
  exact h.nodup_distance date

end Instant

/-- The interpolation of vectors goes through the entry whose abscissa is the point of
evaluation. -/
theorem Hermite.vectors_at_zero {ι : Type} {entries : List ι} {x : ι → ℝ}
    {values : ι → List (Vec3 ℝ)} {order : ℕ} (horder : order ≤ 2) (hsize : 2 ≤ entries.length)
    (hdistinct : (entries.map x).Nodup) (hcounts : ∀ e ∈ entries, (values e).length = order + 1) :
    ∃ jet : Jet (Vec3 ℝ),
      (vectors order (entries.map x) (entries.map values) 0.0 : Except (Fault ℝ) _) = .ok jet ∧
        ∀ e ∈ entries, x e = 0 →
          values e = [jet.value, jet.first, jet.second].take (order + 1) := by
  have hlengths : ∀ v ∈ entries.map values, v.length = order + 1 := by
    intro v hv
    obtain ⟨e, he, rfl⟩ := List.mem_map.mp hv
    exact hcounts e he
  obtain ⟨jet, hjet, hthrough⟩ := vectors_through horder (by rwa [List.length_map]) hdistinct
    (by rw [List.length_map, List.length_map]) hlengths 0.0
  refine ⟨jet, hjet, fun e he hx => ?_⟩
  apply hthrough (x e, values e)
  · rw [List.zip_map']
    exact List.mem_map_of_mem he
  · rw [hx, Scalar.zero_literal]

namespace Selection

variable (selection : Selection)

/-- No selection uses more than two derivatives. -/
theorem order_le : selection.order ≤ 2 := by
  cases selection <;> decide

/-- A selection takes as many of three values as it uses. -/
theorem length_take {α : Type} (a b c : α) :
    ([a, b, c].take (selection.order + 1)).length = selection.order + 1 := by
  have horder := selection.order_le
  simp only [List.length_take, List.length_cons, List.length_nil]
  omega

end Selection

namespace Motion

/-- Two motions have the same position and the same derivatives as far as a selection uses them. -/
structure AgreesIn (selection : Selection) (m n : Motion ℝ) : Prop where
  position : m.position = n.position
  velocity : selection ≠ .valueOnly → m.velocity = n.velocity
  acceleration : selection = .withSecond → m.acceleration = n.acceleration

/-- The list of the values that a selection uses determines them. -/
theorem agreesIn_of_take_eq {selection : Selection} {m n : Motion ℝ}
    (h : [m.position, m.velocity, m.acceleration].take (selection.order + 1) =
      [n.position, n.velocity, n.acceleration].take (selection.order + 1)) :
    m.AgreesIn selection n := by
  cases selection <;> simp [Selection.order] at h
  case valueOnly => exact ⟨h, fun hne => absurd rfl hne, nofun⟩
  case withFirst => exact ⟨h.1, fun _ => h.2, nofun⟩
  case withSecond => exact ⟨h.1, fun _ => h.2.1, fun _ => h.2.2⟩

/-- The interpolation of motions at different instants succeeds at every instant, and at the instant
of an entry it agrees with this entry. -/
theorem exists_interpolate {sample : List (Instant ℝ × Motion ℝ)} (h : Instant.Separates sample)
    (selection : Selection) (date : Instant ℝ) :
    ∃ m, (interpolate date selection sample : Except (Fault ℝ) _) = .ok m ∧
      ∀ entry ∈ sample, entry.1.elapsed = date.elapsed → m.AgreesIn selection entry.2 := by
  let values (entry : Instant ℝ × Motion ℝ) : List (Vec3 ℝ) :=
    [entry.2.position, entry.2.velocity, entry.2.acceleration].take (selection.order + 1)
  have hcounts : ∀ e ∈ Instant.sortOn Prod.fst sample, (values e).length = selection.order + 1 :=
    fun _ _ => selection.length_take _ _ _
  obtain ⟨jet, hjet, hthrough⟩ := Hermite.vectors_at_zero selection.order_le h.two_le_length
    (h.nodup_distance date) hcounts
  refine ⟨⟨jet.value, jet.first, jet.second⟩, ?_, fun entry hentry hdate => ?_⟩
  · refine (bind_eq_of_ok (ofExcept_of_ok (date.abscissaeFrom_real _))).trans ?_
    exact bind_eq_of_ok hjet
  · have hsorted := (Instant.sortOn_perm Prod.fst sample).mem_iff.mpr hentry
    exact agreesIn_of_take_eq (hthrough entry hsorted (sub_eq_zero.mpr hdate)).symm

end Motion

end FrameKinematics
