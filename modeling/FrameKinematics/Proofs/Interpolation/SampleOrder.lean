import Mathlib.Data.List.Sort
import Mathlib.Data.Prod.Lex
import FrameKinematics.Proofs.Interpolation.ThroughSamples

/-!
# The order of a sample and refused samples

A sample is sorted before anything else is done with it. Instants are ordered linearly, so the sorted
instants are the same for every order in which a sample comes, and if they are all different the
sorted entries are, too. Samples that are too short or that have an instant twice are refused when
the translations are interpolated, by the sorted instants alone. All others are accepted, and no
later step fails for unit quaternions.
-/

namespace FrameKinematics

namespace Instant

variable {α : Type} {key : α → Instant ℝ} {entries entries' : List α}

/-- The place of an instant in the order of instants: whole seconds count first. -/
def place (t : Instant ℝ) : ℤ ×ₗ ℝ := toLex (t.seconds, t.fraction)

/-- Different instants have different places. -/
theorem place_injective : Function.Injective place := by
  intro s t h
  obtain ⟨hseconds, hfraction⟩ := Prod.mk.inj (toLex.injective h)
  exact Instant.ext hseconds hfraction

/-- An instant does not come after another one exactly if its place does not. -/
theorem not_before_iff (s t : Instant ℝ) : (!before t s) = true ↔ s.place ≤ t.place := by
  have hbefore : before t s = true ↔ t.place < s.place := by
    unfold place
    rw [Prod.Lex.toLex_lt_toLex]
    simp [before]
  rw [Bool.not_eq_true', ← Bool.not_eq_true, hbefore, not_lt]

/-- Sorted entries are in the order of their places. -/
theorem pairwise_sortOn (key : α → Instant ℝ) (entries : List α) :
    (sortOn key entries).Pairwise fun a b => (key a).place ≤ (key b).place := by
  let notAfter (a b : α) : Bool := !before (key b) (key a)
  have htrans (a b c : α) (hab : notAfter a b = true) (hbc : notAfter b c = true) :
      notAfter a c = true := by
    rw [not_before_iff] at hab hbc ⊢
    exact hab.trans hbc
  have htotal (a b : α) : (notAfter a b || notAfter b a) = true := by
    rw [Bool.or_eq_true, not_before_iff, not_before_iff]
    exact le_total _ _
  exact (List.pairwise_mergeSort htrans htotal entries).imp fun h => (not_before_iff _ _).mp h

/-- The sorted instants do not depend on the order of the entries. -/
theorem map_sortOn_of_perm (hperm : entries.Perm entries') :
    (sortOn key entries).map key = (sortOn key entries').map key := by
  have hsorted (entries : List α) :
      ((sortOn key entries).map key).Pairwise fun s t => s.place ≤ t.place :=
    List.pairwise_map.mpr (pairwise_sortOn key entries)
  have hsame : (sortOn key entries).Perm (sortOn key entries') :=
    (sortOn_perm key entries).trans (hperm.trans (sortOn_perm key entries').symm)
  exact (hsame.map key).eq_of_pairwise
    (fun s t _ _ hst hts => place_injective (le_antisymm hst hts)) (hsorted _) (hsorted _)

/-- The sorted entries do not depend on the order either, where all instants are different. -/
theorem sortOn_of_perm (hperm : entries.Perm entries') (hdistinct : (entries.map key).Nodup) :
    sortOn key entries = sortOn key entries' := by
  have hsame : (sortOn key entries).Perm (sortOn key entries') :=
    (sortOn_perm key entries).trans (hperm.trans (sortOn_perm key entries').symm)
  refine hsame.eq_of_pairwise (fun a b ha hb hab hba => ?_) (pairwise_sortOn key entries)
    (pairwise_sortOn key entries')
  have ha' : a ∈ entries := (sortOn_perm key entries).mem_iff.mp ha
  have hb' : b ∈ entries := hperm.mem_iff.mpr ((sortOn_perm key entries').mem_iff.mp hb)
  exact List.inj_on_of_nodup_map hdistinct ha' hb' (place_injective (le_antisymm hab hba))

/-- Where all fractions are less than a second, the sorted entries are in the order of the time
line. -/
theorem pairwise_elapsed_sortOn
    (hfractions : ∀ e ∈ entries, 0 ≤ (key e).fraction ∧ (key e).fraction < 1) :
    (sortOn key entries).Pairwise fun a b => (key a).elapsed ≤ (key b).elapsed := by
  refine (pairwise_sortOn key entries).imp_of_mem fun {e f} he hf hplace => ?_
  obtain ⟨-, he'⟩ := hfractions e ((sortOn_perm _ _).mem_iff.mp he)
  obtain ⟨hf', -⟩ := hfractions f ((sortOn_perm _ _).mem_iff.mp hf)
  by_contra hlater
  rw [← not_before_iff, before_of_elapsed_lt hf' he' (not_le.mp hlater)] at hplace
  cases hplace

/-- Where all fractions are less than a second, the sorted entries have growing distances from every
instant. -/
theorem Separates.pairwise_placed {sample : List (Instant ℝ × α)} (h : Separates sample)
    (hfractions : ∀ entry ∈ sample, 0 ≤ entry.1.fraction ∧ entry.1.fraction < 1)
    (date : Instant ℝ) : ((date.placed sample).map Prod.fst).Pairwise (· < ·) := by
  have hnondecreasing : ((date.placed sample).map Prod.fst).Pairwise (· ≤ ·) := by
    rw [map_fst_placed, List.pairwise_map]
    exact (pairwise_elapsed_sortOn hfractions).imp fun h => sub_le_sub_right h _
  exact hnondecreasing.imp₂ (fun _ _ hle hne => lt_of_le_of_ne hle hne) (h.nodup_placed date)

end Instant

namespace Hermite

variable {xs : List ℝ}

/-- An abscissa that comes twice is found. -/
theorem repeats_eq_true (hrepeated : ¬xs.Nodup) : repeats xs = true := by
  induction xs with
  | nil => exact absurd List.nodup_nil hrepeated
  | cons x xs ih =>
    rw [repeats, Bool.or_eq_true]
    by_cases hagain : x ∈ xs
    · left
      rw [occurs, List.any_eq_true]
      exact ⟨x, hagain, by simp⟩
    · right
      exact ih fun hrest => hrepeated (List.nodup_cons.mpr ⟨hagain, hrest⟩)

/-- A single abscissa is refused as too few. -/
theorem checkAbscissae_of_short (hshort : xs.length < 2) :
    (checkAbscissae xs : Except (Fault ℝ) Unit) = .error (.tooFewPoints xs.length 2) :=
  if_pos hshort

/-- A repeated abscissa is refused. -/
theorem checkAbscissae_of_repeated (hsize : 2 ≤ xs.length) (hrepeated : ¬xs.Nodup) :
    (checkAbscissae xs : Except (Fault ℝ) Unit) = .error (.repeatedAbscissae (.ofList xs)) := by
  have hlong : ¬xs.length < minimumSize := not_lt.mpr hsize
  unfold checkAbscissae
  rw [if_neg hlong, repeats_eq_true hrepeated]
  rfl

end Hermite

namespace Transform

variable {sample sample' : List (Transform ℝ)} {cartesian angular : Selection}
  {date : Instant ℝ}

/-- The instants of a sample, sorted, in seconds from an instant. -/
noncomputable def sortedDistances (date : Instant ℝ) (sample : List (Transform ℝ)) : List ℝ :=
  (Instant.sortOn Prod.fst (sample.map fun t => (t.date, t.cartesian))).map date.distance

/-- Each transform of a sample has a distance. -/
theorem length_sortedDistances (date : Instant ℝ) (sample : List (Transform ℝ)) :
    (sortedDistances date sample).length = sample.length := by
  unfold sortedDistances
  rw [List.length_map, (Instant.sortOn_perm _ _).length_eq, List.length_map]

/-- The sorted distances do not depend on the order of the sample. -/
theorem sortedDistances_of_perm (hperm : sample.Perm sample') :
    sortedDistances date sample = sortedDistances date sample' := by
  have hinstants := @Instant.map_sortOn_of_perm _ Prod.fst _ _
    (hperm.map fun t => (t.date, t.cartesian))
  have hdistances := congrArg (List.map fun s => s.elapsed - date.elapsed) hinstants
  rwa [List.map_map, List.map_map] at hdistances

/-- The sorted distances are different exactly if the instants are. -/
theorem nodup_sortedDistances_iff (date : Instant ℝ) (sample : List (Transform ℝ)) :
    (sortedDistances date sample).Nodup ↔ (sample.map fun t => t.date.elapsed).Nodup := by
  have hsorted := ((Instant.sortOn_perm Prod.fst
    (sample.map fun t => (t.date, t.cartesian))).map date.distance).nodup_iff
  have hshifted : (sample.map fun t => (t.date, t.cartesian)).map date.distance =
      (sample.map fun t => t.date.elapsed).map fun x => x - date.elapsed := by
    rw [List.map_map, List.map_map]
    rfl
  rw [hshifted, List.nodup_map_iff sub_left_injective] at hsorted
  exact hsorted

/-- What is refused is refused for its instants, before the rotations are looked at. -/
theorem interpolate_of_refused {fault : Fault ℝ}
    (h : Hermite.checkAbscissae (sortedDistances date sample) = .error fault) :
    (interpolate date sample (.of cartesian) (.of angular) : Except (Fault ℝ) _) =
      .error fault := by
  have hmotion : (Motion.interpolate date cartesian (sample.map fun t => (t.date, t.cartesian)) :
      Except (Fault ℝ) _) = .error fault := by
    refine (bind_eq_of_ok (ofExcept_of_ok (date.abscissaeFrom_real _))).trans ?_
    change (ofExcept (Hermite.checkAbscissae (sortedDistances date sample)) >>= fun _ => _ :
      Except (Fault ℝ) _) >>= _ = _
    rw [h]
    rfl
  change (Motion.interpolate date cartesian (sample.map fun t => (t.date, t.cartesian)) >>= _ :
    Except (Fault ℝ) _) = _
  rw [hmotion]
  rfl

/-- A sample of less than two transforms is refused as too short. -/
theorem interpolate_of_short (hshort : sample.length < 2) :
    (interpolate date sample (.of cartesian) (.of angular) : Except (Fault ℝ) _) =
      .error (.tooFewPoints sample.length 2) := by
  rw [← length_sortedDistances date sample] at hshort ⊢
  exact interpolate_of_refused (Hermite.checkAbscissae_of_short hshort)

/-- A sample with two transforms of one instant is refused. -/
theorem interpolate_of_repeated (hsize : 2 ≤ sample.length)
    (hrepeated : ¬(sample.map fun t => t.date.elapsed).Nodup) :
    (interpolate date sample (.of cartesian) (.of angular) : Except (Fault ℝ) _) =
      .error (.repeatedAbscissae (.ofList (sortedDistances date sample))) := by
  rw [← length_sortedDistances date sample] at hsize
  rw [← nodup_sortedDistances_iff date sample] at hrepeated
  exact interpolate_of_refused (Hermite.checkAbscissae_of_repeated hsize hrepeated)

/-- The interpolation of a sample does not depend on the order in which the sample comes. -/
theorem interpolate_of_perm (hperm : sample.Perm sample') :
    (interpolate date sample (.of cartesian) (.of angular) : Except (Fault ℝ) _) =
      interpolate date sample' (.of cartesian) (.of angular) := by
  have hlength := hperm.length_eq
  have hinstants := (hperm.map fun t => t.date.elapsed).nodup_iff
  by_cases hshort : sample.length < 2
  · rw [interpolate_of_short hshort, interpolate_of_short (hlength ▸ hshort), hlength]
  by_cases hdistinct : (sample.map fun t => t.date.elapsed).Nodup
  · have hdates : (sample.map Transform.date).Nodup := by
      apply List.Nodup.of_map Instant.elapsed
      rwa [List.map_map]
    have hsorted {α : Type} (part : Transform ℝ → α) :
        Instant.sortOn Prod.fst (sample.map fun t => (t.date, part t)) =
          Instant.sortOn Prod.fst (sample'.map fun t => (t.date, part t)) := by
      refine Instant.sortOn_of_perm (hperm.map _) ?_
      rwa [List.map_map]
    unfold interpolate Motion.interpolate AngularMotion.interpolate
    rw [hsorted, hsorted]
  · rw [interpolate_of_repeated (not_lt.mp hshort) hdistinct,
      interpolate_of_repeated (hlength ▸ not_lt.mp hshort) (mt hinstants.mpr hdistinct),
      sortedDistances_of_perm hperm]

/-- How the interpolation of a sample at an instant ends: in one of three ways, by the number of the
transforms and by their instants. -/
structure Settles (date : Instant ℝ) (sample : List (Transform ℝ))
    (outcome : Except (Fault ℝ) (Transform ℝ)) : Prop where
  tooFewPoints_iff : outcome = .error (.tooFewPoints sample.length 2) ↔ sample.length < 2
  repeatedAbscissae_iff : (∃ xs, outcome = .error (.repeatedAbscissae xs)) ↔
    2 ≤ sample.length ∧ ¬(sample.map fun t => t.date.elapsed).Nodup
  ok_iff : (∃ u, outcome = .ok u) ↔
    2 ≤ sample.length ∧ (sample.map fun t => t.date.elapsed).Nodup
  /-- What is found is stamped with the instant asked for. -/
  date_eq : ∀ u, outcome = .ok u → u.date = date

/-- Every sample of rigid transforms is interpolated in one of three ways. -/
theorem interpolate_settles (hrigid : ∀ t ∈ sample, t.IsRigid) (cartesian angular : Selection)
    (date : Instant ℝ) :
    Settles date sample (interpolate date sample (.of cartesian) (.of angular)) := by
  by_cases hshort : sample.length < 2
  · rw [interpolate_of_short hshort]
    have hfew : ¬2 ≤ sample.length := not_le.mpr hshort
    exact ⟨iff_of_true rfl hshort, iff_of_false nofun fun h => hfew h.1,
      iff_of_false nofun fun h => hfew h.1, nofun⟩
  have hsize : 2 ≤ sample.length := not_lt.mp hshort
  by_cases hdistinct : (sample.map fun t => t.date.elapsed).Nodup
  · obtain ⟨u, hu, hdate, -⟩ := exists_interpolate hsize hdistinct hrigid cartesian angular date
    rw [hu]
    refine ⟨iff_of_false nofun hshort, iff_of_false nofun fun h => h.2 hdistinct,
      iff_of_true ⟨u, rfl⟩ ⟨hsize, hdistinct⟩, ?_⟩
    rintro _ ⟨⟩
    exact hdate
  · rw [interpolate_of_repeated hsize hdistinct]
    exact ⟨iff_of_false nofun hshort, iff_of_true ⟨_, rfl⟩ ⟨hsize, hdistinct⟩,
      iff_of_false nofun fun h => hdistinct h.2, nofun⟩

/-- The interpolation of rigid transforms reports too few points exactly for samples of fewer than
two, it reports repeated abscissae exactly for larger samples in which two instants are equal, and
otherwise it finds a transform at the instant asked for. The order of the sample does not matter. -/
theorem interpolate_in_any_order (hrigid : ∀ t ∈ sample, t.IsRigid)
    (cartesian angular : Selection) (date : Instant ℝ) :
    ∃ outcome, Settles date sample outcome ∧ ∀ sample', sample.Perm sample' →
      (interpolate date sample' (.of cartesian) (.of angular) : Run ℝ _).Yields outcome := by
  refine ⟨_, interpolate_settles hrigid cartesian angular date, fun sample' hperm => ?_⟩
  rw [interpolate_of_perm hperm]
  exact (interpolate_computes date sample' (.of cartesian) (.of angular)).yields

/-- The neutral transform is stamped with J2000.0, and so is the other one. -/
theorem interpolate_turning_neutral_repeated :
    (∀ t ∈ [turning, neutral], t.IsRigid) ∧
      ∃ outcome, Settles ⟨7, 0.25⟩ [turning, neutral] outcome ∧
        (∃ xs, outcome = .error (.repeatedAbscissae xs)) ∧
        ∀ sample', [turning, neutral].Perm sample' →
          (interpolate ⟨7, 0.25⟩ sample' (.of .withFirst) (.of .valueOnly) :
            Run ℝ _).Yields outcome := by
  have hrigid : ∀ t ∈ [turning, neutral], t.IsRigid := by
    intro t ht
    rcases List.mem_pair.mp ht with rfl | rfl
    · exact turning_isRigid
    · exact Rotation.hasUnitNorm_identity
  obtain ⟨outcome, hsettles, hyields⟩ :=
    interpolate_in_any_order hrigid .withFirst .valueOnly ⟨7, 0.25⟩
  have hrepeated : ¬([turning, neutral].map fun t => t.date.elapsed).Nodup := by
    simp [turning, date]
  exact ⟨hrigid, outcome, hsettles, hsettles.repeatedAbscissae_iff.mpr ⟨le_rfl, hrepeated⟩, hyields⟩

end Transform

end FrameKinematics
