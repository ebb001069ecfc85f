import FrameKinematics.Proofs.Interpolation.LinearImages
import FrameKinematics.Proofs.Interpolation.ThroughSamples
import FrameKinematics.Proofs.Motion.ChangeOfAxes
import FrameKinematics.Proofs.Rotation.MatrixForm

/-!
# Interpolation in other axes

The interpolation of angular motions is followed through two runs, one with a sample and one with the
same sample between other axes of the two frames. The mean rate is turned, the same entry is the
nearest one, what is left of the entries is seen in turned axes of the new frame, and so are its
parameters. These are interpolated as vectors, which commutes with rotations. So the results of both
runs are the same angular motion, between different axes.
-/

namespace FrameKinematics

section Lists

variable {α β : Type} (f : α → β)

/-- The nearest entry is found by the abscissae alone. -/
theorem nearestToZero_map (entries : List (ℝ × α)) :
    nearestToZero (entries.map (Prod.map id f)) = (nearestToZero entries).map (Prod.map id f) := by
  cases entries with
  | nil => rfl
  | cons entry entries =>
    refine congrArg some ?_
    rw [List.foldl_map]
    refine List.foldl_hom (Prod.map id f) fun best e => ?_
    rw [apply_ite (Prod.map id f)]
    rfl

/-- The entries of a sample are put in order by their instants alone. -/
theorem Instant.placed_map (date : Instant ℝ) (sample : List (Instant ℝ × α)) :
    date.placed (sample.map (Prod.map id f)) = (date.placed sample).map (Prod.map id f) := by
  have hsorted : sortOn Prod.fst (sample.map (Prod.map id f)) =
      (sortOn Prod.fst sample).map (Prod.map id f) :=
    (List.map_mergeSort (f := Prod.map id f) fun _ _ _ _ => rfl).symm
  rw [placed, placed, hsorted, List.map_map, List.map_map]
  rfl

/-- Replacing the values of a sample leaves its instants apart. -/
theorem Instant.Separates.map {sample : List (Instant ℝ × α)} (h : Separates sample) :
    Separates (sample.map (Prod.map id f)) where
  size := by
    rw [List.length_map]
    exact h.size
  distinct := by
    rw [List.map_map]
    exact h.distinct

end Lists

/-- The mean of turned vectors is the turned mean. -/
theorem Vec3.mean_map_apply (c : Rotation ℝ) (vs : List (Vec3 ℝ)) :
    mean (vs.map c.apply) = c.apply (mean vs) := by
  have hsum : (vs.map c.apply).sum = c.apply vs.sum := by
    induction vs with
    | nil => simp
    | cons v vs ih => simp [ih]
  rw [mean_eq, mean_eq, List.length_map, hsum, Rotation.apply_smul]

namespace AngularMotion

variable {selection : Selection} {b c : Rotation ℝ}

/-- What a selection leaves out of an angular motion, it leaves out in other axes too. -/
theorem selected_changeAxes (b c : Rotation ℝ) (x : AngularMotion ℝ) :
    selected selection (x.changeAxes b c) = (selected selection x).changeAxes b c := by
  cases selection <;> ext1 <;> simp [selected]

/-- A steady rotation in other axes turns at the rate seen there. -/
theorem steady_changeAxes (b c : Rotation ℝ) (x : AngularMotion ℝ) (rate : Vec3 ℝ) :
    steady (x.changeAxes b c).rotation (c.apply rate) =
      (steady x.rotation rate).changeAxes b c := by
  ext1 <;> simp [steady]

/-- What the reference leaves is seen in turned axes. The axes of the old frame do not matter. -/
theorem leftOf_changeAxes (hb : b.HasUnitNorm) (hc : c.HasUnitNorm)
    {reference x : AngularMotion ℝ} (hreference : reference.rotation.HasUnitNorm) (dt : ℝ)
    (hx : x.rotation.HasUnitNorm) :
    leftOf selection (reference.changeAxes b c) dt (x.changeAxes b c) =
      (leftOf selection reference dt x).changeAxes c.revert c := by
  have hselected : (selected selection x).rotation.HasUnitNorm := by rwa [selected_rotation]
  have hmiddle := @changeAxes_andThen_changeAxes c.revert b.revert c
    (reference.extrapolated dt).revert (selected selection x) hb.revert hc hselected
  rw [Rotation.revert_revert] at hmiddle
  unfold leftOf
  rw [extrapolated_changeAxes hc, changeAxes_revert hb hc (hasUnitNorm_extrapolated dt hreference),
    selected_changeAxes, hmiddle]

/-- Turned axes turn the parameters. -/
theorem parameters_changeAxes (hc : c.HasUnitNorm) (x : AngularMotion ℝ) :
    parameters selection (x.changeAxes c.revert c) = (parameters selection x).map c.apply := by
  unfold parameters
  rw [toRodrigues_changeAxes hc, List.map_take]
  rfl

/-- The parameters of what the reference leaves of an entry are turned with the new axes. -/
theorem remainder_changeAxes (hb : b.HasUnitNorm) (hc : c.HasUnitNorm)
    {reference : AngularMotion ℝ} (hreference : reference.rotation.HasUnitNorm) (start : ℝ)
    {entry : ℝ × AngularMotion ℝ} (hentry : entry.2.rotation.HasUnitNorm) :
    remainder selection (reference.changeAxes b c) start (entry.map id (changeAxes b c)) =
      (remainder selection reference start entry).map c.apply := by
  unfold remainder
  rw [Prod.map_fst, Prod.map_snd, id_eq, leftOf_changeAxes hb hc hreference _ hentry,
    parameters_changeAxes hc]

section Entries

variable {entries : List (ℝ × AngularMotion ℝ)}

/-- The rates between successive entries are turned with the axes of the new frame. -/
theorem ratesBetween_changeAxes {entries : List (ℝ × AngularMotion ℝ)} {rates : List (Vec3 ℝ)}
    (hb : b.HasUnitNorm) (hc : c.HasUnitNorm)
    (hunit : ∀ entry ∈ entries, entry.2.rotation.HasUnitNorm)
    (h : ratesBetween entries = .ok rates) :
    ratesBetween (entries.map (Prod.map id (changeAxes b c))) = .ok (rates.map c.apply) := by
  match entries with
  | [] =>
    obtain rfl : [] = rates := Except.ok.inj h
    rfl
  | [_] =>
    obtain rfl : [] = rates := Except.ok.inj h
    rfl
  | (t, x) :: (u, y) :: rest =>
    have hx : x.rotation.HasUnitNorm := hunit (t, x) List.mem_cons_self
    have hy : y.rotation.HasUnitNorm := hunit (u, y) (List.mem_cons_of_mem _ List.mem_cons_self)
    obtain ⟨rate, hrate, hrest⟩ := exists_of_bind_eq_ok h
    obtain ⟨others, hothers, hwhole⟩ := exists_of_bind_eq_ok hrest
    obtain rfl : rate :: others = rates := Except.ok.inj hwhole
    have hturned := @ratesBetween_changeAxes ((u, y) :: rest) others hb hc
      (fun entry hentry => hunit entry (List.mem_cons_of_mem _ hentry)) hothers
    refine (bind_eq_of_ok (estimateRate_changeAxes hb hc hx hy hrate)).trans ?_
    exact bind_eq_of_ok hturned

/-- The mean rate is turned with the axes of the new frame. -/
theorem meanRate_changeAxes {rate : Vec3 ℝ} (hb : b.HasUnitNorm) (hc : c.HasUnitNorm)
    (hunit : ∀ entry ∈ entries, entry.2.rotation.HasUnitNorm)
    (h : meanRate selection entries = .ok rate) :
    meanRate selection (entries.map (Prod.map id (changeAxes b c))) = .ok (c.apply rate) := by
  have hgiven : Vec3.mean ((entries.map (Prod.map id (changeAxes b c))).map fun entry =>
      entry.2.rate) = c.apply (Vec3.mean (entries.map fun entry => entry.2.rate)) := by
    rw [← Vec3.mean_map_apply, List.map_map, List.map_map]
    rfl
  cases selection
  case valueOnly =>
    obtain ⟨rates, hrates, hmean⟩ := exists_of_bind_eq_ok h
    refine (bind_eq_of_ok (ratesBetween_changeAxes hb hc hunit hrates)).trans ?_
    rw [← Except.ok.inj hmean, ← Vec3.mean_map_apply]
    rfl
  case withFirst =>
    rw [← Except.ok.inj h]
    exact congrArg Except.ok hgiven
  case withSecond =>
    rw [← Except.ok.inj h]
    exact congrArg Except.ok hgiven

/-- The interpolation of the entries between other axes finds the same, between these axes. -/
theorem Interpolant.exists_changeAxes (I : Interpolant selection entries)
    (hb : b.HasUnitNorm) (hc : c.HasUnitNorm) (hsize : 2 ≤ entries.length)
    (hdistinct : (entries.map Prod.fst).Nodup)
    (hunit : ∀ entry ∈ entries, entry.2.rotation.HasUnitNorm) :
    ∃ J : Interpolant selection (entries.map (Prod.map id (changeAxes b c))),
      J.result = I.result.changeAxes b c := by
  have hnearest : (steady I.nearest.rotation I.rate).rotation.HasUnitNorm :=
    hunit _ I.nearest_spec.1
  have hmatrix : c.apply = c.matrix.apply := funext hc.apply_eq_matrix_apply
  have hremainders : (entries.map (Prod.map id (changeAxes b c))).map
      (remainder selection (steady (I.nearest.changeAxes b c).rotation (c.apply I.rate)) I.start) =
        (entries.map (remainder selection (steady I.nearest.rotation I.rate) I.start)).map
          fun values => values.map c.apply := by
    rw [List.map_map, List.map_map, steady_changeAxes]
    exact List.map_congr_left fun entry hentry =>
      remainder_changeAxes hb hc hnearest I.start (hunit entry hentry)
  have hcounts : ∀ values ∈ entries.map
      (remainder selection (steady I.nearest.rotation I.rate) I.start),
        values.length = selection.order + 1 := by
    intro values hvalues
    obtain ⟨entry, -, rfl⟩ := List.mem_map.mp hvalues
    exact length_remainder _ _
  have hvectors := Hermite.vectors_apply c.matrix (by rwa [List.length_map]) hdistinct
    (by rw [List.length_map, List.length_map]) hcounts I.vectors_eq
  rw [← hmatrix, ← hremainders] at hvectors
  have hfound : nearestToZero (entries.map (Prod.map id (changeAxes b c))) =
      some (I.start, I.nearest.changeAxes b c) := by
    rw [nearestToZero_map, I.nearest_eq]
    rfl
  have habscissae : (entries.map (Prod.map id (changeAxes b c))).map Prod.fst =
      entries.map Prod.fst := by
    rw [List.map_map]
    rfl
  rw [← habscissae] at hvectors
  refine ⟨{
    rate := c.apply I.rate
    start := I.start
    nearest := I.nearest.changeAxes b c
    jet := I.jet.map c.apply
    left := I.left.changeAxes c.revert c
    meanRate_eq := meanRate_changeAxes hb hc hunit I.meanRate_eq
    nearest_eq := hfound
    vectors_eq := hvectors
    ofRodrigues_eq := ofRodrigues_map hc I.ofRodrigues_eq }, ?_⟩
  -- Between the reference and what it leaves, the turned axes cancel.
  unfold result
  rw [steady_changeAxes, extrapolated_changeAxes hc,
    changeAxes_andThen_changeAxes hc hc I.hasUnitNorm_left]

end Entries

section Dated

variable {sample : List (Instant ℝ × AngularMotion ℝ)}

/-- In other axes the rotations of a sample keep their unit quaternions. -/
theorem hasUnitNorm_of_mem_map_changeAxes (hb : b.HasUnitNorm) (hc : c.HasUnitNorm)
    (hunit : ∀ entry ∈ sample, entry.2.rotation.HasUnitNorm) :
    ∀ entry ∈ sample.map (Prod.map id (changeAxes b c)), entry.2.rotation.HasUnitNorm := by
  intro entry hentry
  obtain ⟨former, hformer, rfl⟩ := List.mem_map.mp hentry
  exact hasUnitNorm_changeAxes hb hc (hunit former hformer)

/-- The interpolation of a sample between other axes gives the same angular motion, between these
axes. -/
theorem exists_interpolate_changeAxes (h : Instant.Separates sample)
    (hunit : ∀ entry ∈ sample, entry.2.rotation.HasUnitNorm) (selection : Selection)
    (date : Instant ℝ) :
    ∃ x, (interpolate date selection sample : Except (Fault ℝ) _) = .ok x ∧
      x.rotation.HasUnitNorm ∧ ∀ b c, b.HasUnitNorm → c.HasUnitNorm →
        (interpolate date selection (sample.map (Prod.map id (changeAxes b c))) :
          Except (Fault ℝ) _) = .ok (x.changeAxes b c) := by
  have hunits := @hasUnitNorm_of_mem_placed sample date hunit
  obtain ⟨I⟩ := nonempty_interpolant_placed h hunit selection date
  have hnearest : (steady I.nearest.rotation I.rate).rotation.HasUnitNorm :=
    hunits _ I.nearest_spec.1
  refine ⟨I.result, I.interpolate_eq h hunit, ?_, fun b c hb hc => ?_⟩
  · exact I.hasUnitNorm_left.mul (hasUnitNorm_extrapolated _ hnearest)
  · have hother := I.exists_changeAxes hb hc (h.two_le_length_placed date)
      (h.nodup_placed date) hunits
    rw [← Instant.placed_map] at hother
    obtain ⟨J, hJ⟩ := hother
    rw [← hJ]
    exact J.interpolate_eq (h.map _) (hasUnitNorm_of_mem_map_changeAxes hb hc hunit)

/-- A sample in which every angular motion is replaced, with the same instants. -/
def replaced (f : AngularMotion ℝ → Except (Fault ℝ) (AngularMotion ℝ))
    (sample : List (Instant ℝ × AngularMotion ℝ)) :
    Except (Fault ℝ) (List (Instant ℝ × AngularMotion ℝ)) :=
  sample.mapM fun entry => return (entry.1, ← f entry.2)

/-- A replacement that never fails replaces all entries. -/
theorem replaced_eq {f : AngularMotion ℝ → Except (Fault ℝ) (AngularMotion ℝ)}
    {g : AngularMotion ℝ → AngularMotion ℝ} (h : ∀ entry ∈ sample, f entry.2 = .ok (g entry.2)) :
    replaced f sample = .ok (sample.map (Prod.map id g)) := by
  apply Grid.mapM_eq_ok
  rw [List.map_map]
  exact List.map_congr_left fun entry hentry => bind_eq_of_ok (h entry hentry)

/-- Interpolation does not depend on the choice of axes. Whether a rotation that does not change
comes before every angular motion of a sample or after it, the interpolation gives what this rotation
makes of the interpolation of the sample itself. -/
theorem interpolate_in_other_axes (h : Instant.Separates sample)
    (hunit : ∀ entry ∈ sample, entry.2.rotation.HasUnitNorm) (hc : c.HasUnitNorm)
    (selection : Selection) (date : Instant ℝ) :
    ∃ x, (interpolate date selection sample : Run ℝ _).Yields (.ok x) ∧
      (∃ sample' y, replaced (fun a => (fixed c).compose a) sample = .ok sample' ∧
        (fixed c).compose x = .ok y ∧
        (interpolate date selection sample' : Run ℝ _).Yields (.ok y)) ∧
      ∃ sample' y, replaced (fun a => a.compose (fixed c)) sample = .ok sample' ∧
        x.compose (fixed c) = .ok y ∧
        (interpolate date selection sample' : Run ℝ _).Yields (.ok y) := by
  have hfixed : (fixed c).rotation.HasUnitNorm := hc
  have hidentity := Rotation.hasUnitNorm_identity
  have hbefore {a : AngularMotion ℝ} (ha : a.rotation.HasUnitNorm) :
      (fixed c).compose a = .ok (a.changeAxes c .identity) := by
    rw [compose_eq hfixed ha, fixed_andThen]
  have hafter {a : AngularMotion ℝ} (ha : a.rotation.HasUnitNorm) :
      a.compose (fixed c) = .ok (a.changeAxes .identity c) := by
    rw [compose_eq ha hfixed, andThen_fixed]
  obtain ⟨x, hx, hunitx, hother⟩ := exists_interpolate_changeAxes h hunit selection date
  refine ⟨x, ?_, ⟨_, _, replaced_eq fun e he => hbefore (hunit e he), hbefore hunitx, ?_⟩,
    ⟨_, _, replaced_eq fun e he => hafter (hunit e he), hafter hunitx, ?_⟩⟩
  · rw [← hx]
    exact (interpolate_computes date selection sample).yields
  · rw [← hother c .identity hc hidentity]
    exact (interpolate_computes date selection _).yields
  · rw [← hother .identity c hidentity hc]
    exact (interpolate_computes date selection _).yields

/-- Two entries, the later one first. -/
noncomputable def fromRest : List (Instant ℝ × AngularMotion ℝ) :=
  [(⟨3, 0.5⟩, pastHalfTurn), (⟨-2, 0⟩, identity)]

/-- A sample of two rotations is interpolated in slanted axes as it is in its own. -/
theorem interpolate_fromRest_in_slanted_axes :
    Instant.Separates fromRest ∧ (∀ entry ∈ fromRest, entry.2.rotation.HasUnitNorm) ∧
      Rotation.slanted.HasUnitNorm ∧
      ∃ x, (interpolate ⟨0, 0.25⟩ .valueOnly fromRest : Run ℝ _).Yields (.ok x) ∧
        (∃ sample' y, replaced (fun a => (fixed .slanted).compose a) fromRest = .ok sample' ∧
          (fixed .slanted).compose x = .ok y ∧
          (interpolate ⟨0, 0.25⟩ .valueOnly sample' : Run ℝ _).Yields (.ok y)) ∧
        ∃ sample' y, replaced (fun a => a.compose (fixed .slanted)) fromRest = .ok sample' ∧
          x.compose (fixed .slanted) = .ok y ∧
          (interpolate ⟨0, 0.25⟩ .valueOnly sample' : Run ℝ _).Yields (.ok y) := by
  have hseparates : Instant.Separates fromRest :=
    ⟨le_rfl, by norm_num [fromRest, Instant.elapsed]⟩
  have hpast : pastHalfTurn.rotation.HasUnitNorm := by
    norm_num [pastHalfTurn, Rotation.HasUnitNorm, Quaternion.HasUnitNorm, Quaternion.normSq]
  have hunit : ∀ entry ∈ fromRest, entry.2.rotation.HasUnitNorm := by
    intro entry hentry
    rcases List.mem_pair.mp hentry with rfl | rfl
    · exact hpast
    · exact Rotation.hasUnitNorm_identity
  have hslanted : Rotation.slanted.HasUnitNorm := by
    norm_num [Rotation.slanted, Rotation.HasUnitNorm, Quaternion.HasUnitNorm, Quaternion.normSq]
  exact ⟨hseparates, hunit, hslanted,
    interpolate_in_other_axes hseparates hunit hslanted .valueOnly ⟨0, 0.25⟩⟩

end Dated

end AngularMotion

end FrameKinematics
