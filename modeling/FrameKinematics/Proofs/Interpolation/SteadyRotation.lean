import Mathlib.Analysis.Real.Pi.Bounds
import FrameKinematics.Proofs.Interpolation.LinearImages
import FrameKinematics.Proofs.Interpolation.SampleOrder
import FrameKinematics.Proofs.Motion.FixedAxis

/-!
# Steady rotation is interpolated exactly

Where all entries of a sample lie on one steady rotation, the mean rate is the rate of this rotation:
the mean of equal rates, or of the rates between successive entries, which are found where these are
less than half a turn apart. So the reference is the rotation itself, it leaves nothing of any entry,
and the interpolation of nothing is nothing.
-/

namespace FrameKinematics

/-- Two numbers of a list, the one less than the other, with none between them. -/
structure IsGap (numbers : List ℝ) (s t : ℝ) : Prop where
  left_mem : s ∈ numbers
  right_mem : t ∈ numbers
  lt : s < t
  empty : ∀ u ∈ numbers, u ≤ s ∨ t ≤ u

/-- There is none between successive numbers that grow. -/
theorem isChain_isGap {numbers : List ℝ} (hgrowing : numbers.Pairwise (· < ·)) :
    numbers.IsChain (IsGap numbers) := by
  have hordered := List.pairwise_iff_getElem.mp hgrowing
  rw [List.isChain_iff_getElem]
  intro i hi
  refine ⟨List.getElem_mem _, List.getElem_mem _, hordered i (i + 1) _ hi (Nat.lt_succ_self i), ?_⟩
  intro u hu
  obtain ⟨j, hj, rfl⟩ := List.getElem_of_mem hu
  rcases Nat.lt_or_ge i j with hafter | hbefore
  · right
    rcases (Nat.succ_le_of_lt hafter).eq_or_lt with rfl | hbeyond
    · exact le_rfl
    · exact (hordered (i + 1) j hi hj hbeyond).le
  · left
    rcases hbefore.eq_or_lt with rfl | hbeneath
    · exact le_rfl
    · exact (hordered j i hj _ hbeneath).le

namespace AngularMotion

variable {selection : Selection}

section Parameters

variable {a b : AngularMotion ℝ}

/-- The parameters that a selection uses are those of what it uses. -/
theorem AgreesIn.parameters_eq (h : a.AgreesIn selection b) :
    parameters selection a = parameters selection b := by
  obtain ⟨rotation, rate, acceleration⟩ := a
  obtain ⟨rotation', rate', acceleration'⟩ := b
  obtain ⟨hrotation, hrate, hacceleration⟩ := h
  obtain rfl : rotation = rotation' := hrotation
  cases selection
  case valueOnly => rfl
  case withFirst =>
    obtain rfl : rate = rate' := hrate nofun
    rfl
  case withSecond =>
    obtain rfl : rate = rate' := hrate nofun
    obtain rfl : acceleration = acceleration' := hacceleration rfl
    rfl

/-- The parameters of no rotation are zero. -/
theorem parameters_identity :
    parameters selection identity = List.replicate (selection.order + 1) 0 := by
  rw [parameters, toRodrigues_of_identity rfl, identity_rate, identity_acceleration, smul_zero]
  cases selection <;> rfl

/-- Nothing is left of the reference itself, as far as a selection uses it. -/
theorem parameters_leftOf_extrapolated {reference : AngularMotion ℝ}
    (hreference : reference.rotation.HasUnitNorm) (dt : ℝ) :
    parameters selection (leftOf selection reference dt (reference.extrapolated dt)) =
      List.replicate (selection.order + 1) 0 := by
  have hleft := (@selected_agreesIn selection (reference.extrapolated dt)).andThen
    (reference.extrapolated dt).revert
  rw [revert_andThen_self (hasUnitNorm_extrapolated dt hreference)] at hleft
  exact hleft.parameters_eq.trans parameters_identity

end Parameters

section Entries

variable {entries : List (ℝ × AngularMotion ℝ)} {r : Rotation ℝ} {w : Vec3 ℝ}

/-- All entries lie on the steady rotation that is `r` at zero. -/
def LieOn (entries : List (ℝ × AngularMotion ℝ)) (r : Rotation ℝ) (w : Vec3 ℝ) : Prop :=
  ∀ entry ∈ entries, entry.2 = (steady r w).extrapolated entry.1

/-- Every entry is reached from any moment of the rotation. -/
theorem LieOn.reached (h : LieOn entries r w) {x : ℝ} {a : AngularMotion ℝ} (ha : (x, a) ∈ entries)
    (t : ℝ) : a = ((steady r w).extrapolated t).extrapolated (x - t) := by
  rw [steady_extrapolated_extrapolated, add_sub_cancel]
  exact h (x, a) ha

/-- The rates between successive entries are the rate of the rotation, where no two successive ones
are half a turn apart. -/
theorem ratesBetween_of_lieOn {entries : List (ℝ × AngularMotion ℝ)} (hr : r.HasUnitNorm)
    (hentries : LieOn entries r w)
    (hnear : entries.IsChain fun e f => e.1 < f.1 ∧ w.norm * (f.1 - e.1) < Real.pi) :
    ratesBetween entries = .ok (List.replicate (entries.length - 1) w) := by
  match entries with
  | [] => rfl
  | [_] => rfl
  | (t, a) :: (u, b) :: rest =>
    obtain ⟨⟨hlt, hless⟩, hrest⟩ := List.isChain_cons_cons.mp hnear
    obtain rfl : a = (steady r w).extrapolated t := hentries (t, a) List.mem_cons_self
    have hb := hentries.reached (List.mem_cons_of_mem _ List.mem_cons_self) t
    have hrate : estimateRate ((steady r w).extrapolated t).rotation b.rotation (u - t) = .ok w := by
      rw [hb, steady_extrapolated, steady_extrapolated]
      have hpos : 0 < u - t := sub_pos.mpr hlt
      rw [← abs_of_pos hpos] at hless
      exact estimateRate_steady ((Rotation.hasUnitNorm_swing w t).mul hr) hpos.ne' hless
    have hrates := @ratesBetween_of_lieOn ((u, b) :: rest) hr
      (fun entry hentry => hentries entry (List.mem_cons_of_mem _ hentry)) hrest
    refine (bind_eq_of_ok hrate).trans ?_
    exact bind_eq_of_ok hrates

/-- The mean rate is the rate of the rotation. -/
theorem meanRate_of_lieOn (hsize : 2 ≤ entries.length) (hr : r.HasUnitNorm)
    (hentries : LieOn entries r w)
    (hnear : selection = .valueOnly →
      entries.IsChain fun e f => e.1 < f.1 ∧ w.norm * (f.1 - e.1) < Real.pi) :
    meanRate selection entries = .ok w := by
  have hgiven : Vec3.mean (entries.map fun entry => entry.2.rate) = w := by
    have hrates : (entries.map fun entry => entry.2.rate) = List.replicate entries.length w := by
      rw [List.eq_replicate_iff]
      refine ⟨List.length_map _, fun rate hrate => ?_⟩
      obtain ⟨entry, hentry, rfl⟩ := List.mem_map.mp hrate
      rw [hentries entry hentry, steady_extrapolated]
      rfl
    rw [hrates, Vec3.mean_replicate (by omega)]
  cases selection
  case valueOnly =>
    refine (bind_eq_of_ok (ratesBetween_of_lieOn hr hentries (hnear rfl))).trans ?_
    exact congrArg Except.ok (Vec3.mean_replicate (by omega) w)
  case withFirst => exact congrArg Except.ok hgiven
  case withSecond => exact congrArg Except.ok hgiven

/-- What is found at zero is the rotation itself: the reference goes through all entries. -/
theorem Interpolant.result_of_lieOn (I : Interpolant selection entries) (hsize : 2 ≤ entries.length)
    (hdistinct : (entries.map Prod.fst).Nodup) (hr : r.HasUnitNorm) (hentries : LieOn entries r w)
    (hrate : I.rate = w) : I.result = steady r w := by
  have hnearest : I.nearest = (steady r w).extrapolated I.start := hentries _ I.nearest_spec.1
  have hreference : steady I.nearest.rotation I.rate = (steady r w).extrapolated I.start := by
    rw [hrate, hnearest, steady_rotation_extrapolated]
  have hremainders : ∀ entry ∈ entries,
      remainder selection (steady I.nearest.rotation I.rate) I.start entry =
        List.replicate (selection.order + 1) 0 := by
    intro entry hentry
    have hunit : (steady r w).rotation.HasUnitNorm := hr
    rw [remainder, hreference, hentries.reached hentry I.start]
    exact parameters_leftOf_extrapolated (hasUnitNorm_extrapolated I.start hunit) _
  have hjet : I.jet = ⟨0, 0, 0⟩ := by
    have hvectors := I.vectors_eq
    have hzero := @Hermite.vectors_zero _ selection.order (by rwa [List.length_map]) hdistinct 0.0
    rw [List.map_congr_left hremainders] at hvectors
    rw [List.map_map] at hzero
    exact Except.ok.inj (hvectors.symm.trans hzero)
  have hleft : I.left = identity := by
    have hfound := I.ofRodrigues_eq
    rw [hjet, ofRodrigues_zero, smul_zero] at hfound
    rw [← Except.ok.inj hfound]
    simp [identity]
  rw [result, hleft, andThen_identity, hreference, steady_extrapolated_extrapolated,
    add_neg_cancel, extrapolated_zero]

end Entries

section Dated

variable {a : AngularMotion ℝ} {offsets : List ℝ} {start : Instant ℝ} {d : ℝ}

/-- An angular motion shifted by some offsets, with the instants shifted by the same. -/
noncomputable def followed (start : Instant ℝ) (a : AngularMotion ℝ) (offsets : List ℝ) :
    Except (Fault ℝ) (List (Instant ℝ × AngularMotion ℝ)) :=
  offsets.mapM fun s => return (← start.shift s, ← a.shift s)

/-- The dated angular motions at some offsets from an instant. -/
noncomputable def trail (start : Instant ℝ) (a : AngularMotion ℝ) (offsets : List ℝ) :
    List (Instant ℝ × AngularMotion ℝ) :=
  offsets.map fun s => (start.later s, a.extrapolated s)

/-- Shifting a unit quaternion by the offsets never fails and gives the trail. -/
theorem followed_eq (ha : a.rotation.HasUnitNorm) (start : Instant ℝ) (offsets : List ℝ) :
    followed start a offsets = .ok (trail start a offsets) := by
  apply Grid.mapM_eq_ok
  rw [trail, List.map_map]
  refine List.map_congr_left fun s _ => ?_
  refine (bind_eq_of_ok (start.shift_real s)).trans ?_
  exact bind_eq_of_ok (shift_eq s ha)

/-- The trail has unit quaternions. -/
theorem hasUnitNorm_of_mem_trail (ha : a.rotation.HasUnitNorm) (start : Instant ℝ)
    (offsets : List ℝ) : ∀ entry ∈ trail start a offsets, entry.2.rotation.HasUnitNorm := by
  intro entry hentry
  obtain ⟨s, -, rfl⟩ := List.mem_map.mp hentry
  exact hasUnitNorm_extrapolated s ha

/-- Different offsets lead to different instants. -/
theorem separates_trail (hsize : 2 ≤ offsets.length) (hdistinct : offsets.Nodup)
    (start : Instant ℝ) (a : AngularMotion ℝ) : Instant.Separates (trail start a offsets) where
  size := by rwa [trail, List.length_map]
  distinct := by
    have helapsed : (trail start a offsets).map (fun entry => entry.1.elapsed) =
        offsets.map fun s => start.elapsed + s := by
      rw [trail, List.map_map]
      exact List.map_congr_left fun s _ => start.elapsed_later s
    rw [helapsed]
    exact hdistinct.map (add_right_injective _)

/-- Seen from an offset, the entries of a trail lie at the differences of the offsets from it. -/
theorem mem_placed_trail {x : ℝ} {b : AngularMotion ℝ} :
    (x, b) ∈ (start.later d).placed (trail start a offsets) ↔
      x + d ∈ offsets ∧ b = a.extrapolated (x + d) := by
  have hdistance (s : ℝ) (b : AngularMotion ℝ) :
      (start.later d).distance (start.later s, b) = s - d := by
    rw [Instant.distance, Instant.elapsed_later, Instant.elapsed_later, add_sub_add_left_eq_sub]
  rw [Instant.mem_placed]
  constructor
  · rintro ⟨entry, hentry, hx, rfl⟩
    obtain ⟨s, hs, rfl⟩ := List.mem_map.mp hentry
    rw [hdistance] at hx
    rw [← hx, sub_add_cancel]
    exact ⟨hs, rfl⟩
  · rintro ⟨hoffset, rfl⟩
    refine ⟨_, List.mem_map_of_mem hoffset, ?_, rfl⟩
    rw [hdistance, add_sub_cancel_right]

/-- Successive entries are apart by a gap of the offsets. -/
theorem isChain_placed_trail (hsize : 2 ≤ offsets.length) (hdistinct : offsets.Nodup) :
    ((start.later d).placed (trail start a offsets)).IsChain fun e f =>
      IsGap offsets (e.1 + d) (f.1 + d) := by
  have hfractions : ∀ entry ∈ trail start a offsets,
      0 ≤ entry.1.fraction ∧ entry.1.fraction < 1 := by
    intro entry hentry
    obtain ⟨s, -, rfl⟩ := List.mem_map.mp hentry
    exact ⟨Int.fract_nonneg _, Int.fract_lt_one _⟩
  have hmem (x : ℝ) : x ∈ ((start.later d).placed (trail start a offsets)).map Prod.fst ↔
      x + d ∈ offsets := by
    rw [List.mem_map]
    constructor
    · rintro ⟨⟨y, b⟩, hentry, rfl⟩
      exact (mem_placed_trail.mp hentry).1
    · intro hoffset
      exact ⟨(x, _), mem_placed_trail.mpr ⟨hoffset, rfl⟩, rfl⟩
  have hgrowing := (separates_trail hsize hdistinct start a).pairwise_placed hfractions
    (start.later d)
  have hchain := isChain_isGap hgrowing
  rw [List.isChain_map] at hchain
  refine hchain.imp fun e f hgap => ⟨(hmem _).mp hgap.left_mem, (hmem _).mp hgap.right_mem, ?_, ?_⟩
  · linarith [hgap.lt]
  · intro u hu
    have hbeside := hgap.empty (u - d) ((hmem _).mpr (by rwa [sub_add_cancel]))
    exact hbeside.imp sub_le_iff_le_add.mp le_sub_iff_add_le.mp

/-- The trail of a steady rotation lies on what has become of the rotation at an offset. -/
theorem lieOn_placed_trail (start : Instant ℝ) (d : ℝ) (offsets : List ℝ) (r : Rotation ℝ)
    (w : Vec3 ℝ) :
    LieOn ((start.later d).placed (trail start (steady r w) offsets))
      ((steady r w).extrapolated d).rotation w := by
  rintro ⟨x, b⟩ hentry
  obtain ⟨-, rfl⟩ := mem_placed_trail.mp hentry
  rw [steady_rotation_extrapolated, steady_extrapolated_extrapolated, add_comm]

/-- The trail of a steady rotation is interpolated by this rotation. -/
theorem interpolate_trail {r : Rotation ℝ} {w : Vec3 ℝ} (hr : r.HasUnitNorm)
    (hsize : 2 ≤ offsets.length) (hdistinct : offsets.Nodup)
    (hgaps : selection = .valueOnly → ∀ s t, IsGap offsets s t → w.norm * (t - s) < Real.pi)
    (start : Instant ℝ) (d : ℝ) :
    (interpolate (start.later d) selection (trail start (steady r w) offsets) :
      Except (Fault ℝ) _) = .ok ((steady r w).extrapolated d) := by
  have hunit : (steady r w).rotation.HasUnitNorm := hr
  have hseparates := separates_trail hsize hdistinct start (steady r w)
  have hunits := hasUnitNorm_of_mem_trail hunit start offsets
  have hentries := lieOn_placed_trail start d offsets r w
  have hmoment := hasUnitNorm_extrapolated d hunit
  obtain ⟨I⟩ := nonempty_interpolant_placed hseparates hunits selection (start.later d)
  have hrate : I.rate = w := by
    refine Except.ok.inj (I.meanRate_eq.symm.trans ?_)
    refine meanRate_of_lieOn (hseparates.two_le_length_placed _) hmoment hentries fun hvalue => ?_
    refine (isChain_placed_trail hsize hdistinct).imp fun e f hgap => ⟨?_, ?_⟩
    · linarith [hgap.lt]
    · have hless := hgaps hvalue _ _ hgap
      rwa [add_sub_add_right_eq_sub] at hless
  rw [I.interpolate_eq hseparates hunits, I.result_of_lieOn (hseparates.two_le_length_placed _)
    (hseparates.nodup_placed _) hmoment hentries hrate, steady_rotation_extrapolated]

/-- Uniform rotation is interpolated exactly. Where the rates of the sample are used, the frame may
turn arbitrarily far from one entry to the next; where they are not, by less than half a turn. -/
theorem interpolate_steady (ha : a.rotation.HasUnitNorm) (hsteady : a.acceleration = 0)
    (hsize : 2 ≤ offsets.length) (hdistinct : offsets.Nodup)
    (hgaps : selection = .valueOnly →
      ∀ s t, IsGap offsets s t → a.rate.norm * (t - s) < Real.pi)
    (start : Instant ℝ) (d : ℝ) :
    ∃ sample date b, followed start a offsets = .ok sample ∧ start.shift d = .ok date ∧
      a.shift d = .ok b ∧ b.rate = a.rate ∧ b.acceleration = 0 ∧
      (interpolate date selection sample : Run ℝ _).Yields (.ok b) := by
  have hform : a = steady a.rotation a.rate := by
    ext1
    · rfl
    · rfl
    · exact hsteady.trans Vec3.zero_eq.symm
  have hlater : a.extrapolated d = steady ((Rotation.swing a.rate d).mul a.rotation) a.rate := by
    rw [hform]
    exact steady_extrapolated _ _ _
  have hinterpolated := interpolate_trail ha hsize hdistinct hgaps start d
  rw [← hform] at hinterpolated
  refine ⟨_, _, _, followed_eq ha start offsets, start.shift_real d, shift_eq d ha, ?_, ?_, ?_⟩
  · rw [hlater]
    rfl
  · rw [hlater]
    exact Vec3.zero_eq
  · rw [← hinterpolated]
    exact (interpolate_computes _ _ _).yields

/-- One radian each second about an axis that is not one of the three. -/
noncomputable def spinning : AngularMotion ℝ := ⟨⟨⟨0.6, 0, 0.64, 0.48⟩⟩, ⟨0.6, 0.8, 0⟩, 0⟩

/-- From the first to the last entry the frame turns by more than half a turn, and the entries do not
come in order. -/
theorem interpolate_spinning :
    spinning.rotation.HasUnitNorm ∧ spinning.acceleration = 0 ∧ 2 ≤ [3, -1, 0.5].length ∧
      [(3 : ℝ), -1, 0.5].Nodup ∧
      (∀ s t, IsGap [3, -1, 0.5] s t → spinning.rate.norm * (t - s) < Real.pi) ∧
      ∃ sample date b, followed ⟨5, 0.25⟩ spinning [3, -1, 0.5] = .ok sample ∧
        (⟨5, 0.25⟩ : Instant ℝ).shift 2 = .ok date ∧ spinning.shift 2 = .ok b ∧
        b.rate = spinning.rate ∧ b.acceleration = 0 ∧
        (interpolate date .valueOnly sample : Run ℝ _).Yields (.ok b) := by
  have hunit : spinning.rotation.HasUnitNorm := by
    norm_num [spinning, Rotation.HasUnitNorm, Quaternion.HasUnitNorm, Quaternion.normSq]
  have hdistinct : [(3 : ℝ), -1, 0.5].Nodup := by norm_num
  have hnorm : spinning.rate.norm = 1 :=
    Vec3.norm_of_dot_self (by norm_num [spinning, Vec3.dot])
  have hgaps : ∀ s t, IsGap [3, -1, 0.5] s t → spinning.rate.norm * (t - s) < Real.pi := by
    intro s t hgap
    have hbetween := hgap.empty 0.5 (by simp)
    have hrange (u : ℝ) (hu : u ∈ [3, -1, 0.5]) : -1 ≤ u ∧ u ≤ 3 := by
      obtain rfl | rfl | rfl : u = 3 ∨ u = -1 ∨ u = 0.5 := by simpa using hu
      all_goals norm_num
    have hfirst := (hrange s hgap.left_mem).1
    have hlast := (hrange t hgap.right_mem).2
    have hpi := Real.pi_gt_three
    rw [hnorm, one_mul]
    rcases hbetween with hbefore | hafter <;> linarith
  exact ⟨hunit, rfl, by decide, hdistinct, hgaps,
    interpolate_steady hunit rfl (by decide) hdistinct (fun _ => hgaps) ⟨5, 0.25⟩ 2⟩

end Dated

end AngularMotion

end FrameKinematics
