import Mathlib.Data.List.Pairwise
import FrameKinematics.Proofs.Frame.Descent
import FrameKinematics.Proofs.Frame.Forest
import FrameKinematics.Scalar.Binary64

/-!
# The closest common ancestor

Depths decrease along a path, so two frames of one path are told apart by their depths, and the
first frame of a path that occurs in another path is the deepest one they share. The search first
goes up from the deeper frame to the depth of the other one. No frame that it leads past can be
shared, and from there on the frames that it comes to have the same depth, so it is enough to
compare these two.
-/

namespace FrameKinematics.Frame

variable {S K : Type}

/-- The first frame of a path that occurs in another one, if there is one. -/
def firstShared (path other : List (Frame S)) : Option (Frame S) :=
  path.find? fun h => other.any h.is

section Depths

/-- Depths decrease along a path. -/
theorem pairwise_depth_path (f : Frame S) : f.path.Pairwise fun h k => k.depth < h.depth := by
  induction f with
  | root tag name inertial => simp [path]
  | child tag name inertial parent source ih =>
    rw [path, List.pairwise_cons]
    exact ⟨fun h hmem => Nat.lt_succ_of_le (depth_le_of_mem_path hmem), ih⟩

/-- The frames of a path are told apart by their depths. -/
theorem eq_of_mem_path {f h k : Frame S} (hh : h ∈ f.path) (hk : k ∈ f.path)
    (hdepth : h.depth = k.depth) : h = k := by
  by_contra hne
  have hdepths := (pairwise_depth_path f).imp Nat.ne_of_gt
  have : Std.Symm fun h k : Frame S => h.depth ≠ k.depth := ⟨fun _ _ => Ne.symm⟩
  exact hdepths.forall hh hk hne hdepth

/-- A frame has the root of its tree in common with all frames on its path. -/
theorem top_of_mem_path {f h : Frame S} (hmem : h ∈ f.path) : h.top = f.top := by
  induction f with
  | root tag name inertial =>
    obtain rfl : h = root tag name inertial := by simpa [path] using hmem
    rfl
  | child tag name inertial parent source ih =>
    rcases List.mem_cons.mp hmem with rfl | hmem
    · rfl
    · exact ih hmem

/-- The root of a frame is on its path. -/
theorem top_mem_path (f : Frame S) : f.top ∈ f.path :=
  List.mem_of_getLast? (getLast?_path f)

end Depths

section Search

variable {frames : List (Frame S)} {f g f' g' : Frame S}

/-- In a forest, a frame is one of some frames if one of these has its tag. -/
theorem IsForest.any_is_iff_of_subset (hforest : IsForest frames) {hs : List (Frame S)}
    (hsubset : hs ⊆ frames) {h : Frame S} (hh : h ∈ frames) : hs.any h.is = true ↔ h ∈ hs := by
  rw [List.any_eq_true]
  constructor
  · rintro ⟨k, hk, his⟩
    obtain rfl := hforest.eq_of_tag_eq h hh k (hsubset hk) (by simpa [is] using his)
    exact hk
  · intro hmem
    exact ⟨h, hmem, by simp [is]⟩

/-- In a forest, a frame occurs in a path if a frame with its tag does. -/
theorem IsForest.any_is_iff (hforest : IsForest frames) {h : Frame S} (hh : h ∈ frames)
    (hg : g ∈ frames) : g.path.any h.is = true ↔ h ∈ g.path :=
  hforest.any_is_iff_of_subset (hforest.path_subset hg) hh

/-- The first frame of a path that occurs in another path is the deepest one they share. -/
theorem IsForest.firstShared_eq_some_iff (hforest : IsForest frames) (hf : f ∈ frames)
    (hg : g ∈ frames) {a : Frame S} : firstShared f.path g.path = some a ↔
      (a ∈ f.path ∧ a ∈ g.path) ∧ ∀ h, h ∈ f.path ∧ h ∈ g.path → h.depth ≤ a.depth := by
  have hany : ∀ h ∈ f.path, g.path.any h.is = true ↔ h ∈ g.path := fun h hh =>
    hforest.any_is_iff (hforest.path_subset hf hh) hg
  have hdeepest : ∀ b, firstShared f.path g.path = some b →
      (b ∈ f.path ∧ b ∈ g.path) ∧ ∀ h, h ∈ f.path ∧ h ∈ g.path → h.depth ≤ b.depth := by
    intro b hb
    obtain ⟨hshared, before, after, hpath, hbefore⟩ := List.find?_eq_some_iff_append.mp hb
    have hmem : b ∈ f.path := by simp [hpath]
    refine ⟨⟨hmem, (hany b hmem).mp hshared⟩, fun h ⟨hhf, hhg⟩ => ?_⟩
    have hdepths := pairwise_depth_path f
    rw [hpath, List.pairwise_append, List.pairwise_cons] at hdepths
    have hplace := hhf
    rw [hpath, List.mem_append, List.mem_cons] at hplace
    rcases hplace with hplace | rfl | hplace
    · have hnot := hbefore h hplace
      rw [(hany h hhf).mpr hhg] at hnot
      cases hnot
    · exact Nat.le_refl _
    · exact Nat.le_of_lt (hdepths.2.1.1 h hplace)
  refine ⟨hdeepest a, fun ⟨⟨haf, hag⟩, hmax⟩ => ?_⟩
  cases hb : firstShared f.path g.path with
  | none =>
    have hnot := List.find?_eq_none.mp hb a haf
    rw [(hany a haf).mpr hag] at hnot
    exact absurd rfl hnot
  | some b =>
    obtain ⟨hshared, hbmax⟩ := hdeepest b hb
    have hdepth : b.depth = a.depth := Nat.le_antisymm (hmax b hshared) (hbmax a ⟨haf, hag⟩)
    rw [eq_of_mem_path hshared.1 haf hdepth]

/-- Pairs of paths that share the same frames have the same one first. -/
theorem IsForest.firstShared_congr (hforest : IsForest frames) (hf : f ∈ frames) (hg : g ∈ frames)
    (hf' : f' ∈ frames) (hg' : g' ∈ frames)
    (hshared : ∀ h, h ∈ f.path ∧ h ∈ g.path ↔ h ∈ f'.path ∧ h ∈ g'.path) :
    firstShared f.path g.path = firstShared f'.path g'.path := by
  ext a
  rw [hforest.firstShared_eq_some_iff hf hg, hforest.firstShared_eq_some_iff hf' hg']
  simp only [hshared]

/-- Two paths share nothing exactly if no frame of the one occurs in the other. -/
theorem IsForest.firstShared_eq_none_iff (hforest : IsForest frames) (hf : f ∈ frames)
    (hg : g ∈ frames) : firstShared f.path g.path = none ↔ ∀ h ∈ f.path, h ∉ g.path := by
  rw [firstShared, List.find?_eq_none]
  refine forall₂_congr fun h hh => ?_
  rw [hforest.any_is_iff (hforest.path_subset hf hh) hg]

/-- Two paths share a frame exactly if they end at one root. -/
theorem shared_iff_top_eq : (∃ h ∈ f.path, h ∈ g.path) ↔ f.top = g.top := by
  constructor
  · rintro ⟨h, hhf, hhg⟩
    rw [← top_of_mem_path hhf, top_of_mem_path hhg]
  · intro htop
    exact ⟨f.top, top_mem_path f, htop ▸ top_mem_path g⟩

/-- A frame meets itself at once. -/
theorem meet_self (f : Frame S) : f.meet f = some f := by
  cases f <;> simp [meet, is]

/-- A frame and itself share the frame first. -/
theorem IsForest.firstShared_self (hforest : IsForest frames) (hf : f ∈ frames) :
    firstShared f.path f.path = some f :=
  (hforest.firstShared_eq_some_iff hf hf).mpr
    ⟨⟨self_mem_path f, self_mem_path f⟩, fun _ hh => depth_le_of_mem_path hh.1⟩

/-- A frame of the same depth as another one is on its path only if it is that frame. -/
theorem not_mem_path_of_level (hlevel : f.depth = g.depth) (hother : f ≠ g) : f ∉ g.path :=
  fun hmem => hother (eq_of_mem_path hmem (self_mem_path g) hlevel)

/-- Two frames of the same depth meet in the first frame that their paths share. -/
theorem IsForest.meet_eq_firstShared (hforest : IsForest frames) (hf : f ∈ frames)
    (hg : g ∈ frames) (hlevel : f.depth = g.depth) : f.meet g = firstShared f.path g.path := by
  induction f generalizing g with
  | root tag name inertial =>
    cases g with
    | root tag' name' inertial' =>
      by_cases hsame : (root tag name inertial).is (root tag' name' inertial' : Frame S) = true <;>
        simp [path, meet, firstShared, hsame]
    | child => cases hlevel
  | child tag name inertial parent source ih =>
    cases g with
    | root => cases hlevel
    | child tag' name' inertial' parent' source' =>
      by_cases hsame : (child tag name inertial parent source).is
          (child tag' name' inertial' parent' source') = true
      · rw [← hforest.eq_of_tag_eq _ hf _ hg (by simpa [is] using hsame), meet_self,
          hforest.firstShared_self hf]
      · have hother : child tag name inertial parent source ≠
            child tag' name' inertial' parent' source' := by
          rintro heq
          simp [heq, is] at hsame
        have hnot := not_mem_path_of_level hlevel hother
        have hnot' := not_mem_path_of_level hlevel.symm hother.symm
        have hparent := hforest.parent_mem _ hf parent rfl
        have hparent' := hforest.parent_mem _ hg parent' rfl
        have hshared : ∀ h, h ∈ (child tag name inertial parent source).path ∧
            h ∈ (child tag' name' inertial' parent' source').path ↔
              h ∈ parent.path ∧ h ∈ parent'.path := by
          intro h
          rw [path, path, List.mem_cons, List.mem_cons] at *
          grind
        rw [hforest.firstShared_congr hf hg hparent hparent' hshared,
          ← ih hparent hparent' (Nat.succ.inj hlevel), meet, if_neg hsame]
        rfl

/-- The search for the closest common ancestor finds the first frame of the one path that occurs in
the other, and fails if there is none. -/
theorem IsForest.commonAncestor_eq (hforest : IsForest frames) (hf : f ∈ frames)
    (hg : g ∈ frames) : (f.commonAncestor g : Except (Fault K) (Frame S)) =
      match firstShared f.path g.path with
      | some a => .ok a
      | none => .error (.disconnected f.name g.name) := by
  have hraised : f.raiseTo g.depth ∈ frames :=
    hforest.path_subset hf (mem_path_raiseTo.mp (self_mem_path _)).1
  have hraised' : g.raiseTo (f.raiseTo g.depth).depth ∈ frames :=
    hforest.path_subset hg (mem_path_raiseTo.mp (self_mem_path _)).1
  -- A shared frame is no deeper than either frame, and the way up leads past deeper ones only.
  have hshared : ∀ h, h ∈ f.path ∧ h ∈ g.path ↔
      h ∈ (f.raiseTo g.depth).path ∧ h ∈ (g.raiseTo (f.raiseTo g.depth).depth).path := by
    intro h
    simp only [mem_path_raiseTo, depth_raiseTo]
    constructor
    · rintro ⟨hhf, hhg⟩
      have hle := depth_le_of_mem_path hhf
      have hle' := depth_le_of_mem_path hhg
      exact ⟨⟨hhf, hle'⟩, hhg, by omega⟩
    · rintro ⟨⟨hhf, -⟩, hhg, -⟩
      exact ⟨hhf, hhg⟩
  have hlevel : (f.raiseTo g.depth).depth = (g.raiseTo (f.raiseTo g.depth).depth).depth := by
    simp only [depth_raiseTo]
    omega
  rw [hforest.firstShared_congr hf hg hraised hraised' hshared,
    ← hforest.meet_eq_firstShared hraised hraised' hlevel, commonAncestor]
  rfl

/-- The search fails exactly if the two paths share no frame, which means that they end at different
roots. -/
theorem IsForest.commonAncestor_eq_error_iff (hforest : IsForest frames) (hf : f ∈ frames)
    (hg : g ∈ frames) : f.commonAncestor g =
      (.error (.disconnected f.name g.name) : Except (Fault K) (Frame S)) ↔
        ∀ h ∈ f.path, h ∉ g.path := by
  rw [hforest.commonAncestor_eq hf hg, ← hforest.firstShared_eq_none_iff hf hg]
  cases firstShared f.path g.path <;> simp

/-- The search finds a frame exactly if it is the first one that the two paths share. -/
theorem IsForest.commonAncestor_eq_ok_iff (hforest : IsForest frames) (hf : f ∈ frames)
    (hg : g ∈ frames) {a : Frame S} :
    f.commonAncestor g = (.ok a : Except (Fault K) (Frame S)) ↔
      firstShared f.path g.path = some a := by
  rw [hforest.commonAncestor_eq hf hg]
  cases firstShared f.path g.path <;> simp

end Search

section Exactness

variable [Scalar K]

/-- The search for the closest common ancestor of two frames is exact, and the transform between
them is refused because of it only. -/
structure SearchIsExact (K : Type) [Scalar K] (f g : Frame S) : Prop where
  /-- It finds the first frame of the one path that occurs in the other path. -/
  found_iff : ∀ a, f.commonAncestor g = (.ok a : Except (Fault K) (Frame S)) ↔
    firstShared f.path g.path = some a
  /-- That is also the first frame of the other path that occurs in the one. -/
  shared_comm : firstShared f.path g.path = firstShared g.path f.path
  /-- It fails exactly if the paths share no frame. -/
  missing_iff : f.commonAncestor g =
    (.error (.disconnected f.name g.name) : Except (Fault K) (Frame S)) ↔ ∀ h ∈ f.path, h ∉ g.path
  /-- Between frames with different roots there is no transform, and no source is asked for it. -/
  refused : f.top ≠ g.top → ∀ (σ : Type) (query : S → Instant K → Stateful K σ (Transform K))
    (date : Instant K) (s : σ), (transformTo (noted query) date f g).run.run (s, []) =
      (.error (.disconnected f.name g.name), s, [])
  /-- Between different frames with one root sources are asked, and a failure is that of one of
  them, unless their transforms cannot be composed. -/
  asked : f.top = g.top → f ≠ g →
    ∀ (σ : Type) (query : S → Instant K → Stateful K σ (Transform K)) (date : Instant K) (s : σ),
      ∃ result s' calls, (transformTo (noted query) date f g).run.run (s, []) =
        (result, s', calls) ∧ calls ≠ [] ∧ ∀ fault, result = .error fault →
          fault = .zeroQuaternion ∨ ∃ call ∈ calls, call.answer = .error fault

/-- Whatever trees a program builds and wherever two frames are in them, the search for their
closest common ancestor is exact. -/
theorem commonAncestor_exact {memory : Memory K} {frames : List (Frame S)}
    (hgrown : Grown memory frames) {f g : Frame S} (hf : f ∈ frames) (hg : g ∈ frames) :
    SearchIsExact K f g := by
  have hforest := hgrown.isForest.1
  have hfound {a : Frame S} := hforest.commonAncestor_eq_ok_iff (K := K) hf hg (a := a)
  have hmissing := hforest.commonAncestor_eq_error_iff (K := K) hf hg
  refine ⟨fun a => hfound, hforest.firstShared_congr hf hg hg hf fun _ => and_comm,
    hmissing, ?_, ?_⟩
  · intro htops σ query date s
    have hother : f.is g = false := by
      by_contra hsame
      exact htops (congrArg top
        (hforest.eq_of_tag_eq f hf g hg (by simpa [is] using hsame)))
    refine transformTo_of_disconnected hother (hmissing.mpr fun h hhf hhg => ?_) _ date (s, [])
    exact htops (shared_iff_top_eq.mp ⟨h, hhf, hhg⟩)
  · intro htop hne σ query date s
    have hother : f.is g = false := by
      by_contra hsame
      exact hne (hforest.eq_of_tag_eq f hf g hg (by simpa [is] using hsame))
    obtain ⟨a, hancestor, haf, hag⟩ := hforest.commonAncestor_eq_ok (K := K) hf hg htop
    obtain ⟨calls, result, s', hrun, hinquires⟩ :=
      transformTo_inquires hother hancestor query date s
    refine ⟨result, s', calls, hrun, ?_, ?_⟩
    · rintro rfl
      obtain ⟨hdown, hacross⟩ := hinquires.eq_nil_of_calls
      have hself := (sourcesBelow_eq_nil_iff haf).mp hdown
      have hself' := (sourcesBelow_eq_nil_iff hag).mp hacross
      simp only [is, beq_iff_eq, beq_eq_false_iff_ne] at hself hself' hother
      exact hother (hself.trans hself'.symm)
    · rintro fault rfl
      exact hinquires.origin_of_error

end Exactness

section Examples

/-- The root of a tree, where sources are told apart by numbers. -/
def earth : Frame Nat := root 0 "earth" true

/-- A frame below the root. -/
def station : Frame Nat := child 1 "station" false earth 10

/-- A frame two links below the root. -/
def antenna : Frame Nat := child 2 "antenna" false station 20

/-- Another frame below the root. -/
def satellite : Frame Nat := child 3 "satellite" false earth 30

/-- The root of another tree. -/
def sun : Frame Nat := root 4 "sun" true

/-- The frames of both trees. -/
def sky : List (Frame Nat) := [sun, satellite, antenna, station, earth]

/-- These frames can be created one after the other. -/
theorem grown_sky : ∃ memory : Memory Float, Grown memory sky := by
  have hearth : Grown _ [earth] :=
    .create "earth" none none true (.start ({} : Memory Float)) (by simp) rfl
  have hstation : Grown _ [station, earth] :=
    hearth.create "station" (some earth) (some 10) false (by simp) rfl
  have hantenna : Grown _ [antenna, station, earth] :=
    hstation.create "antenna" (some station) (some 20) false (by simp) rfl
  have hsatellite : Grown _ [satellite, antenna, station, earth] :=
    hantenna.create "satellite" (some earth) (some 30) false (by simp) rfl
  exact ⟨_, hsatellite.create "sun" none none true (by simp) rfl⟩

/-- The search for a common ancestor is exact for two frames below one root and for two that are
not. -/
theorem antenna_search_exact : ∃ memory : Memory Float, Grown memory sky ∧ antenna ∈ sky ∧
    satellite ∈ sky ∧ sun ∈ sky ∧ SearchIsExact Float antenna satellite ∧
      SearchIsExact Float antenna sun := by
  obtain ⟨memory, hgrown⟩ := grown_sky
  have hantenna : antenna ∈ sky := by simp [sky]
  have hsatellite : satellite ∈ sky := by simp [sky]
  have hsun : sun ∈ sky := by simp [sky]
  exact ⟨memory, hgrown, hantenna, hsatellite, hsun,
    commonAncestor_exact hgrown hantenna hsatellite, commonAncestor_exact hgrown hantenna hsun⟩

end Examples

end FrameKinematics.Frame
