import Mathlib.Tactic.Group
import FrameKinematics.Proofs.Frame.Forest
import FrameKinematics.Proofs.Source.SourceLaws
import FrameKinematics.Proofs.Transform.Composition

/-!
# Independence of the path

Give each frame the placement that the links from its root down to it add up to. Then the
transform from one frame to another has the inverse of the first placement times the second,
whatever common ancestor it goes through. Transforms along any way through a tree therefore
compose to the transform of the direct way. Sources may remember things, as long as their transforms
depend on the instant alone while what they remember is right.
-/

namespace FrameKinematics.Frame

variable {S : Type}

/-- The placement of a frame relative to its root, where `step` gives the placements of the
links. -/
noncomputable def descent (step : S → Placement) : Frame S → Placement
  | root .. => 1
  | child _ _ _ parent source => parent.descent step * step source

/-- The links between an ancestor and a frame take the placement of the one to that of the
other. -/
theorem IsForest.prod_sourcesBelow {frames : List (Frame S)} (hforest : IsForest frames)
    (step : S → Placement) {a f : Frame S} (hf : f ∈ frames) (ha : a ∈ f.path) :
    ((sourcesBelow a f).map step).prod = (a.descent step)⁻¹ * f.descent step := by
  have hmem : a ∈ frames := hforest.path_subset hf ha
  induction f with
  | root tag name inertial =>
    obtain rfl : a = root tag name inertial := by simpa [path] using ha
    simp [sourcesBelow, descent]
  | child tag name inertial parent source ih =>
    by_cases hsame : (child tag name inertial parent source).is a
    · obtain rfl : child tag name inertial parent source = a :=
        hforest.eq_of_tag_eq _ hf _ hmem (by simpa [is] using hsame)
      simp [sourcesBelow, hsame]
    · have ha' : a ∈ parent.path := by
        rcases List.mem_cons.mp ha with rfl | ha'
        · simp [is] at hsame
        · exact ha'
      have hparent := hforest.parent_mem _ hf parent rfl
      simp [sourcesBelow, hsame, descent, ih hparent ha', mul_assoc]

/-- The links between an ancestor and a frame belong to frames on the path. -/
theorem exists_of_mem_sourcesBelow {a f : Frame S} {source : S} (h : source ∈ sourcesBelow a f) :
    ∃ g ∈ f.path, source ∈ g.source? := by
  induction f with
  | root => simp [sourcesBelow] at h
  | child tag name inertial parent link ih =>
    by_cases hsame : (child tag name inertial parent link).is a
    · simp [sourcesBelow, hsame] at h
    · rw [sourcesBelow, if_neg hsame, List.mem_append, List.mem_singleton] at h
      rcases h with h | rfl
      · obtain ⟨g, hg, hsource⟩ := ih h
        exact ⟨g, List.mem_cons_of_mem _ hg, hsource⟩
      · exact ⟨_, self_mem_path _, rfl⟩

section Queries

variable {I : Memory ℝ → Prop} {query : S → Instant ℝ → Run ℝ (Transform ℝ)}
  {law : S → Instant ℝ → Transform ℝ} {date : Instant ℝ}

/-- Composing the transforms of sources, one after the other, multiplies their placements. -/
theorem foldlM_places {sources : List S}
    (hquery : ∀ source ∈ sources, Run.Gives I (query source date) (.ok (law source date)))
    (hrigid : ∀ source ∈ sources, (law source date).IsRigid)
    {t : Transform ℝ} {g : Placement} (ht : t.Places g) :
    ∃ u : Transform ℝ, u.Places (g * (sources.map fun s => (law s date).placement).prod) ∧
      Run.Gives I (sources.foldlM (fun above source => do
        let link ← query source date
        ofExcept (above.compose date link)) t) (.ok u) := by
  induction sources generalizing t g with
  | nil => exact ⟨t, by simpa using ht, Run.gives_pure t⟩
  | cons source sources ih =>
    rw [List.forall_mem_cons] at hquery hrigid
    obtain ⟨next, hnext, -, hplaces⟩ := ht.compose hrigid.1.places date
    obtain ⟨u, hu, hrest⟩ := ih hquery.2 hrigid.2 hplaces
    refine ⟨u, by simpa [mul_assoc] using hu, ?_⟩
    rw [List.foldlM_cons]
    exact (hquery.1.bind_ok (Run.gives_of_eq hnext)).bind_ok hrest

variable {frames : List (Frame S)}

/-- The transform from an ancestor down to a frame exists, and its placement is that of the frame
seen from the ancestor. -/
theorem IsForest.transformFrom_places (hforest : IsForest frames)
    (hquery : ∀ f ∈ frames, ∀ source ∈ f.source?,
      Run.Gives I (query source date) (.ok (law source date)))
    (hrigid : ∀ f ∈ frames, ∀ source ∈ f.source?, (law source date).IsRigid)
    {a f : Frame S} (hf : f ∈ frames) (ha : a ∈ f.path) :
    ∃ t : Transform ℝ, Run.Gives I (transformFrom query date a f) (.ok t) ∧
      t.Places ((a.descent fun s => (law s date).placement)⁻¹ *
        f.descent fun s => (law s date).placement) := by
  have hbelow : ∀ source ∈ sourcesBelow a f,
      Run.Gives I (query source date) (.ok (law source date)) ∧ (law source date).IsRigid := by
    intro source hsource
    obtain ⟨g, hg, hlink⟩ := exists_of_mem_sourcesBelow hsource
    have hmem := hforest.path_subset hf hg
    exact ⟨hquery g hmem source hlink, hrigid g hmem source hlink⟩
  obtain ⟨t, ht, hrun⟩ := foldlM_places (fun source h => (hbelow source h).1)
    (fun source h => (hbelow source h).2) Transform.neutral_places
  rw [one_mul, hforest.prod_sourcesBelow _ hf ha] at ht
  exact ⟨t, hrun, ht⟩

/-- The transform from one frame of a tree to another exists, and its placement is that of the
other frame seen from the one. -/
theorem IsForest.transformTo_places (hforest : IsForest frames)
    (hquery : ∀ f ∈ frames, ∀ source ∈ f.source?,
      Run.Gives I (query source date) (.ok (law source date)))
    (hrigid : ∀ f ∈ frames, ∀ source ∈ f.source?, (law source date).IsRigid)
    {f g : Frame S} (hf : f ∈ frames) (hg : g ∈ frames) (htop : f.top = g.top) :
    ∃ t : Transform ℝ, Run.Gives I (transformTo query date f g) (.ok t) ∧
      t.Places ((f.descent fun s => (law s date).placement)⁻¹ *
        g.descent fun s => (law s date).placement) := by
  by_cases hsame : f.is g
  · obtain rfl : f = g := hforest.eq_of_tag_eq f hf g hg (by simpa [is] using hsame)
    refine ⟨.neutral, ?_, by simpa using Transform.neutral_places⟩
    rw [transformTo, if_pos hsame]
    exact Run.gives_pure _
  · obtain ⟨a, hancestor, haf, hag⟩ := hforest.commonAncestor_eq_ok (K := ℝ) hf hg htop
    obtain ⟨toSelf, hrunSelf, hself⟩ := hforest.transformFrom_places hquery hrigid hf haf
    obtain ⟨toOther, hrunOther, hother⟩ := hforest.transformFrom_places hquery hrigid hg hag
    obtain ⟨t, ht, -, hplaces⟩ := hself.inverse.compose hother date
    refine ⟨t, ?_, ?_⟩
    · rw [transformTo, if_neg hsame]
      exact (Run.gives_of_eq hancestor).bind_ok
        (hrunSelf.bind_ok (hrunOther.bind_ok (Run.gives_of_eq ht)))
    · convert hplaces using 1
      group

/-- Whatever the positions of three frames in one tree, the transform from the first to the
second followed by the one from the second to the third is the transform from the first to the
third, and the transform back from the second is the inverse of the one to it. The transform to the
second is the placement of the first, undone, and then that of the second. The sources on the way
may use memory, but while it has a property that they keep, each one has to give a rigid transform
that depends on the instant alone. The property may be the one that every memory has, or say that
what the sources remember is right. -/
theorem transformTo_path_independent {memory : Memory ℝ} (hgrown : Grown memory frames)
    (hquery : ∀ f ∈ frames, ∀ source ∈ f.source?,
      Run.Gives I (query source date) (.ok (law source date)))
    (hrigid : ∀ f ∈ frames, ∀ source ∈ f.source?, (law source date).IsRigid)
    {a b c : Frame S} (ha : a ∈ frames) (hb : b ∈ frames) (hc : c ∈ frames)
    (hab : a.top = b.top) (hbc : b.top = c.top) :
    ∃ ab bc ac ba composed : Transform ℝ,
      Run.Gives I (transformTo query date a b) (.ok ab) ∧
      Run.Gives I (transformTo query date b c) (.ok bc) ∧
      Run.Gives I (transformTo query date a c) (.ok ac) ∧
      Run.Gives I (transformTo query date b a) (.ok ba) ∧
      Transform.compose date ab bc = .ok composed ∧ composed.Agrees ac ∧
      ba.Agrees ab.inverse ∧
      ab.Places ((a.descent fun s => (law s date).placement)⁻¹ *
        b.descent fun s => (law s date).placement) := by
  have hforest := hgrown.isForest.1
  obtain ⟨ab, hrunAb, hplacesAb⟩ := hforest.transformTo_places hquery hrigid ha hb hab
  obtain ⟨bc, hrunBc, hplacesBc⟩ := hforest.transformTo_places hquery hrigid hb hc hbc
  obtain ⟨ac, hrunAc, hplacesAc⟩ :=
    hforest.transformTo_places hquery hrigid ha hc (hab.trans hbc)
  obtain ⟨ba, hrunBa, hplacesBa⟩ := hforest.transformTo_places hquery hrigid hb ha hab.symm
  obtain ⟨composed, hcomposed, -, hplaces⟩ := hplacesAb.compose hplacesBc date
  refine ⟨ab, bc, ac, ba, composed, hrunAb, hrunBc, hrunAc, hrunBa, hcomposed, ?_, ?_, hplacesAb⟩
  · apply hplaces.agrees
    convert hplacesAc using 1
    group
  · apply hplacesBa.agrees
    convert hplacesAb.inverse using 1
    group

end Queries

section RecalledLinks

/-- The transform at an instant of a fixed source, or of one that keeps the last transform of a fixed
source. Other sources are given none of their own. -/
noncomputable def linkLaw : Source ℝ → Instant ℝ → Transform ℝ
  | .fixed t, date => .dated date t.cartesian t.angular
  | .cached (.fixed t) _, date => .dated date t.cartesian t.angular
  | _, _ => .neutral

/-- A root. -/
def base : Frame (Source ℝ) := root 0 "base" true

/-- A frame below the root. -/
noncomputable def arm : Frame (Source ℝ) := child 1 "arm" false base (.fixed .turning)

/-- Another frame below the root. -/
noncomputable def mast : Frame (Source ℝ) := child 2 "mast" false base (.fixed .halfTurn)

/-- The link between the frame at the end of the arm and the arm, whose last transform is kept. -/
noncomputable def wrist : Source ℝ := .cached (.fixed .halfTurn) 0

/-- A frame two links below the root. -/
noncomputable def hand : Frame (Source ℝ) := child 3 "hand" false arm wrist

/-- The links of these frames. -/
noncomputable def links : List (Source ℝ) := [wrist, .fixed .halfTurn, .fixed .turning]

/-- Memory in which what the links remember is right. -/
def RecallsLinks (memory : Memory ℝ) : Prop := ∀ source ∈ links, source.Recalls false memory

/-- These frames are created one after the other, once the source that keeps a transform is there,
which keeps nothing yet. -/
theorem grown_hand :
    ∃ memory : Memory ℝ, Grown memory [hand, mast, arm, base] ∧ RecallsLinks memory := by
  have hbase : Grown _ [base] :=
    .create "base" none none true
      (.start ((Source.newCached (.fixed .halfTurn)).after ({} : Memory ℝ))) (by simp) rfl
  have harm : Grown _ [arm, base] :=
    hbase.create "arm" (some base) (some (.fixed .turning)) false (by simp) rfl
  have hmast : Grown _ [mast, arm, base] :=
    harm.create "mast" (some base) (some (.fixed .halfTurn)) false (by simp) rfl
  refine ⟨_, hmast.create "hand" (some arm) (some wrist) false (by simp) rfl, ?_⟩
  have hwrist : wrist.Recalls false ((Source.newCached (.fixed .halfTurn)).after ({} : Memory ℝ)) :=
    ⟨trivial, {}, rfl, Slot.holds_empty⟩
  simp only [RecallsLinks, links, List.forall_mem_cons]
  exact ⟨hwrist, trivial, trivial, by simp⟩

/-- A frame that has a source has one of these links. -/
theorem mem_links {f : Frame (Source ℝ)} (hf : f ∈ [hand, mast, arm, base]) {source : Source ℝ}
    (hsource : source ∈ f.source?) : source ∈ links := by
  rcases List.mem_cons.mp hf with rfl | hf
  · obtain rfl : wrist = source := Option.some.inj hsource
    exact List.mem_cons_self
  rcases List.mem_cons.mp hf with rfl | hf
  · obtain rfl : .fixed .halfTurn = source := Option.some.inj hsource
    exact List.mem_cons_of_mem _ List.mem_cons_self
  rcases List.mem_cons.mp hf with rfl | hf
  · obtain rfl : .fixed .turning = source := Option.some.inj hsource
    exact List.mem_cons_of_mem _ (List.mem_cons_of_mem _ List.mem_cons_self)
  · obtain rfl := List.mem_singleton.mp hf
    cases hsource

/-- The links give rigid transforms while what they remember is right. -/
theorem link_gives {source : Source ℝ} (hsource : source ∈ links) :
    Run.Gives RecallsLinks (source.ask .j2000) (.ok (linkLaw source .j2000)) ∧
      (linkLaw source .j2000).IsRigid := by
  have hseparate : ∀ source ∈ links, source.IsSeparate := by
    simp [links, wrist, Source.IsSeparate, Source.slots]
  -- Only one of them has a slot, so no two of them share one.
  have hapart : ∀ source ∈ links, ∀ other ∈ links, source = other ∨ source.Apart other := by
    simp [links, wrist, Source.Apart, Source.slots, Source.stores]
  have hgives := Source.ask_gives_of_apart false hseparate hapart hsource .j2000
  simp only [links, List.mem_cons, List.not_mem_nil, or_false] at hsource
  rcases hsource with rfl | rfl | rfl
  · exact ⟨hgives, Transform.halfTurn_isRigid⟩
  · exact ⟨hgives, Transform.halfTurn_isRigid⟩
  · exact ⟨hgives, Transform.turning_isRigid⟩

/-- The law holds between these frames, and memory is as it asks for once they are created. -/
theorem hand_mast_arm_path_independent :
    ∃ memory : Memory ℝ, Grown memory [hand, mast, arm, base] ∧ RecallsLinks memory ∧
    ∃ ab bc ac ba composed : Transform ℝ,
      Run.Gives RecallsLinks (transformTo Source.ask .j2000 hand mast) (.ok ab) ∧
      Run.Gives RecallsLinks (transformTo Source.ask .j2000 mast arm) (.ok bc) ∧
      Run.Gives RecallsLinks (transformTo Source.ask .j2000 hand arm) (.ok ac) ∧
      Run.Gives RecallsLinks (transformTo Source.ask .j2000 mast hand) (.ok ba) ∧
      Transform.compose .j2000 ab bc = .ok composed ∧ composed.Agrees ac ∧
      ba.Agrees ab.inverse ∧
      ab.Places ((hand.descent fun s => (linkLaw s .j2000).placement)⁻¹ *
        mast.descent fun s => (linkLaw s .j2000).placement) := by
  obtain ⟨memory, hgrown, hrecalls⟩ := grown_hand
  have hhand : hand ∈ [hand, mast, arm, base] := by simp
  have hmast : mast ∈ [hand, mast, arm, base] := by simp
  have harm : arm ∈ [hand, mast, arm, base] := by simp
  exact ⟨memory, hgrown, hrecalls, transformTo_path_independent hgrown
    (fun f hf source hsource => (link_gives (mem_links hf hsource)).1)
    (fun f hf source hsource => (link_gives (mem_links hf hsource)).2) hhand hmast harm rfl rfl⟩

end RecalledLinks

end FrameKinematics.Frame
