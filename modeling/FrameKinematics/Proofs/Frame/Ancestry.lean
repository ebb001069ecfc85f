import Mathlib.Order.Defs.Unbundled
import FrameKinematics.Proofs.Frame.CommonAncestor

/-!
# Ancestry

A frame is asked for the frame some generations up, and whether another frame is above it. Neither
query searches: the first one goes up as often as it is told, and the second one goes up by the
difference of the two depths and looks at one frame only. Both answers are those of the path to the
root. The depth of a frame is the number of parents on its path, so every number of generations up
to the depth leads to a frame; and since depths decrease along a path, only the frame at the right
depth can be the one that is looked for.
-/

namespace FrameKinematics

/-- Whole numbers, flags among them, are compared as such. -/
theorem Quantity.less_of_whole? {K : Type} [Scalar K] {p q : Quantity K} {m n : Int}
    (hp : p.whole? = some m) (hq : q.whole? = some n) : p.less q = decide (m < n) := by
  cases p with
  | real x => cases hp
  | whole m' =>
    cases q with
    | real y => cases hq
    | whole n' => cases hp; cases hq; rfl
    | flag c => cases hp; cases hq; rfl
  | flag b =>
    cases q with
    | real y => cases hq
    | whole n' => cases hp; cases hq; rfl
    | flag c => cases hp; cases hq; cases b <;> cases c <;> rfl

namespace Frame

variable {S K : Type}

/-- Going up some generations, each time from a frame that has a parent to that parent. -/
inductive Climbs : Frame S → Nat → Frame S → Prop
  | here (f : Frame S) : Climbs f 0 f
  | up {f parent g : Frame S} {n : Nat} (hparent : f.parent? = some parent)
      (rest : Climbs parent n g) : Climbs f (n + 1) g

section Generations

variable {f g : Frame S} {n : Nat}

/-- Every generation up is one parent less from the root. -/
theorem Climbs.depth_eq (h : Climbs f n g) : f.depth = g.depth + n := by
  induction h with
  | here => rfl
  | @up f parent g n hparent rest ih =>
    cases f with
    | root => cases hparent
    | child =>
      obtain rfl := Option.some.inj hparent
      rw [depth, ih, Nat.add_assoc]

/-- A frame that is found some generations up is reached from parent to parent. -/
theorem climbs_of_ancestor? (h : f.ancestor? n = some g) : Climbs f n g := by
  induction f generalizing n with
  | root tag name inertial =>
    cases n with
    | zero =>
      obtain rfl : root tag name inertial = g := by simpa [ancestor?] using h
      exact .here _
    | succ n => cases h
  | child tag name inertial parent source ih =>
    cases n with
    | zero =>
      obtain rfl : child tag name inertial parent source = g := by simpa [ancestor?] using h
      exact .here _
    | succ n => exact .up rfl (ih h)

/-- The frame some generations up is the one at that place of the path. -/
theorem ancestor?_eq_getElem? (f : Frame S) (n : Nat) : f.ancestor? n = f.path[n]? := by
  induction f generalizing n with
  | root tag name inertial => cases n <;> rfl
  | child tag name inertial parent source ih =>
    cases n with
    | zero => rfl
    | succ n => rw [ancestor?, path, List.getElem?_cons_succ, ih]

/-- The way up is long enough for every number of generations up to the depth. -/
theorem exists_ancestor? (hn : n ≤ f.depth) : ∃ g, f.ancestor? n = some g := by
  have hlength : n < f.path.length := by rw [length_path]; omega
  exact ⟨f.path[n], by rw [ancestor?_eq_getElem?, List.getElem?_eq_getElem hlength]⟩

variable [Scalar K] {q : Quantity K}

/-- A number of generations that is negative or leads beyond the root is refused. -/
theorem ancestor_eq_error {n : Int} (hq : q.whole? = some n) (hn : n < 0 ∨ f.depth < n) :
    f.ancestor q = .error (.noAncestor f.name q f.depth) := by
  rw [ancestor, Quantity.less_of_whole? hq rfl, Quantity.less_of_whole? rfl hq, if_pos (by simpa)]
  rfl

/-- Any other number of generations leads to the frame at that place. -/
theorem ancestor_eq_ok (hq : q.whole? = some (n : Int)) (hn : n ≤ f.depth)
    (hg : f.ancestor? n = some g) : f.ancestor q = .ok g := by
  have hrange : ¬((n : Int) < 0 ∨ (f.depth : Int) < n) := by omega
  rw [ancestor, Quantity.less_of_whole? hq rfl, Quantity.less_of_whole? rfl hq,
    if_neg (by simpa using hrange)]
  simp only [hq, Int.toNat_natCast, hg]
  rfl

end Generations

section Paths

variable {frames : List (Frame S)} {f g h : Frame S}

/-- The frames of a path after the first one are those that are less deep. -/
theorem mem_tail_path_iff : g ∈ f.path.tail ↔ g ∈ f.path ∧ g.depth < f.depth := by
  cases f with
  | root tag name inertial => simp [path, depth]
  | child tag name inertial parent source =>
    rw [path, List.tail_cons, List.mem_cons, depth]
    constructor
    · intro hmem
      exact ⟨.inr hmem, Nat.lt_succ_of_le (depth_le_of_mem_path hmem)⟩
    · rintro ⟨rfl | hmem, hdepth⟩
      · exact absurd hdepth (Nat.lt_irrefl _)
      · exact hmem

/-- From each frame on a path, the path goes on as the path of that frame. -/
theorem path_suffix_of_mem (hmem : g ∈ f.path) : g.path <:+ f.path := by
  induction f with
  | root tag name inertial =>
    obtain rfl : g = root tag name inertial := by simpa [path] using hmem
    exact List.suffix_rfl
  | child tag name inertial parent source ih =>
    rcases List.mem_cons.mp hmem with rfl | hmem
    · exact List.suffix_rfl
    · exact (ih hmem).trans (List.suffix_cons _ _)

/-- A strict ancestor of a strict ancestor is a strict ancestor. -/
theorem mem_tail_path_trans (hg : g ∈ f.path.tail) (hh : h ∈ g.path.tail) : h ∈ f.path.tail := by
  rw [mem_tail_path_iff] at *
  exact ⟨(path_suffix_of_mem hg.1).subset hh.1, Nat.lt_trans hh.2 hg.2⟩

/-- Only one frame is looked at to tell whether a frame that is less deep is above another one. -/
theorem isChildOf_eq_is (hdepth : g.depth < f.depth) {a : Frame S}
    (ha : f.ancestor? (f.depth - g.depth) = some a) : f.isChildOf g = a.is g := by
  rw [isChildOf, if_neg (Nat.not_le.mpr hdepth), ha]

/-- In a forest, a frame is above another one exactly if it is on the path of that one, after the
first place. -/
theorem IsForest.isChildOf_iff (hforest : IsForest frames) (hf : f ∈ frames) (hg : g ∈ frames) :
    f.isChildOf g = true ↔ g ∈ f.path.tail := by
  rw [mem_tail_path_iff]
  by_cases hdepth : g.depth < f.depth
  · obtain ⟨a, ha⟩ := exists_ancestor? (Nat.sub_le f.depth g.depth)
    have hpath : a ∈ f.path := List.mem_of_getElem? (ancestor?_eq_getElem? f _ ▸ ha)
    have hlevel : a.depth = g.depth := by
      have hclimb := (climbs_of_ancestor? ha).depth_eq
      omega
    rw [isChildOf_eq_is hdepth ha, is, beq_iff_eq]
    -- The path has one frame of this depth, so `g` is on it only if it is the frame looked at.
    constructor
    · intro htag
      rw [← hforest.eq_of_tag_eq a (hforest.path_subset hf hpath) g hg htag]
      exact ⟨hpath, hlevel ▸ hdepth⟩
    · rintro ⟨hmem, -⟩
      rw [eq_of_mem_path hpath hmem hlevel]
  · rw [isChildOf, if_pos (Nat.not_lt.mp hdepth)]
    simp [hdepth]

/-- In a forest, being above is a strict order of the frames. -/
theorem IsForest.isStrictOrder (hforest : IsForest frames) :
    IsStrictOrder {f // f ∈ frames} fun f g => f.val.isChildOf g.val = true where
  irrefl f := by
    rw [hforest.isChildOf_iff f.2 f.2, mem_tail_path_iff]
    exact fun h => Nat.lt_irrefl _ h.2
  trans f g h := by
    rw [hforest.isChildOf_iff f.2 g.2, hforest.isChildOf_iff g.2 h.2, hforest.isChildOf_iff f.2 h.2]
    exact mem_tail_path_trans

end Paths

section Agreement

variable [Scalar K]

/-- What two frames answer about their ancestry agrees with their paths to the root. -/
structure QueriesAgree (K : Type) [Scalar K] (f g : Frame S) : Prop where
  /-- The depth is zero without a parent and else one more than the depth of the parent, and the
  path has one frame more. -/
  depth_eq : f.depth = f.parent?.elim 0 fun parent => parent.depth + 1
  length_path_eq : f.path.length = f.depth + 1
  /-- A number of generations is refused exactly if it is negative or greater than the depth. -/
  refused_iff : ∀ (q : Quantity K) (n : Int), q.whole? = some n →
    (f.ancestor q = .error (.noAncestor f.name q f.depth) ↔ n < 0 ∨ f.depth < n)
  /-- Any other number leads to the frame at that place of the path, from parent to parent. -/
  found : ∀ (q : Quantity K) (n : Nat), q.whole? = some (n : Int) → n ≤ f.depth →
    ∃ h, f.ancestor q = .ok h ∧ f.path[n]? = some h ∧ Climbs f n h
  /-- The other frame is above this one exactly if it occurs on the path after the first place. -/
  isChildOf_eq : f.isChildOf g = f.path.tail.any g.is
  /-- To tell this, the frame at the depth of the other one is asked for, which there is. -/
  looked_at : g.depth < f.depth → ∃ h,
    f.ancestor (.whole (f.depth - g.depth) : Quantity K) = .ok h ∧ f.isChildOf g = h.is g

/-- A frame with a parent is one deeper than it, and a root has depth zero. -/
theorem depth_eq_elim (f : Frame S) :
    f.depth = f.parent?.elim 0 fun parent => parent.depth + 1 := by
  cases f <;> rfl

/-- Whatever trees a program builds, the queries for ancestors agree with the paths of the frames,
and being above another frame is a strict order. -/
theorem ancestorQueries_agree {memory : Memory K} {frames : List (Frame S)}
    (hgrown : Grown memory frames) :
    (∀ f ∈ frames, ∀ g ∈ frames, QueriesAgree K f g) ∧
      IsStrictOrder {f // f ∈ frames} fun f g => f.val.isChildOf g.val = true := by
  have hforest := hgrown.isForest.1
  refine ⟨fun f hf g hg => ?_, hforest.isStrictOrder⟩
  have hfound (q : Quantity K) (n : Nat) (hq : q.whole? = some (n : Int)) (hn : n ≤ f.depth) :
      ∃ h, f.ancestor q = .ok h ∧ f.ancestor? n = some h := by
    obtain ⟨h, hh⟩ := exists_ancestor? hn
    exact ⟨h, ancestor_eq_ok hq hn hh, hh⟩
  refine ⟨depth_eq_elim f, length_path f, fun q n hq => ⟨?_, ancestor_eq_error hq⟩, ?_, ?_, ?_⟩
  · intro hrefused
    by_contra hrange
    obtain ⟨h, hok, -⟩ := hfound q n.toNat (by rw [hq]; congr 1; omega) (by omega)
    rw [hrefused] at hok
    cases hok
  · intro q n hq hn
    obtain ⟨h, hok, hh⟩ := hfound q n hq hn
    exact ⟨h, hok, ancestor?_eq_getElem? f n ▸ hh, climbs_of_ancestor? hh⟩
  · have hsubset := List.Subset.trans (List.tail_sublist f.path).subset (hforest.path_subset hf)
    rw [Bool.eq_iff_iff, hforest.isChildOf_iff hf hg, hforest.any_is_iff_of_subset hsubset hg]
  · intro hdepth
    obtain ⟨h, hok, hh⟩ := hfound (.whole (f.depth - g.depth)) (f.depth - g.depth)
      (by rw [Quantity.whole?]; congr 1; omega) (Nat.sub_le _ _)
    exact ⟨h, hok, isChildOf_eq_is hdepth hh⟩

/-- The queries about the ancestry of these frames agree with each other. -/
theorem antenna_queries_agree : ∃ memory : Memory Float, Grown memory sky ∧ antenna ∈ sky ∧
    satellite ∈ sky ∧ sun ∈ sky ∧ QueriesAgree Float antenna satellite ∧
      QueriesAgree Float antenna sun ∧
      IsStrictOrder {f // f ∈ sky} fun f g => f.val.isChildOf g.val = true := by
  obtain ⟨memory, hgrown⟩ := grown_sky
  have hantenna : antenna ∈ sky := by simp [sky]
  have hsatellite : satellite ∈ sky := by simp [sky]
  have hsun : sun ∈ sky := by simp [sky]
  obtain ⟨hagree, horder⟩ := ancestorQueries_agree hgrown
  exact ⟨memory, hgrown, hantenna, hsatellite, hsun, hagree antenna hantenna satellite hsatellite,
    hagree antenna hantenna sun hsun, horder⟩

/-- Frames at the depth of an ancestor, in the same tree or in another one, are no ancestors. -/
example : antenna.isChildOf station = true ∧ antenna.isChildOf satellite = false ∧
    antenna.isChildOf earth = true ∧ antenna.isChildOf sun = false := by decide

end Agreement

end Frame

end FrameKinematics
