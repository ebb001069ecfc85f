import FrameKinematics.Frame.Registry
import FrameKinematics.Proofs.Source.Runs

/-!
# Forests of frames

The frames that a program creates form a forest: with each frame they hold its parent, and no
tag is given twice, so frames with one tag are one frame. Two frames below one root have a
common ancestor, which the search on their ways up finds: it leads past the frames that are deeper
than one of the two, and from one depth on they come to the root at once.
-/

namespace FrameKinematics.Frame

variable {S K : Type}

/-- The frames that a program may hold after a run of creations, where a parent is a frame that
was created before. In between, the program may do anything that does not take numbers of
frames back. -/
inductive Grown : Memory K → List (Frame S) → Prop
  | start (memory : Memory K) : Grown memory []
  | create {memory : Memory K} {frames : List (Frame S)} {frame : Frame S} (name : String)
      (parent? : Option (Frame S)) (source? : Option S) (inertial : Bool)
      (grown : Grown memory frames) (known : ∀ parent ∈ parent?, parent ∈ frames)
      (created : (Frame.create name parent? source? inertial).outcome memory = .ok frame) :
      Grown ((Frame.create name parent? source? inertial).after memory) (frame :: frames)
  | other {memory memory' : Memory K} {frames : List (Frame S)} (grown : Grown memory frames)
      (kept : memory.frames ≤ memory'.frames) : Grown memory' frames

/-- A collection of frames that has the parents of its frames and in which frames with one tag
are one frame. -/
structure IsForest (frames : List (Frame S)) : Prop where
  parent_mem : ∀ f ∈ frames, ∀ parent ∈ f.parent?, parent ∈ frames
  eq_of_tag_eq : ∀ f ∈ frames, ∀ g ∈ frames, f.tag = g.tag → f = g

/-- A frame is created with the parent that is given, and with a number of its own as its tag. -/
theorem create_spec {name : String} {parent? : Option (Frame S)} {source? : Option S}
    {inertial : Bool} {memory : Memory K} {frame : Frame S}
    (h : (Frame.create name parent? source? inertial).outcome memory = .ok frame) :
    frame.parent? = parent? ∧ frame.tag = memory.frames ∧
      ((Frame.create name parent? source? inertial).after memory).frames = memory.frames + 1 := by
  match parent?, source? with
  | none, none =>
    obtain rfl : root memory.frames name inertial = frame := Except.ok.inj h
    exact ⟨rfl, rfl, rfl⟩
  | some parent, some source =>
    obtain rfl : child memory.frames name inertial parent source = frame := Except.ok.inj h
    exact ⟨rfl, rfl, rfl⟩
  | none, some _ => cases h
  | some _, none => cases h

/-- A frame without a parent may be created at any time. -/
theorem Grown.root {memory memory' : Memory K} {frames : List (Frame S)}
    (grown : Grown memory frames) (name : String) (inertial : Bool)
    (hnext : memory'.frames = memory.frames + 1) :
    Grown memory' (.root memory.frames name inertial :: frames) :=
  (grown.create name none none inertial (by simp) rfl).other (Nat.le_of_eq hnext.symm)

/-- A frame may be created below any frame that was created before. -/
theorem Grown.child {memory memory' : Memory K} {frames : List (Frame S)} {parent : Frame S}
    (grown : Grown memory frames) (name : String) (source : S) (inertial : Bool)
    (known : parent ∈ frames) (hnext : memory'.frames = memory.frames + 1) :
    Grown memory' (.child memory.frames name inertial parent source :: frames) :=
  (grown.create name (some parent) (some source) inertial (by simpa using known) rfl).other
    (Nat.le_of_eq hnext.symm)

/-- The tags of the frames created so far are below the number of the next frame, so a new frame
has a tag that no other one has. -/
theorem Grown.isForest {memory : Memory K} {frames : List (Frame S)}
    (hgrown : Grown memory frames) :
    IsForest frames ∧ ∀ f ∈ frames, f.tag < memory.frames := by
  induction hgrown with
  | start => exact ⟨⟨by simp, by simp⟩, by simp⟩
  | other _ kept ih => exact ⟨ih.1, fun f hf => Nat.lt_of_lt_of_le (ih.2 f hf) kept⟩
  | create _ parent? _ _ _ known created ih =>
    obtain ⟨⟨hparent, htag⟩, hbelow⟩ := ih
    obtain ⟨hparentEq, htagEq, hnext⟩ := create_spec created
    refine ⟨⟨?_, ?_⟩, ?_⟩
    · intro f hf parent hfparent
      rcases List.mem_cons.mp hf with rfl | hf
      · exact List.mem_cons_of_mem _ (known parent (hparentEq ▸ hfparent))
      · exact List.mem_cons_of_mem _ (hparent f hf parent hfparent)
    · intro f hf g hg heq
      rcases List.mem_cons.mp hf with rfl | hfold <;> rcases List.mem_cons.mp hg with rfl | hgold
      · rfl
      · have := hbelow g hgold
        omega
      · have := hbelow f hfold
        omega
      · exact htag f hfold g hgold heq
    · intro f hf
      rw [hnext]
      rcases List.mem_cons.mp hf with rfl | hfold
      · omega
      · have := hbelow f hfold
        omega

/-- The root of the tree of a frame. -/
def top : Frame S → Frame S
  | f@(root ..) => f
  | child _ _ _ parent _ => parent.top

/-- The path of a frame has the frame and as many others as it is deep. -/
theorem length_path (f : Frame S) : f.path.length = f.depth + 1 := by
  induction f with
  | root => rfl
  | child tag name inertial parent source ih => simp [path, depth, ih]

/-- A frame is on its own path. -/
theorem self_mem_path (f : Frame S) : f ∈ f.path := by
  cases f <;> simp [path]

/-- A path ends at the root. -/
theorem getLast?_path (f : Frame S) : f.path.getLast? = some f.top := by
  induction f with
  | root => rfl
  | child tag name inertial parent source ih =>
    rw [path, List.getLast?_cons, ih, top]
    rfl

/-- A forest has the whole paths of its frames. -/
theorem IsForest.path_subset {frames : List (Frame S)} (hforest : IsForest frames) {f : Frame S}
    (hf : f ∈ frames) : f.path ⊆ frames := by
  induction f with
  | root => simpa [path] using hf
  | child tag name inertial parent source ih =>
    have hparent := hforest.parent_mem _ hf parent rfl
    simpa [path, hf] using ih hparent

section Ways

variable {f g h : Frame S} {n : Nat}

/-- No frame of a path is deeper than the one where it starts. -/
theorem depth_le_of_mem_path (hmem : h ∈ f.path) : h.depth ≤ f.depth := by
  induction f with
  | root tag name inertial =>
    obtain rfl : h = root tag name inertial := by simpa [path] using hmem
    exact Nat.le_refl _
  | child tag name inertial parent source ih =>
    rcases List.mem_cons.mp hmem with rfl | hmem
    · exact Nat.le_refl _
    · exact Nat.le_succ_of_le (ih hmem)

/-- The way up to a depth ends at this depth, or starts no deeper. -/
theorem depth_raiseTo (f : Frame S) (n : Nat) : (f.raiseTo n).depth = min f.depth n := by
  induction f with
  | root => simp [raiseTo, depth]
  | child tag name inertial parent source ih =>
    rw [raiseTo]
    split
    · next hdeeper =>
      rw [depth] at hdeeper
      rw [ih, depth]
      omega
    · omega

/-- The way up to a depth stays in the tree. -/
theorem top_raiseTo (f : Frame S) (n : Nat) : (f.raiseTo n).top = f.top := by
  induction f with
  | root => rfl
  | child tag name inertial parent source ih =>
    rw [raiseTo]
    split
    · exact ih
    · rfl

/-- The way up to a depth leads past the deeper frames of a path, and past no other ones. -/
theorem mem_path_raiseTo : h ∈ (f.raiseTo n).path ↔ h ∈ f.path ∧ h.depth ≤ n := by
  induction f with
  | root tag name inertial =>
    have hshallow : h ∈ (root tag name inertial).path → h.depth ≤ n := fun hmem =>
      Nat.le_trans (depth_le_of_mem_path hmem) (Nat.zero_le n)
    exact ⟨fun hmem => ⟨hmem, hshallow hmem⟩, And.left⟩
  | child tag name inertial parent source ih =>
    rw [raiseTo]
    split
    · next hdeeper =>
      rw [ih, path, List.mem_cons]
      refine ⟨fun ⟨hmem, hle⟩ => ⟨.inr hmem, hle⟩, fun ⟨hmem, hle⟩ => ⟨?_, hle⟩⟩
      rcases hmem with rfl | hmem
      · omega
      · exact hmem
    · next hshallow =>
      exact ⟨fun hmem => ⟨hmem, by have := depth_le_of_mem_path hmem; omega⟩, And.left⟩

/-- Two frames of one depth below one root meet on their ways up. -/
theorem exists_meet (hlevel : f.depth = g.depth) (htop : f.top = g.top) :
    ∃ a, f.meet g = some a ∧ a ∈ f.path ∧ ∃ b ∈ g.path, a.tag = b.tag := by
  induction f generalizing g with
  | root tag name inertial =>
    cases g with
    | root tag' name' inertial' =>
      obtain ⟨rfl, rfl, rfl⟩ := root.inj htop
      exact ⟨_, by simp [meet, is], self_mem_path _, _, self_mem_path _, rfl⟩
    | child => cases hlevel
  | child tag name inertial parent source ih =>
    cases g with
    | root => cases hlevel
    | child tag' name' inertial' parent' source' =>
      rw [meet]
      split
      · next his => exact ⟨_, rfl, self_mem_path _, _, self_mem_path _, by simpa [is] using his⟩
      · obtain ⟨a, hmeet, ha, b, hb, htag⟩ := ih (Nat.succ.inj hlevel) htop
        exact ⟨a, hmeet, List.mem_cons_of_mem _ ha, b, List.mem_cons_of_mem _ hb, htag⟩

end Ways

/-- Two frames of a forest below one root have a common ancestor, and it is found. -/
theorem IsForest.commonAncestor_eq_ok {frames : List (Frame S)} (hforest : IsForest frames)
    {f g : Frame S} (hf : f ∈ frames) (hg : g ∈ frames) (htop : f.top = g.top) :
    ∃ a : Frame S, f.commonAncestor g = (.ok a : Except (Fault K) (Frame S)) ∧
      a ∈ f.path ∧ a ∈ g.path := by
  obtain ⟨a, hmeet, ha, b, hb, htag⟩ :=
    exists_meet (f := f.raiseTo g.depth) (g := g.raiseTo (f.raiseTo g.depth).depth)
      (by simp only [depth_raiseTo]; omega) (by rw [top_raiseTo, top_raiseTo, htop])
  have haf : a ∈ f.path := (mem_path_raiseTo.mp ha).1
  have hbg : b ∈ g.path := (mem_path_raiseTo.mp hb).1
  obtain rfl : a = b := hforest.eq_of_tag_eq a (hforest.path_subset hf haf) b
    (hforest.path_subset hg hbg) htag
  exact ⟨a, by rw [commonAncestor, hmeet]; rfl, haf, hbg⟩

end FrameKinematics.Frame
