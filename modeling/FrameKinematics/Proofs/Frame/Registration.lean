import Mathlib.Data.List.Nodup
import Mathlib.Tactic.SplitIfs
import FrameKinematics.Frame.Registry
import FrameKinematics.Proofs.Frame.Descent
import FrameKinematics.Proofs.Frame.Forest

/-!
# Registration of frames

A registry adds frames in three ways that differ in how they come to a parent and a source. From
there on all of them do the same: the frame is created, with a number of its own, and then it is
registered at the end of the others, unless its name is taken. A new registry holds the root and the
two frames of the Earth, and there is one unless the settings of interpolation are needed and
refused.
-/

namespace FrameKinematics

namespace Registry

variable {K : Type} {r : Registry K} {f : Frame (Source K)} {name : String}

/-- No frame is found exactly under names that are not taken. -/
theorem find?_eq_none_iff : r.find? name = none ↔ name ∉ r.names := by
  simp [find?, names]

/-- The registry with one more frame. -/
def extended (r : Registry K) (f : Frame (Source K)) : Registry K :=
  { r with frames := r.frames ++ [f] }

/-- A frame is registered at the end of the others if its name is new. -/
theorem register_eq (r : Registry K) (f : Frame (Source K)) :
    r.register f =
      if f.name ∈ r.names then .error (.alreadyRegistered f.name)
      else .ok (r.extended f) := by
  split_ifs with htaken
  · obtain ⟨g, hg⟩ := Option.ne_none_iff_exists'.mp (mt find?_eq_none_iff.mp (not_not.mpr htaken))
    rw [register, hg]
    rfl
  · rw [register, find?_eq_none_iff.mpr htaken]
    rfl

/-- A frame is given out exactly if it is found. -/
theorem frame_eq_ok_iff_find? : r.frame name = .ok f ↔ r.find? name = some f := by
  rw [frame]
  cases r.find? name with
  | none => exact ⟨nofun, nofun⟩
  | some g => exact ⟨fun h => congrArg some (Except.ok.inj h), fun h => by cases h; rfl⟩

/-- A frame that is given out is in the registry and has the name that was asked for. -/
theorem mem_of_frame_eq_ok (h : r.frame name = .ok f) : f ∈ r.frames ∧ f.name = name := by
  have hfind := frame_eq_ok_iff_find?.mp h
  exact ⟨List.mem_of_find?_eq_some hfind, by simpa using List.find?_some hfind⟩

/-- There is a frame under each name that is taken, and under no other one. -/
theorem exists_frame_iff : (∃ f, r.frame name = .ok f) ↔ name ∈ r.names := by
  simp only [frame_eq_ok_iff_find?, ← Option.ne_none_iff_exists', ne_eq, find?_eq_none_iff,
    not_not]

/-- While names are distinct, the frame under a name is the one that has the name. -/
theorem frame_eq_ok_iff (hdistinct : r.names.Nodup) :
    r.frame name = .ok f ↔ f ∈ r.frames ∧ f.name = name := by
  refine ⟨mem_of_frame_eq_ok, fun ⟨hmem, hname⟩ => ?_⟩
  obtain ⟨g, hg⟩ := exists_frame_iff.mpr (List.mem_map.mpr ⟨f, hmem, hname⟩)
  obtain ⟨hgmem, hgname⟩ := mem_of_frame_eq_ok hg
  obtain rfl := List.inj_on_of_nodup_map hdistinct hgmem hmem (hgname.trans hname.symm)
  exact hg

/-- A frame is created for a parent and a source, and it is registered if its name is new. It takes
a number in any case. -/
theorem addFrame_run (r : Registry K) (name : String) (parent : Frame (Source K))
    (source : Source K) (inertial : Bool) (memory : Memory K) :
    ∃ memory', memory'.frames = memory.frames + 1 ∧
      (r.addFrame name parent source inertial).run.run memory =
        (if name ∈ r.names then .error (.alreadyRegistered name)
          else .ok (.child memory.frames name inertial parent source,
            r.extended (.child memory.frames name inertial parent source)), memory') := by
  obtain ⟨memory', hcreated, hnext⟩ : ∃ memory',
      (Frame.create name (some parent) (some source) inertial).run.run memory =
        (.ok (.child memory.frames name inertial parent source), memory') ∧
      memory'.frames = memory.frames + 1 := ⟨_, rfl, rfl⟩
  refine ⟨memory', hnext, ?_⟩
  have hregister := r.register_eq (.child memory.frames name inertial parent source)
  rw [addFrame, Stateful.run_bind_of_ok hcreated, hregister]
  by_cases htaken : name ∈ r.names
  · have htaken' : (Frame.child memory.frames name inertial parent source).name ∈ r.names := htaken
    rw [if_pos htaken, if_pos htaken']
    rfl
  · have hnew : (Frame.child memory.frames name inertial parent source).name ∉ r.names := htaken
    rw [if_neg htaken, if_neg hnew]
    rfl

section Foundation

/-- The frames that a registry starts with, where the next frame has a number and the frames of the
Earth have sources. -/
def founding (next : Nat) (rotation motion : Source K) : List (Frame (Source K)) :=
  let inertial := Frame.root next inertialName true
  let rotating := Frame.child (next + 1) rotatingName false inertial rotation
  [inertial, rotating, .child (next + 2) earthFixedName false rotating motion]

/-- The frames of the Earth have different names. -/
theorem nodup_founding {next : Nat} {rotation motion : Source K} :
    ((founding next rotation motion).map Frame.name).Nodup := by
  simp [founding, Frame.name, inertialName, rotatingName, earthFixedName]

/-- The frames of the Earth are created one after the other, each below the one before. -/
theorem grown_founding (memory : Memory K) {memory' : Memory K}
    (hnext : memory'.frames = memory.frames + 3) (rotation motion : Source K) :
    Frame.Grown memory' (founding memory.frames rotation motion).reverse := by
  let inertial : Frame (Source K) := .root memory.frames inertialName true
  let rotating := Frame.child (memory.frames + 1) rotatingName false inertial rotation
  have hinertial : Frame.Grown { memory with frames := memory.frames + 1 } [inertial] :=
    (Frame.Grown.start memory).root inertialName true rfl
  have hrotating : Frame.Grown { memory with frames := memory.frames + 2 } [rotating, inertial] :=
    hinertial.child rotatingName rotation false List.mem_cons_self rfl
  exact hrotating.child earthFixedName motion false List.mem_cons_self hnext

/-- The inertial root is created and registered before anything else. -/
theorem exists_root (settings : RegistrySettings K) (memory : Memory K) :
    ∃ memory' : Memory K, memory'.frames = memory.frames + 1 ∧
      ∀ {α : Type} (rest : Frame (Source K) → Registry K → Run K α),
        (do
          let inertial ← Frame.create inertialName none none true
          rest inertial (← ofExcept (register ⟨settings, []⟩ inertial))).run.run memory =
          (rest (.root memory.frames inertialName true)
            ⟨settings, [.root memory.frames inertialName true]⟩).run.run memory' :=
  ⟨_, rfl, fun _ => rfl⟩

variable [Scalar K] {settings : RegistrySettings K}

/-- Settings under which the sources of the Earth frames can be made. -/
def IsFit (settings : RegistrySettings K) : Prop :=
  settings.interpolated = true → settings.interpolation.check = .ok ()

/-- The source of a frame of the Earth can always be made, and takes no number of a frame. -/
theorem exists_earthSource (hfit : IsFit settings) (raw : Source K) (memory : Memory K) :
    ∃ source memory', (earthSource settings raw).run.run memory = (.ok source, memory') ∧
      memory'.frames = memory.frames := by
  rw [earthSource]
  split_ifs with hinterpolated
  · rw [Source.newInterpolating, hfit hinterpolated]
    exact ⟨_, _, rfl, rfl⟩
  · exact ⟨raw, memory, rfl, rfl⟩

/-- A frame of the Earth is registered under a new name, and what follows goes on from there. -/
theorem exists_earthFrame (hfit : IsFit settings) (r : Registry K) (name : String)
    (hname : name ∉ r.names) (parent : Frame (Source K)) {new : Run K (Source K)} {raw : Source K}
    {memory memory₁ : Memory K} (hraw : new.run.run memory = (.ok raw, memory₁))
    (hnext : memory₁.frames = memory.frames) :
    ∃ source memory', memory'.frames = memory.frames + 1 ∧
      ∀ {α : Type} (rest : Frame (Source K) × Registry K → Run K α),
        (do rest (← r.addFrame name parent (← earthSource settings (← new)))).run.run memory =
          (rest (.child memory.frames name false parent source,
            r.extended (.child memory.frames name false parent source))).run.run memory' := by
  obtain ⟨source, memory₂, hsource, hnext₂⟩ := exists_earthSource hfit raw memory₁
  obtain ⟨memory₃, hnext₃, hadded⟩ := r.addFrame_run name parent source false memory₂
  have hnumber : memory₂.frames = memory.frames := hnext₂.trans hnext
  rw [if_neg hname, hnumber] at hadded
  refine ⟨source, memory₃, by rw [hnext₃, hnumber], fun rest => ?_⟩
  rw [Stateful.run_bind_of_ok hraw, Stateful.run_bind_of_ok hsource,
    Stateful.run_bind_of_ok hadded]

/-- If the settings are fit, a registry is built with its three frames. -/
theorem build_of_isFit (hfit : IsFit settings) (memory : Memory K) :
    ∃ rotation motion memory', (build settings).run.run memory =
        (.ok ⟨settings, founding memory.frames rotation motion⟩, memory') ∧
      memory'.frames = memory.frames + 3 := by
  obtain ⟨memory₁, hnext₁, hroot⟩ := exists_root settings memory
  let inertial : Frame (Source K) := .root memory.frames inertialName true
  obtain ⟨raw, memory₂, hraw, hnext₂⟩ : ∃ raw memory₂,
      (Source.newEarthRotation : Run K (Source K)).run.run memory₁ = (.ok raw, memory₂) ∧
      memory₂.frames = memory₁.frames := ⟨_, _, rfl, rfl⟩
  obtain ⟨rotation, memory₃, hnext₃, hrotating⟩ := exists_earthFrame hfit ⟨settings, [inertial]⟩
    rotatingName (by simp [inertial, names, Frame.name, rotatingName, inertialName]) inertial
    hraw hnext₂
  rw [hnext₁] at hrotating
  let rotating := Frame.child (memory.frames + 1) rotatingName false inertial rotation
  obtain ⟨raw', memory₄, hraw', hnext₄⟩ : ∃ raw' memory₄,
      (Source.newPoleMotion settings.pole).run.run memory₃ = (.ok raw', memory₄) ∧
      memory₄.frames = memory₃.frames := ⟨_, _, rfl, rfl⟩
  obtain ⟨motion, memory₅, hnext₅, hfixed⟩ := exists_earthFrame hfit
    (extended ⟨settings, [inertial]⟩ rotating) earthFixedName
    (by simp [inertial, rotating, names, extended, Frame.name, rotatingName, inertialName,
      earthFixedName])
    rotating hraw' hnext₄
  obtain ⟨memory₆, hnote, hnext₆⟩ : ∃ memory₆,
      (Journal.note (.treeBuilt settings.interpolated) : Run K Unit).run.run memory₅ =
        (.ok (), memory₆) ∧ memory₆.frames = memory₅.frames := ⟨_, rfl, rfl⟩
  rw [build, hroot, hrotating, hfixed, Stateful.run_bind_of_ok hnote, hnext₃, hnext₁]
  exact ⟨rotation, motion, memory₆, rfl, by omega⟩

/-- A registry that is built has fit settings. -/
theorem isFit_of_build {memory memory' : Memory K}
    (hbuilt : (build settings).run.run memory = (.ok r, memory')) : IsFit settings := by
  intro hinterpolated
  cases hcheck : settings.interpolation.check with
  | ok => rfl
  | error fault =>
    obtain ⟨memory₁, -, hroot⟩ := exists_root settings memory
    obtain ⟨raw, memory₂, hraw⟩ : ∃ raw memory₂,
        (Source.newEarthRotation : Run K (Source K)).run.run memory₁ = (.ok raw, memory₂) :=
      ⟨_, _, rfl⟩
    have hrefused : (earthSource settings raw).run.run memory₂ = (.error fault, memory₂) := by
      rw [earthSource, if_pos hinterpolated, Source.newInterpolating, hcheck]
      rfl
    rw [build, hroot, Stateful.run_bind_of_ok hraw, Stateful.run_bind_of_error hrefused] at hbuilt
    cases hbuilt

end Foundation

end Registry

/-- What a new frame is linked to: a parent, and the source of the transform from there. -/
structure Link (K : Type) where
  parent : Frame (Source K)
  source : Source K
  inertial : Bool

/-- A call that asks a registry for a new frame. -/
inductive Addition (K : Type) where
  /-- A frame below a given one. -/
  | below (name : String) (parent : Frame (Source K)) (source : Source K) (inertial : Bool)
  /-- The local frame of a ground point. -/
  | topocentric (name : String) (place : Document K)
  /-- The frame of a spacecraft, below the inertial root if no parent is given. -/
  | localOrbital (name : String) (orbit : Orbit K) (axes : OrbitalAxes)
      (parent? : Option (Frame (Source K)))

namespace Addition

variable {K : Type}

/-- The name of the new frame. -/
def name : Addition K → String
  | below name .. => name
  | topocentric name _ => name
  | localOrbital name .. => name

/-- The parent that is given in a call, if one is. -/
def parent? : Addition K → Option (Frame (Source K))
  | below _ parent .. => some parent
  | topocentric .. => none
  | localOrbital _ _ _ parent? => parent?

variable [Scalar K] {call : Addition K} {r : Registry K}

/-- What a registry does in a call. -/
def run : Addition K → Registry K → Run K (Frame (Source K) × Registry K)
  | below name parent source inertial, r => r.addFrame name parent source inertial
  | topocentric name place, r => r.addTopocentric name place
  | localOrbital name orbit axes parent?, r => r.addLocalOrbital name orbit axes parent?

/-- Whether the source of the new frame can be made: a ground point needs a place. -/
def HasSource : Addition K → Prop
  | topocentric _ place =>
    ∃ point : GroundPoint K, Geodetic.ofDocument place >>= GroundPoint.ofGeodetic = .ok point
  | _ => True

/-- What a registry links the new frame to. -/
def link (r : Registry K) : Addition K → Except (Fault K) (Link K)
  | below _ parent source inertial => .ok ⟨parent, source, inertial⟩
  | topocentric _ place => do
    let parent ← r.frame Registry.earthFixedName
    let point ← Geodetic.ofDocument place >>= GroundPoint.ofGeodetic
    return ⟨parent, .topocentric point, false⟩
  | localOrbital _ orbit axes none => do
    return ⟨← r.frame Registry.inertialName, .localOrbital orbit axes, false⟩
  | localOrbital _ orbit axes (some parent) => .ok ⟨parent, .localOrbital orbit axes, false⟩

/-- Once the link is found, all calls do the same. -/
theorem run_eq (call : Addition K) (r : Registry K) :
    call.run r = ofExcept (call.link r) >>= fun link =>
      r.addFrame call.name link.parent link.source link.inertial := by
  cases call with
  | below name parent source inertial => rfl
  | topocentric name place =>
    rw [run, Registry.addTopocentric, link]
    cases r.frame Registry.earthFixedName with
    | error fault => rfl
    | ok parent =>
      cases (Geodetic.ofDocument place >>= GroundPoint.ofGeodetic : Except (Fault K) _) with
      | error fault => rfl
      | ok point => rfl
  | localOrbital name orbit axes parent? =>
    cases parent? with
    | none =>
      rw [run, Registry.addLocalOrbital, link]
      cases r.frame Registry.inertialName with
      | error fault => rfl
      | ok parent => rfl
    | some parent => rfl

/-- A call fails and changes nothing if no link is found. Else a frame is created, and it is given
out and registered if its name is new. -/
theorem run_cases (call : Addition K) (r : Registry K) (memory : Memory K) :
    (∃ fault, call.link r = .error fault ∧
      (call.run r).run.run memory = (.error fault, memory)) ∨
    ∃ link memory', call.link r = .ok link ∧ memory'.frames = memory.frames + 1 ∧
      (call.run r).run.run memory =
        (if call.name ∈ r.names then .error (.alreadyRegistered call.name)
          else .ok (.child memory.frames call.name link.inertial link.parent link.source,
            r.extended (.child memory.frames call.name link.inertial link.parent link.source)),
          memory') := by
  rw [run_eq]
  cases hlink : call.link r with
  | error fault => exact .inl ⟨fault, rfl, rfl⟩
  | ok link =>
    obtain ⟨memory', hnext, hadded⟩ :=
      r.addFrame_run call.name link.parent link.source link.inertial memory
    exact .inr ⟨link, memory', rfl, hnext, hadded⟩

/-- A new frame is linked to a frame of the registry, if the parent in the call is one. -/
theorem parent_mem_of_link {link : Link K} (hlink : call.link r = .ok link)
    (hgiven : ∀ parent ∈ call.parent?, parent ∈ r.frames) : link.parent ∈ r.frames := by
  cases call with
  | below name parent source inertial =>
    obtain rfl := Except.ok.inj hlink
    exact hgiven parent rfl
  | topocentric name place =>
    obtain ⟨parent, hparent, hrest⟩ := exists_of_bind_eq_ok hlink
    obtain ⟨point, -, hdone⟩ := exists_of_bind_eq_ok hrest
    obtain rfl := Except.ok.inj hdone
    exact (Registry.mem_of_frame_eq_ok hparent).1
  | localOrbital name orbit axes parent? =>
    cases parent? with
    | none =>
      obtain ⟨parent, hparent, hdone⟩ := exists_of_bind_eq_ok hlink
      obtain rfl := Except.ok.inj hdone
      exact (Registry.mem_of_frame_eq_ok hparent).1
    | some parent =>
      obtain rfl := Except.ok.inj hlink
      exact hgiven parent rfl

/-- A link is found exactly if the source can be made, once the frames of the Earth are there. -/
theorem exists_link_iff (hinertial : Registry.inertialName ∈ r.names)
    (hfixed : Registry.earthFixedName ∈ r.names) :
    (∃ link, call.link r = .ok link) ↔ call.HasSource := by
  cases call with
  | below name parent source inertial => exact ⟨fun _ => trivial, fun _ => ⟨_, rfl⟩⟩
  | topocentric name place =>
    obtain ⟨parent, hparent⟩ := Registry.exists_frame_iff.mpr hfixed
    constructor
    · rintro ⟨link, hlink⟩
      obtain ⟨parent, -, hrest⟩ := exists_of_bind_eq_ok hlink
      obtain ⟨point, hpoint, -⟩ := exists_of_bind_eq_ok hrest
      exact ⟨point, hpoint⟩
    · rintro ⟨point, hpoint⟩
      rw [link, bind_eq_of_ok hparent, bind_eq_of_ok hpoint]
      exact ⟨_, rfl⟩
  | localOrbital name orbit axes parent? =>
    obtain ⟨parent, hparent⟩ := Registry.exists_frame_iff.mpr hinertial
    refine ⟨fun _ => trivial, fun _ => ?_⟩
    cases parent? with
    | none =>
      rw [link, bind_eq_of_ok hparent]
      exact ⟨_, rfl⟩
    | some parent => exact ⟨_, rfl⟩

end Addition

end FrameKinematics
