import FrameKinematics.Frame
import FrameKinematics.Source
import FrameKinematics.Source.Settings

/-!
# Registries of frames

A registry is a tree of frames that are known by their names. It starts with an inertial root,
the frame that takes part in the rotation of the Earth and the Earth-fixed frame; more frames
are added below frames of the tree. A name is given once.
-/

namespace FrameKinematics

/-- The settings of a registry: whether the frames of the Earth are interpolated and how, and
where the coordinates of the pole come from. -/
structure RegistrySettings (K : Type) where
  interpolated : Bool
  interpolation : GridSettings K
  pole : PoleData K

namespace RegistrySettings

variable {K : Type} [Scalar K]

/-- Nothing is interpolated and the pole does not move. -/
def standard : RegistrySettings K := ⟨false, .standard, .none⟩

/-- The pole data of a document. -/
def poleOfDocument : Option (Document K) → PoleData K
  | none => .none
  | some .null => .none
  | some d => .other d

/-- The settings of the entries of a table. A pole table that is given takes the place of the
entry for it. -/
def ofEntries (entries : List (String × Document K)) (table? : Option (PoleTable K)) :
    Except (Fault K) (RegistrySettings K) := do
  let interpolation ←
    GridSettings.ofDocument ((Document.entry? entries "interpolation").getD (.table []))
  let interpolated := (Document.entry? entries "interpolate_earth_frames").any Document.isYes
  let pole := table?.elim (poleOfDocument (Document.entry? entries "pole_table")) .table
  return ⟨interpolated, interpolation, pole⟩

/-- The settings of a document, which has to be a table. A pole table cannot even be added to
anything else. -/
def ofDocument (d : Document K) (table? : Option (PoleTable K)) :
    Except (Fault K) (RegistrySettings K) :=
  match d with
  | .table entries => ofEntries entries table?
  | _ => throw (if table?.isSome then .wrongKind else .noMember)

/-- Whether two settings are the same. -/
def same (s t : RegistrySettings K) : Bool :=
  s.interpolated == t.interpolated && s.interpolation.same t.interpolation && s.pole.same t.pole

end RegistrySettings

namespace Frame

variable {K S : Type}

/-- Creates a frame. A parent and the source of the transform from it are given together or not
at all. -/
def create (name : String) (parent? : Option (Frame S)) (source? : Option S) (inertial : Bool) :
    Run K (Frame S) := do
  match parent?, source? with
  | none, none =>
    let frame := root (← Run.newFrame) name inertial
    Journal.note (.frameCreated name frame.depth)
    return frame
  | some parent, some source =>
    let frame := child (← Run.newFrame) name inertial parent source
    Journal.note (.frameCreated name frame.depth)
    return frame
  | _, _ => throw (.unpairedLink name)

end Frame

/-- Frames by name, in the order in which they were added. -/
structure Registry (K : Type) where
  settings : RegistrySettings K
  frames : List (Frame (Source K))

namespace Registry

variable {K : Type}

/-- The inertial root. -/
def inertialName : String := "GCRF"

/-- The frame that takes part in the rotation of the Earth. -/
def rotatingName : String := "TIRF"

/-- The Earth-fixed frame. -/
def earthFixedName : String := "ITRF"

/-- The names of the frames in order. -/
def names (r : Registry K) : List String := r.frames.map Frame.name

/-- The frame of a name, if there is one. -/
def find? (r : Registry K) (name : String) : Option (Frame (Source K)) :=
  r.frames.find? fun frame => frame.name == name

/-- The frame of a name. -/
def frame (r : Registry K) (name : String) : Except (Fault K) (Frame (Source K)) :=
  match r.find? name with
  | some frame => return frame
  | none => throw (.unknownFrame name)

/-- Adds a frame under its name, which must be new. -/
def register (r : Registry K) (frame : Frame (Source K)) : Except (Fault K) (Registry K) :=
  match r.find? frame.name with
  | some _ => throw (.alreadyRegistered frame.name)
  | none => return { r with frames := r.frames ++ [frame] }

/-- Creates a frame and adds it. -/
def addFrame (r : Registry K) (name : String) (parent : Frame (Source K)) (source : Source K)
    (inertial : Bool := false) : Run K (Frame (Source K) × Registry K) := do
  let frame ← Frame.create name (some parent) (some source) inertial
  return (frame, ← ofExcept (r.register frame))

variable [Scalar K]

/-- A source of the Earth frames as settings ask for it: itself, or interpolated. -/
def earthSource (settings : RegistrySettings K) (raw : Source K) : Run K (Source K) :=
  if settings.interpolated then Source.newInterpolating raw settings.interpolation
  else return raw

/-- A new registry with the frames of the Earth. -/
def build (settings : RegistrySettings K) : Run K (Registry K) := do
  let inertial ← Frame.create inertialName none none true
  let empty ← ofExcept (register ⟨settings, []⟩ inertial)
  let rotation ← earthSource settings (← Source.newEarthRotation)
  let (rotating, partly) ← empty.addFrame rotatingName inertial rotation
  let motion ← earthSource settings (← Source.newPoleMotion settings.pole)
  let (_, complete) ← partly.addFrame earthFixedName rotating motion
  Journal.note (.treeBuilt settings.interpolated)
  return complete

/-- Adds the local frame of a ground point below the Earth-fixed frame. -/
def addTopocentric (r : Registry K) (name : String) (place : Document K) :
    Run K (Frame (Source K) × Registry K) := do
  let parent ← ofExcept (r.frame earthFixedName)
  let point ← ofExcept (Geodetic.ofDocument place >>= GroundPoint.ofGeodetic)
  r.addFrame name parent (.topocentric point)

/-- Adds the frame of a spacecraft, below the inertial root if no parent is given. -/
def addLocalOrbital (r : Registry K) (name : String) (orbit : Orbit K)
    (axes : OrbitalAxes := .qsw) (parent? : Option (Frame (Source K)) := none) :
    Run K (Frame (Source K) × Registry K) := do
  let parent ←
    match parent? with
    | some parent => pure parent
    | none => ofExcept (r.frame inertialName)
  r.addFrame name parent (.localOrbital orbit axes)

end Registry

end FrameKinematics
