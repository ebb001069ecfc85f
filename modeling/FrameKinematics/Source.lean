import FrameKinematics.Earth.Pole
import FrameKinematics.Earth.Rotation
import FrameKinematics.Earth.Ground
import FrameKinematics.Orbit
import FrameKinematics.Source.Grid
import FrameKinematics.Source.Memory

/-!
# Sources of transforms

A source gives the transform from a parent frame to a frame at any instant. Some sources compute
it from a formula, others keep or interpolate what another source computed. The transforms do
not depend on earlier requests, but the counts and stores of a source do.
-/

namespace FrameKinematics

/-- The transforms of a source from outside the library, as a function of the instant. -/
def Law (K : Type) : Type := Instant K → Except (Fault K) (Transform K)

/-- A source of transforms. Numbers stand for places in the memory of sources. -/
inductive Source (K : Type) where
  /-- The same translation and rotation at every instant. -/
  | fixed (transform : Transform K)
  /-- The rotation of the Earth, with a slot. -/
  | earthRotation (slot : Nat)
  /-- The motion of the pole, with a slot. -/
  | poleMotion (data : PoleData K) (slot : Nat)
  /-- The local axes of a ground point. -/
  | topocentric (point : GroundPoint K)
  /-- The axes that go along with a spacecraft. -/
  | localOrbital (orbit : Orbit K) (axes : OrbitalAxes)
  /-- Another source, with a slot. -/
  | cached (raw : Source K) (slot : Nat)
  /-- Interpolation between the transforms of another source on a time grid. -/
  | interpolating (raw : Source K) (settings : GridSettings K) (store : Nat)
  /-- A source from outside the library, whose calls are counted. -/
  | external (name : String) (law : Law K) (calls : Nat)

namespace Source

variable {K : Type}

/-- The name of the kind of a source, which reports of its failures give. -/
def kindName : Source K → String
  | fixed _ => "FixedTransformProvider"
  | earthRotation _ => "EarthRotationProvider"
  | poleMotion .. => "PoleMotionProvider"
  | topocentric _ => "TopocentricProvider"
  | localOrbital .. => "LocalOrbitalProvider"
  | cached .. => "CachedTransformProvider"
  | interpolating .. => "InterpolatingTransformProvider"
  | external name .. => name

/-- A new source of the rotation of the Earth. -/
def newEarthRotation : Run K (Source K) := do return earthRotation (← Run.newSlot)

/-- A new source of the motion of the pole. -/
def newPoleMotion (data : PoleData K) : Run K (Source K) := do
  return poleMotion data (← Run.newSlot)

/-- A new source that keeps the last transform of another one. -/
def newCached (raw : Source K) : Run K (Source K) := do return cached raw (← Run.newSlot)

/-- A new source from outside the library. -/
def newExternal (name : String) (law : Law K) : Run K (Source K) := do
  return external name law (← Run.newCalls)

variable [Scalar K]

/-- A new source that interpolates between the transforms of another one. -/
def newInterpolating (raw : Source K) (settings : GridSettings K) : Run K (Source K) := do
  ofExcept settings.check
  return interpolating raw settings (← Run.newStore)

/-- Computes a transform and gives it its number. -/
def compute (result : Except (Fault K) (Transform K)) : Run K (Computed K) := do
  Run.computed (← ofExcept result)

/-- The transform of a source at an instant. -/
def serve : Source K → Instant K → Run K (Computed K)
  | fixed transform, date => compute (.ok (.dated date transform.cartesian transform.angular))
  | earthRotation slot, date =>
    Slot.request (Run.slot slot) (fun date => compute (Earth.rotation date)) date
  | poleMotion data slot, date =>
    Slot.request (Run.slot slot) (fun date => compute (Earth.poleMotion data date)) date
  | topocentric point, date => compute (.ok (point.transform date))
  | localOrbital orbit axes, date => compute (do axes.transform date (← orbit date))
  | cached raw slot, date =>
    Slot.request (Run.slot slot) (guarded raw.kindName fun date => raw.serve date) date
  | interpolating raw settings store, date => do
    Run.computed (← Grid.request (Run.store store) settings raw.kindName
      (fun date => Computed.transform <$> raw.serve date) date)
  | external _ law calls, date => do
    (Run.calls calls).set ((← (Run.calls calls).get) + 1)
    compute (law date)

/-- The transform of a source at an instant, computed without its slot. A source that has no
slot has no transform of this kind. -/
def serveDirect? : Source K → Instant K → Option (Run K (Computed K))
  | earthRotation _, date => some (compute (Earth.rotation date))
  | poleMotion data _, date => some (compute (Earth.poleMotion data date))
  | _, _ => none

/-- The number of the slot of a source that has one. -/
def slot? : Source K → Option Nat
  | earthRotation slot => some slot
  | poleMotion _ slot => some slot
  | cached _ slot => some slot
  | _ => none

end Source

end FrameKinematics
