import FrameKinematics.Fault.Message
import FrameKinematics.Journal

/-!
# Records of events

Where an event is reported and in which words. Every part of the library reports under a channel
of its own.
-/

namespace FrameKinematics.Event

/-- The channel on which an event is reported. -/
def channel {K : Type} : Event K → String
  | frameCreated .. => "pyframes.frames.frame"
  | treeBuilt _ => "pyframes.frames.factory"
  | gridPointFetched .. => "pyframes.frames.providers"
  | sourceFailed .. => "pyframes.frames.providers"
  | manyConditions _ => "pyframes.coordinate.hermite"

/-- The words of an event. -/
def message : Event Float → String
  | frameCreated name depth => "Created frame " ++ name ++ " (depth " ++ toString depth ++ ")"
  | treeBuilt interpolated =>
    "Frame tree built (interpolated Earth frames: " ++ (Quantity.flag interpolated).text ++ ")"
  | gridPointFetched index label =>
    "Fetching raw transform for grid point " ++ toString index ++ " (" ++ label ++ ")"
  | sourceFailed source label cause =>
    source ++ " failed at " ++ label ++ ": " ++ cause.inserted
  | manyConditions count =>
    "Hermite interpolation with " ++ toString count ++ " conditions, expect oscillations"

end FrameKinematics.Event
