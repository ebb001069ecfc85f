import FrameKinematics.Fault

/-!
# The journal

What the library reports while it works. Computations that report something run in a monad
with a journal. What is reported of an instant shows its label, and an instant far away has none.
A journal passes over an event that it cannot write, as the handlers do that the library installs,
unless it is strict: then its handlers let the failure out, and the computation that reports the
event fails with it.
-/

namespace FrameKinematics

/-- Something worth a log record. -/
inductive Event (K : Type) where
  /-- A frame was created at a depth below the root of its tree. -/
  | frameCreated (name : String) (depth : Nat)
  /-- The tree of Earth frames was built, with interpolated links or not. -/
  | treeBuilt (interpolated : Bool)
  /-- A raw transform is asked for at a grid point, whose instant `label` shows. -/
  | gridPointFetched (index : Int) (label : String)
  /-- A source of transforms failed at an instant, which `label` shows. -/
  | sourceFailed (source label : String) (cause : Fault K)
  /-- An interpolating polynomial has to meet so many conditions that it oscillates. -/
  | manyConditions (count : Nat)

/-- A monad with a journal. -/
class Journal (K : outParam Type) (m : Type → Type) where
  /-- Whether an event that cannot be written fails the computation that reports it. -/
  isStrict : m Bool
  note : Event K → m Unit

/-- Computations that can only fail keep no events. -/
instance {K : Type} : Journal K (Except (Fault K)) := ⟨.ok false, fun _ => .ok ()⟩

end FrameKinematics
