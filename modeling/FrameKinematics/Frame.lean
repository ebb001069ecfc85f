import FrameKinematics.Document.Quantity
import FrameKinematics.Transform

/-!
# Frames

Frames form trees. A frame other than a root has a parent and a source of the transform from the
parent to itself. Frames are told apart by their tags, since two frames may have the same name;
a tag belongs to one frame only.

The transform from one frame to another goes up to their closest common ancestor and down
again, and asks the sources on that way only.
-/

namespace FrameKinematics

/-- A frame, where `S` is the type of the sources of transforms. -/
inductive Frame (S : Type) where
  | root (tag : Nat) (name : String) (inertial : Bool)
  | child (tag : Nat) (name : String) (inertial : Bool) (parent : Frame S) (source : S)

namespace Frame

variable {S : Type}

/-- The number that tells a frame from all others. -/
def tag : Frame S → Nat
  | root tag .. => tag
  | child tag .. => tag

/-- The name of a frame. -/
def name : Frame S → String
  | root _ name _ => name
  | child _ name _ _ _ => name

/-- Whether a frame is suitable for the laws of motion. -/
def inertial : Frame S → Bool
  | root _ _ inertial => inertial
  | child _ _ inertial _ _ => inertial

/-- The parent of a frame. -/
def parent? : Frame S → Option (Frame S)
  | root .. => none
  | child _ _ _ parent _ => some parent

/-- The source of the transform from the parent. -/
def source? : Frame S → Option S
  | root .. => none
  | child _ _ _ _ source => some source

/-- The number of steps to the root. -/
def depth : Frame S → Nat
  | root .. => 0
  | child _ _ _ parent _ => parent.depth + 1

/-- The frames from a frame up to its root, both included. -/
def path : Frame S → List (Frame S)
  | f@(root ..) => [f]
  | f@(child _ _ _ parent _) => f :: parent.path

/-- Whether two frames are the same one. -/
def is (f g : Frame S) : Bool := f.tag == g.tag

/-- The frame some generations up, counted from the frame itself. -/
def ancestor? : Frame S → Nat → Option (Frame S)
  | f, 0 => some f
  | root .., _ + 1 => none
  | child _ _ _ parent _, n + 1 => parent.ancestor? n

/-- The frame some generations up, or the fault that there is none. A number that is not whole
leads to no frame even if it is in range. -/
def ancestor {K : Type} [Scalar K] (f : Frame S) (n : Quantity K) : Except (Fault K) (Frame S) :=
  if n.less (.whole 0) || (Quantity.whole f.depth).less n then throw (.noAncestor f.name n f.depth)
  else
    match n.whole? with
    | none => throw .wrongKind
    | some k =>
      match f.ancestor? k.toNat with
      | some g => return g
      | none => throw (.noAncestor f.name n f.depth)

/-- Whether `g` is a strict ancestor of `f`. Only the frame at the right number of generations
up can be. -/
def isChildOf (f g : Frame S) : Bool :=
  if f.depth ≤ g.depth then false
  else
    match f.ancestor? (f.depth - g.depth) with
    | some ancestor => ancestor.is g
    | none => false

/-- The first frame on the way up that is no deeper than this. -/
def raiseTo (depth : Nat) : Frame S → Frame S
  | f@(root ..) => f
  | f@(child _ _ _ parent _) => if depth < f.depth then parent.raiseTo depth else f

/-- The frame in which two frames of the same depth meet on their ways up, if they do. -/
def meet : Frame S → Frame S → Option (Frame S)
  | f@(root ..), g => if f.is g then some f else none
  | f@(child _ _ _ parent _), g => if f.is g then some f else g.parent?.bind parent.meet

/-- The closest common ancestor of two frames, which may be one of them. From the deeper one the
way goes up to the depth of the other one, then from both step by step. -/
def commonAncestor {K : Type} (f g : Frame S) : Except (Fault K) (Frame S) :=
  let raised := f.raiseTo g.depth
  match raised.meet (g.raiseTo raised.depth) with
  | some ancestor => return ancestor
  | none => throw (.disconnected f.name g.name)

/-- The sources between an ancestor and a frame, from the top down. -/
def sourcesBelow (ancestor : Frame S) : Frame S → List S
  | root .. => []
  | f@(child _ _ _ parent source) =>
    if f.is ancestor then [] else sourcesBelow ancestor parent ++ [source]

section Queries

variable {K : Type} [Scalar K] {m : Type → Type} [Monad m] [MonadExceptOf (Fault K) m]

/-- The transform from an ancestor to a frame: the transforms of the sources in between, asked
from the top down and composed one after the other. -/
def transformFrom (query : S → Instant K → m (Transform K)) (date : Instant K)
    (ancestor f : Frame S) : m (Transform K) :=
  (sourcesBelow ancestor f).foldlM (fun above source => do
    let step ← query source date
    ofExcept (above.compose date step)) .neutral

/-- The transform from one frame to another at an instant, where `query` asks a source. -/
def transformTo (query : S → Instant K → m (Transform K)) (date : Instant K) (f g : Frame S) :
    m (Transform K) := do
  if f.is g then return .neutral
  let ancestor ← ofExcept (f.commonAncestor g)
  let toSelf ← transformFrom query date ancestor f
  let toOther ← transformFrom query date ancestor g
  ofExcept (Transform.compose date toSelf.inverse toOther)

end Queries

end Frame

end FrameKinematics
