import FrameKinematics.Document.Block
import FrameKinematics.Interpolation.Hermite

/-!
# Samples of any dimension

Hermite interpolation of samples that come as nested lists: for each abscissa the value and its
derivatives, and each of these with its coordinates. One sample may stand for all abscissae.
-/

namespace FrameKinematics.Hermite

variable {K : Type} [Scalar K]

/-- How many different scalars a list holds. -/
def distinct : List K → Nat
  | [] => 0
  | x :: xs => if occurs x xs then distinct xs else distinct xs + 1

/-- A block of abscissae. It has to hold as many different ones as its first extent says. -/
def abscissae (d : Document K) : Except (Fault K) (Block K) := do
  let b ← d.block
  match b.shape with
  | [] => throw .wrongKind
  | size :: _ =>
    if size < minimumSize then throw (.tooFewPoints size minimumSize)
    else if distinct b.entries ≠ size then throw (.repeatedAbscissae b)
    else return b

/-- The abscissae relative to the point of evaluation, one for each sample. The point may come as
several numbers where these fit the abscissae. -/
def distances (xs : Block K) (point : Document K) : Except (Fault K) (List K) := do
  match xs.zipWith? (· - ·) (← point.factor xs.shape) with
  | some b => return b.entries
  | none => throw .wrongShape

/-- The values of the samples for one order of derivation, spread over `size` abscissae and
`dimension` coordinates. Directions of extent one in front are dropped. -/
def layer (size dimension : Nat) (samples : Block K) (order : Nat) :
    Except (Fault K) (List (List K)) := do
  let rows := samples.layers.filterMap fun sample => sample.layer? order
  let shape := samples.shape.headD 0 :: samples.shape.drop 2
  let kept := (shape.take (shape.length - 2)).dropWhile (· = 1) ++ shape.drop (shape.length - 2)
  if Block.commonShape? kept [size, dimension] ≠ some [size, dimension] then throw .wrongShape
  let entries := (Block.mk kept (rows.flatMap Block.entries)).spread [size, dimension]
  return (List.range size).map fun i => (entries.drop (i * dimension)).take dimension

section Effects

variable {m : Type → Type} [Monad m] [Journal K m] [MonadExceptOf (Fault K) m]

/-- Interpolates samples given by nested lists: each coordinate of the value at a point, of its
first and of its second derivative. -/
def interpolate (abscissaeGiven samplesGiven point : Document K) : m (List (List K)) := do
  let xs ← ofExcept (abscissae abscissaeGiven)
  let size := xs.shape.headD 0
  let samples ← ofExcept samplesGiven.block
  match samples.shape with
  | _ :: orders :: extents =>
    warn (size * orders)
    let ts ← ofExcept (distances xs point)
    match extents with
    | [] => throw .missingEntry
    | dimension :: _ =>
      let layers ← ofExcept ((List.range orders).mapM (layer size dimension samples))
      if ts.length ≠ size then throw .wrongShape
      let columns := (List.range dimension).map fun j =>
        (List.range size).map fun i =>
          layers.filterMap fun rows => (rows.getD i [])[j]?
      let results ← ofExcept (coordinates ts columns 0.0)
      return [results.map Jet.value, results.map Jet.first, results.map Jet.second]
  | _ => throw .missingEntry

end Effects

end FrameKinematics.Hermite
