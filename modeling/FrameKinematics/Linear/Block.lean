import FrameKinematics.Scalar

/-!
# Blocks of numbers

A block holds numbers with an extent in each of several directions; the last direction runs
fastest. Two blocks are combined entry by entry after both are spread to a common shape: shapes
are compared from their last direction on, and a block is repeated in a direction that it lacks
or in which it has a single layer.
-/

namespace FrameKinematics

/-- A block of numbers with its extent in each direction. -/
structure Block (K : Type) where
  shape : List Nat
  entries : List K

namespace Block

variable {K : Type}

/-- The block of a list of numbers. -/
def ofList (xs : List K) : Block K := ⟨[xs.length], xs⟩

/-- The number of entries of a shape. -/
def volume (shape : List Nat) : Nat := shape.foldl (· * ·) 1

/-- The layer of a block at a place in its first direction. -/
def layer? (b : Block K) (i : Nat) : Option (Block K) :=
  match b.shape with
  | extent :: shape =>
    if i < extent then some ⟨shape, (b.entries.drop (i * volume shape)).take (volume shape)⟩
    else none
  | [] => none

/-- The layers of a block along its first direction. -/
def layers (b : Block K) : List (Block K) :=
  (List.range (b.shape.headD 0)).filterMap b.layer?

/-- The extent that two extents have in common. -/
def commonExtent? (m n : Nat) : Option Nat :=
  if m = n then some m else if m = 1 then some n else if n = 1 then some m else none

/-- The shape that two shapes have in common, from the last direction on. -/
def commonBackwards? : List Nat → List Nat → Option (List Nat)
  | [], shape => some shape
  | shape, [] => some shape
  | m :: ms, n :: ns => do
    let extent ← commonExtent? m n
    return extent :: (← commonBackwards? ms ns)

/-- The shape that two shapes have in common, if they fit together. -/
def commonShape? (s t : List Nat) : Option (List Nat) :=
  (commonBackwards? s.reverse t.reverse).map List.reverse

/-- The shape that several shapes have in common. -/
def commonShapeOf? (shapes : List (List Nat)) : Option (List Nat) :=
  shapes.foldlM commonShape? []

/-- Spreads entries of a shape over another shape with as many directions. -/
def spreadEntries : List Nat → List Nat → List K → List K
  | m :: ms, n :: ns, entries =>
    let size := volume ms
    let layers := (List.range m).flatMap fun i =>
      spreadEntries ms ns ((entries.drop (i * size)).take size)
    if m = n then layers else (List.replicate n layers).flatten
  | _, _, entries => entries

/-- The entries of a block spread over a shape that its own shape fits into. -/
def spread (shape : List Nat) (b : Block K) : List K :=
  spreadEntries (List.replicate (shape.length - b.shape.length) 1 ++ b.shape) shape b.entries

/-- Combines two blocks entry by entry. -/
def zipWith? (f : K → K → K) (b c : Block K) : Option (Block K) := do
  let shape ← commonShape? b.shape c.shape
  return ⟨shape, List.zipWith f (b.spread shape) (c.spread shape)⟩

/-- Applies a function of several numbers that gives `count` numbers to the entries of as many
blocks. The results run along the first direction. -/
def lift? (count : Nat) (f : List K → List K) (blocks : List (Block K)) : Option (Block K) := do
  let shape ← commonShapeOf? (blocks.map Block.shape)
  let columns := blocks.map fun b => (b.spread shape).toArray
  let results := (List.range (volume shape)).map fun i => (f (columns.filterMap (·[i]?))).toArray
  return ⟨count :: shape, (List.range count).flatMap fun j => results.filterMap (·[j]?)⟩

end Block

end FrameKinematics
