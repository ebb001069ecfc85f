import FrameKinematics.Rotation
import FrameKinematics.Scalar.Bounded
import FrameKinematics.Text.Numeral

/-!
# Blocks in documents

Nested lists of numbers are read as blocks. The shape comes first: all items of a list have to be
alike, and lists may not be nested too deeply. Then the numbers are read in order, and texts may
write them. Vectors, quaternions and matrices are read from blocks with the right number of
entries, however these are nested. Points may also be given by fewer numbers: a single one stands
for three equal coordinates.

The factor of a block is read more strictly. It has to be made of numbers alone, and to fit the
shape of the block.
-/

namespace FrameKinematics

/-- The vector of a block of three numbers. -/
def Block.vector {K : Type} (b : Block K) : Except (Fault K) (Vec3 K) :=
  match b.entries with
  | [x, y, z] => return ⟨x, y, z⟩
  | xs => throw (.wrongShape
    ("cannot reshape array of size " ++ toString xs.length ++ " into shape (3,)"))

end FrameKinematics

namespace FrameKinematics.Document

variable {K : Type} [Scalar K]

/-- The number of directions up to which lists may be nested. -/
def directions : Nat := 64

mutual

/-- The extents of a document as a block, if all items of its lists are alike. -/
def extents? {K : Type} : Document K → Option (List Nat)
  | list items => do
    match ← extentsOfItems? items with
    | [] => return [0]
    | first :: rest => if rest.all (· == first) then some ((rest.length + 1) :: first) else none
  | _ => some []

/-- The extents of several documents. -/
def extentsOfItems? {K : Type} : List (Document K) → Option (List (List Nat))
  | [] => some []
  | d :: ds => do return (← extents? d) :: (← extentsOfItems? ds)

end

mutual

/-- The items of the innermost lists of a document in order, or the document itself. -/
def leaves {K : Type} : Document K → List (Document K)
  | list items => leavesOfItems items
  | d => [d]

/-- The innermost items of several documents. -/
def leavesOfItems {K : Type} : List (Document K) → List (Document K)
  | [] => []
  | d :: ds => leaves d ++ leavesOfItems ds

end

/-- The shape of a document as a block. -/
def shape {K : Type} (d : Document K) : Except (Fault K) (List Nat) :=
  match d.extents? with
  | some shape => if shape.length ≤ directions then return shape else throw .wrongShape
  | none => throw .wrongShape

/-- The entry of a block that a document is. Nothing counts as a scalar that is no number, and a
flag as zero or one. -/
def blockEntry : Document K → Except (Fault K) K
  | null => return 0.0 / 0.0
  | flag b => return if b then 1.0 else 0.0
  | whole n => Scalar.ofInt n
  | real x => return x
  | text s =>
    match Text.scalar? s with
    | some x => return x
    | none => throw .wrongShape
  | list _ => throw .wrongShape
  | table _ => throw .wrongKind

/-- The block of a document. -/
def block (d : Document K) : Except (Fault K) (Block K) := do
  let shape ← d.shape
  return ⟨shape, ← d.leaves.mapM blockEntry⟩

/-- The factor of a block of a certain shape that a document is. -/
def factor (others : List Nat) (d : Document K) : Except (Fault K) (Block K) := do
  let shape ← d.shape
  let isMissing : Document K → Bool
    | null => true
    | table _ => true
    | _ => false
  let isText : Document K → Bool
    | text _ => true
    | _ => false
  if d.leaves.any isText && !d.leaves.any isMissing then throw .wrongKind
  if (Block.commonShape? others shape).isNone then throw .wrongShape
  if d.leaves.any isMissing then throw .wrongKind
  return ⟨shape, ← d.leaves.mapM blockEntry⟩

/-- The only entry of the factor of a number. -/
def soleFactor (d : Document K) : Except (Fault K) K := do
  match (← d.factor []).entries with
  | [x] => return x
  | _ => throw .wrongShape

/-- The vector of three numbers. -/
def vector (d : Document K) : Except (Fault K) (Vec3 K) := do (← d.block).vector

/-- The quaternion of four numbers. -/
def quaternion (d : Document K) : Except (Fault K) (Quaternion K) := do
  match (← d.block).entries with
  | [w, x, y, z] => return ⟨w, x, y, z⟩
  | _ => throw .wrongShape

/-- The matrix of nine numbers. -/
def matrix (d : Document K) : Except (Fault K) (Mat3 K) := do
  match (← d.block).entries with
  | [a, b, c, d, e, f, g, h, i] => return ⟨⟨a, b, c⟩, ⟨d, e, f⟩, ⟨g, h, i⟩⟩
  | _ => throw .wrongShape

/-- The coordinates of points, which run along the last direction. A single number in that
direction stands for three equal coordinates. -/
def coordinates (d : Document K) : Except (Fault K) (Block K) := do
  let b ← d.block
  match Block.commonShape? [3] b.shape with
  | some shape => return ⟨shape, b.spread shape⟩
  | none => throw .wrongShape

/-- The point of three coordinates, however these are nested. -/
def position (d : Document K) : Except (Fault K) (Vec3 K) := do (← d.coordinates).vector

/-- The point of three coordinates that are not nested. -/
def point (d : Document K) : Except (Fault K) (Vec3 K) := do
  let b ← d.coordinates
  if b.shape.length = 1 then b.vector else throw .wrongKind

end FrameKinematics.Document
