import FrameKinematics.Document.Block

/-!
# Operations on components

A block whose first direction runs over the components of a vector or a quaternion, or whose
first two run over the entries of a matrix, may have more directions behind: then it holds many
of them, and an operation acts on all at once. Components beyond those that an operation needs
do not matter, and one that it needs and a block lacks is the fault.
-/

namespace FrameKinematics.Block

variable {K : Type} [Scalar K]

/-- The layer of a block at a place that it needs to have. -/
def layer (b : Block K) (i : Nat) : Except (Fault K) (Block K) :=
  match b.layer? i with
  | some layer => return layer
  | none => throw .missingEntry

/-- The first components of a block. -/
def components (count : Nat) (b : Block K) : Except (Fault K) (List (Block K)) :=
  (List.range count).mapM b.layer

/-- The entries of a block of matrices at some places. -/
def matrixEntries (b : Block K) (places : List (Nat × Nat)) : Except (Fault K) (List (Block K)) :=
  places.mapM fun (i, j) => do (← b.layer i).layer j

/-- The only number of a block without a direction. -/
def number (b : Block K) : Except (Fault K) K :=
  match b.shape, b.entries with
  | [], [x] => return x
  | _, _ => throw .wrongShape

/-- The only number of a block with or without directions. -/
def soleEntry (b : Block K) : Except (Fault K) K :=
  match b.entries with
  | [x] => return x
  | _ => throw .wrongShape

/-- Applies a function of several numbers to the entries of as many blocks. -/
def lift (count : Nat) (f : List K → List K) (blocks : List (Block K)) :
    Except (Fault K) (Block K) :=
  match lift? count f blocks with
  | some b => return b
  | none => throw .wrongShape

/-- Products of quaternions. -/
def multiplied (p q : Block K) : Except (Fault K) (Block K) := do
  lift 4 (fun
    | [a, b, c, d, e, f, g, h] => (Quaternion.mul ⟨a, b, c, d⟩ ⟨e, f, g, h⟩).toList
    | _ => []) ((← p.components 4) ++ (← q.components 4))

/-- Conjugates of quaternions. -/
def conjugated (q : Block K) : Except (Fault K) (Block K) := do
  lift 4 (fun
    | [w, x, y, z] => (Quaternion.conjugate ⟨w, x, y, z⟩).toList
    | _ => []) (← q.components 4)

/-- A block divided by the norm of the quaternion of its first components, if that is not zero.
There has to be a single quaternion. -/
def normalized (q : Block K) : Except (Fault K) (Block K) := do
  match ← (← q.components 4).mapM soleEntry with
  | [w, x, y, z] =>
    let n := Scalar.sqrt (Quaternion.normSq ⟨w, x, y, z⟩)
    return if n == 0.0 then q else ⟨q.shape, q.entries.map (· / n)⟩
  | _ => throw .missingEntry

/-- Vectors rotated with quaternions by `turn`. -/
def rotatedBy (turn : Quaternion K → Vec3 K → Vec3 K) (q v : Block K) :
    Except (Fault K) (Block K) := do
  lift 3 (fun
    | [w, x, y, z, a, b, c] => (turn ⟨w, x, y, z⟩ ⟨a, b, c⟩).toList
    | _ => []) ((← q.components 4) ++ (← v.components 3))

/-- Vectors rotated with quaternions. -/
def rotated (q v : Block K) : Except (Fault K) (Block K) := rotatedBy Quaternion.rotate q v

/-- Vectors rotated with the inverses of quaternions. -/
def rotatedBack (q v : Block K) : Except (Fault K) (Block K) :=
  rotatedBy Quaternion.rotateInverse q v

/-- The matrices of quaternions. -/
def matrices (q : Block K) : Except (Fault K) (Block K) := do
  let b ← lift 9 (fun
    | [w, x, y, z] => (Quaternion.matrix ⟨w, x, y, z⟩).toList
    | _ => []) (← q.components 4)
  return { b with shape := 3 :: 3 :: b.shape.drop 1 }

/-- All places of a matrix, row by row. -/
def matrixPlaces : List (Nat × Nat) :=
  [(0, 0), (0, 1), (0, 2), (1, 0), (1, 1), (1, 2), (2, 0), (2, 1), (2, 2)]

/-- The quaternion of a single matrix. -/
def quaternions (m : Block K) : Except (Fault K) (Block K) := do
  let entries ← m.matrixEntries matrixPlaces
  match ← entries.mapM soleEntry with
  | [a, b, c, d, e, f, g, h, i] =>
    return ⟨4 :: m.shape.drop 2, (Quaternion.ofMatrix ⟨⟨a, b, c⟩, ⟨d, e, f⟩, ⟨g, h, i⟩⟩).toList⟩
  | _ => throw .missingEntry

/-- The vectors of the antisymmetric parts of matrices. -/
def deskewed (m : Block K) : Except (Fault K) (Block K) := do
  lift 3 (fun
    | [a, b, c, d, e, f, g, h, i] => (Mat3.deskew ⟨⟨a, b, c⟩, ⟨d, e, f⟩, ⟨g, h, i⟩⟩).toList
    | _ => []) (← m.matrixEntries matrixPlaces)

/-- The vector of the first components of a block, which have to be single numbers. -/
def leadingVector (v : Block K) : Except (Fault K) (Vec3 K) := do
  match ← (← v.components 3).mapM number with
  | [x, y, z] => return ⟨x, y, z⟩
  | _ => throw .missingEntry

/-- The skew symmetric matrix of a vector. -/
def skewed (v : Block K) : Except (Fault K) (Mat3 K) := do return Mat3.skew (← v.leadingVector)

/-- The skew symmetric matrix of a vector times a matrix. Both have to be made of single numbers,
which is seen before the last columns are needed. -/
def skewProduct (v m : Block K) : Except (Fault K) (Mat3 K) := do
  let column ← m.matrixEntries [(0, 0), (1, 0), (2, 0)]
  let v ← v.leadingVector
  let _ ← column.mapM number
  match ← (← m.matrixEntries matrixPlaces).mapM number with
  | [a, b, c, d, e, f, g, h, i] => return Mat3.skewProduct v ⟨⟨a, b, c⟩, ⟨d, e, f⟩, ⟨g, h, i⟩⟩
  | _ => throw .missingEntry

end FrameKinematics.Block
