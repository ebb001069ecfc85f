import FrameKinematics.Document.Quantity

/-!
# Sample stores

A store of samples under whole numbers that is bounded in size. It is a list in order of use,
so the sample that was used least recently is the first, and the first to go when the store
is too large.
-/

namespace FrameKinematics

/-- Samples under their indices, the least recently used one first. -/
structure SampleStore (α : Type) where
  entries : List (Int × α) := []

namespace SampleStore

variable {α K : Type}

/-- The indices of the samples in order of use. -/
def indices (s : SampleStore α) : List Int := s.entries.map Prod.fst

/-- The sample under an index. -/
def find? (s : SampleStore α) (index : Int) : Option α :=
  (s.entries.find? fun entry => entry.1 == index).map Prod.snd

/-- Puts a sample under an index, as the one used most recently. -/
def put (s : SampleStore α) (index : Int) (value : α) : SampleStore α :=
  ⟨s.entries.filter (fun entry => entry.1 != index) ++ [(index, value)]⟩

/-- Drops entries from the front of a list while there are more of them than the capacity. -/
def dropExcess [Scalar K] (capacity : Quantity K) : List (Int × α) → List (Int × α)
  | [] => []
  | entry :: entries =>
    if capacity.less (.whole (entries.length + 1)) then dropExcess capacity entries
    else entry :: entries

/-- Drops the samples used least recently until the rest fits. -/
def trim [Scalar K] (capacity : Quantity K) (s : SampleStore α) : SampleStore α :=
  ⟨dropExcess capacity s.entries⟩

end SampleStore

end FrameKinematics
