import FrameKinematics.Fault
import FrameKinematics.Text.Capital

/-!
# Selections of derivatives

Which derivatives of the samples an interpolation has to meet: none, the first, or the first
two. The selections have names, which differ for the cartesian and the angular part of a
transform.
-/

namespace FrameKinematics

/-- The derivatives of the samples that are used. -/
inductive Selection where
  | valueOnly
  | withFirst
  | withSecond
deriving DecidableEq, Repr

namespace Selection

/-- The highest derivative used. -/
def order : Selection → Nat
  | valueOnly => 0
  | withFirst => 1
  | withSecond => 2

/-- The name of a selection for a part of a transform. -/
def name : Part → Selection → String
  | .cartesian, valueOnly => "USE_P"
  | .cartesian, withFirst => "USE_PV"
  | .cartesian, withSecond => "USE_PVA"
  | .angular, valueOnly => "USE_R"
  | .angular, withFirst => "USE_RR"
  | .angular, withSecond => "USE_RRA"

/-- All selections in order. -/
def all : List Selection := [valueOnly, withFirst, withSecond]

/-- The selection of a name exactly as it is written. -/
def ofExactName? (part : Part) (given : String) : Option Selection :=
  all.find? fun s => s.name part == given

/-- The selection of a name, in small or capital letters. -/
def ofName? (part : Part) (given : String) : Option Selection :=
  ofExactName? part (Text.capitals given)

end Selection

/-- What the derivatives of an interpolation are chosen by: a selection, or a value of another
kind, which is seen to be none when it is used. -/
inductive Choice where
  | of (selection : Selection)
  | other (kind : String)
deriving DecidableEq, Repr

namespace Choice

instance : Coe Selection Choice := ⟨of⟩

/-- The selection of a choice. -/
def selection {K : Type} : Choice → Except (Fault K) Selection
  | of selection => return selection
  | other kind => throw (.noMember ("'" ++ kind ++ "' object has no attribute 'max_order'"))

/-- The name of the selection of a choice for a part of a transform. -/
def name {K : Type} (part : Part) (choice : Choice) : Except (Fault K) String := do
  return (← choice.selection).name part

end Choice

end FrameKinematics
