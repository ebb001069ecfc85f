import FrameKinematics.Document
import FrameKinematics.Scalar.Bounded

/-!
# Numerals

JSON has no words for the scalars that are no finite numbers. In lists of numbers texts stand
for them, and in the tables of a configuration, where a text is a text, tables with the key
`num`.
-/

namespace FrameKinematics.Document

variable {K : Type} [Scalar K]

/-- The scalar that a text stands for. -/
def scalarOfText? : String → Option K
  | "nan" => some (0.0 / 0.0)
  | "inf" => some (1.0 / 0.0)
  | "-inf" => some (-(1.0 / 0.0))
  | "-0.0" => some (-0.0)
  | _ => none

mutual

/-- A document of numbers. Whole numbers become the scalars nearest to them, and so do the texts
that stand for scalars; all else stays as it is. -/
def numerals : Document K → Except (Fault K) (Document K)
  | whole n => do return real (← Scalar.ofInt n)
  | text s => return ((scalarOfText? s).map real).getD (text s)
  | list items => do return list (← numeralsOfItems items)
  | d => return d

/-- The items of a list of numbers. -/
def numeralsOfItems : List (Document K) → Except (Fault K) (List (Document K))
  | [] => return []
  | d :: ds => do return (← numerals d) :: (← numeralsOfItems ds)

end

mutual

/-- A configuration, with numbers in the place of the tables that stand for them. Only a table
and the values of its entries may do so, not the items of a list. -/
def configuration : Document K → Except (Fault K) (Document K)
  | table entries =>
    match entry? entries "num" with
    | some d => numerals d
    | none => do return table (← configurationOfEntries entries)
  | d => return d

/-- The entries of a table of a configuration. -/
def configurationOfEntries :
    List (String × Document K) → Except (Fault K) (List (String × Document K))
  | [] => return []
  | (key, d) :: rest => do return (key, ← configuration d) :: (← configurationOfEntries rest)

end

mutual

/-- How deep a document is nested. -/
def depth : Document K → Nat
  | list items => depthOfItems items + 1
  | table entries => depthOfEntries entries + 1
  | _ => 1

/-- How deep the deepest item is nested. -/
def depthOfItems : List (Document K) → Nat
  | [] => 0
  | d :: ds => max (depth d) (depthOfItems ds)

/-- How deep the deepest entry is nested. -/
def depthOfEntries : List (String × Document K) → Nat
  | [] => 0
  | (_, d) :: rest => max (depth d) (depthOfEntries rest)

end

end FrameKinematics.Document
