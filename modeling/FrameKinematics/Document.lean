/-!
# Documents

Settings come as documents: nested lists and tables of texts, numbers and flags, as a
configuration file gives them. A whole number stays apart from a scalar, because settings
compare and print them differently.
-/

namespace FrameKinematics

/-- A nested value of a configuration. A table keeps its entries in the order given. -/
inductive Document (K : Type) where
  | null
  | flag (value : Bool)
  | whole (value : Int)
  | real (value : K)
  | text (value : String)
  | list (items : List (Document K))
  | table (entries : List (String × Document K))

namespace Document

variable {K : Type}

/-- The entry of a table under a key. -/
def entry? (entries : List (String × Document K)) (key : String) : Option (Document K) :=
  (entries.find? fun item => item.1 == key).map Prod.snd

/-- Puts an entry into a table. One whose key is there already takes its place. -/
def putEntry (entries : List (String × Document K)) (key : String) (value : Document K) :
    List (String × Document K) :=
  if entries.any fun entry => entry.1 == key then
    entries.map fun entry => if entry.1 == key then (key, value) else entry
  else entries ++ [(key, value)]

/-- The entry of a document under a key, if it is a table and has one. -/
def get? (d : Document K) (key : String) : Option (Document K) :=
  match d with
  | .table entries => entry? entries key
  | _ => none

/-- The entry of a document under a key, and nothing if there is none. -/
def get (d : Document K) (key : String) : Document K := (d.get? key).getD .null

/-- Whether a document is nothing. -/
def isNull : Document K → Bool
  | .null => true
  | _ => false

/-- Whether a document can hold something: a text, a list or a table. -/
def isContainer : Document K → Bool
  | .text _ => true
  | .list _ => true
  | .table _ => true
  | _ => false

/-- Whether a document counts as a yes: anything but nothing, zero and the empty ones. -/
def isYes [BEq K] [OfScientific K] : Document K → Bool
  | .null => false
  | .flag b => b
  | .whole n => n != 0
  | .real x => !(x == 0.0)
  | .text s => s != ""
  | .list items => !items.isEmpty
  | .table entries => !entries.isEmpty

/-- The name of the kind of a document. -/
def kindName : Document K → String
  | .null => "NoneType"
  | .flag _ => "bool"
  | .whole _ => "int"
  | .real _ => "float"
  | .text _ => "str"
  | .list _ => "list"
  | .table _ => "dict"

end Document

/-- A number as a document gives it: whole, a flag that counts as zero or one, or a scalar. -/
inductive Quantity (K : Type) where
  | whole (value : Int)
  | flag (value : Bool)
  | real (value : K)

end FrameKinematics
