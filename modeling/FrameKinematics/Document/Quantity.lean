import FrameKinematics.Fault
import FrameKinematics.Instant.Shift

/-!
# Quantities

A number of a configuration may be a whole number of any size or a scalar. Comparisons are
exact: a whole number is never rounded to be compared with a scalar. A scalar that is no number
is neither less nor greater than anything.
-/

namespace FrameKinematics.Quantity

variable {K : Type} [Scalar K]

/-- The whole number of a quantity that is one; a flag counts as zero or one. -/
def whole? {K : Type} : Quantity K → Option Int
  | whole n => some n
  | flag b => some (if b then 1 else 0)
  | real _ => none

/-- Whether a scalar is less than a whole number, which its greatest whole part then is too. -/
def scalarLess (x : K) (n : Int) : Bool :=
  match Scalar.floor x with
  | .ok below => decide (below < n)
  | .error .notANumber => false
  | .error .infinite => decide (x < 0.0)

/-- Whether one quantity is less than another. -/
def less : Quantity K → Quantity K → Bool
  | real x, real y => decide (x < y)
  | real x, whole n => scalarLess x n
  | real x, flag b => scalarLess x (if b then 1 else 0)
  | whole n, real y => scalarLess (-y) (-n)
  | flag b, real y => scalarLess (-y) (-(if b then 1 else 0))
  | whole n, whole k => decide (n < k)
  | whole n, flag b => decide (n < if b then 1 else 0)
  | flag b, whole n => decide ((if b then 1 else 0 : Int) < n)
  | flag b, flag c => !b && c

/-- Whether a quantity is greater than zero. -/
def isPositive (q : Quantity K) : Bool := (whole 0).less q

/-- Whether a quantity is a number at all. -/
def isNumber : Quantity K → Bool
  | real x => x == x
  | _ => true

/-- Whether two quantities are the same number: neither is less than the other. -/
def same (p q : Quantity K) : Bool :=
  p.isNumber && q.isNumber && !p.less q && !q.less p

/-- The opposite of a quantity. -/
def negated : Quantity K → Quantity K
  | real x => real (-x)
  | whole n => whole (-n)
  | flag b => whole (if b then -1 else 0)

/-- The scalar nearest to a quantity. -/
def toScalar (q : Quantity K) : Except (Fault K) K :=
  match q with
  | real x => return x
  | whole n => Scalar.ofInt n
  | flag b => return if b then 1.0 else 0.0

/-- The quantity that a document is, if it is a number. -/
def ofDocument? {K : Type} : Document K → Option (Quantity K)
  | .whole n => some (whole n)
  | .flag b => some (flag b)
  | .real x => some (real x)
  | _ => none

end FrameKinematics.Quantity

namespace FrameKinematics.Document

variable {K : Type} [Scalar K]

mutual

/-- Whether two documents are the same: numbers by their values, lists item by item, and tables
entry by entry in any order. -/
def same : Document K → Document K → Bool
  | null, null => true
  | text s, text t => s == t
  | list ds, list es => sameItems ds es
  | table ds, table es => ds.length == es.length && sameEntries ds es
  | d, e =>
    match Quantity.ofDocument? d, Quantity.ofDocument? e with
    | some p, some q => p.same q
    | _, _ => false

/-- Whether the items of two lists are the same. -/
def sameItems : List (Document K) → List (Document K) → Bool
  | [], [] => true
  | d :: ds, e :: es => same d e && sameItems ds es
  | _, _ => false

/-- Whether all entries of one table are in another. -/
def sameEntries : List (String × Document K) → List (String × Document K) → Bool
  | [], _ => true
  | (key, d) :: rest, es =>
    (match entry? es key with
    | some e => same d e
    | none => false) && sameEntries rest es

end

end FrameKinematics.Document
