import FrameKinematics.Fault

/-!
# Newton polynomials on repeated nodes

A polynomial is built one condition at a time from its divided differences. A node that is
repeated in succession asks for derivatives: its `s`-th repetition prescribes the `s`-th
derivative there. With `f[...]` for divided differences, inserting a node `x` computes

    f[x], f[x₀, x], f[x₀, x₁, x], …

each from the one before and from the differences of the previous insertion, and the last of
them is the next coefficient.
-/

namespace FrameKinematics

/-- A Newton polynomial under construction. -/
structure Newton (K : Type) where
  /-- The nodes before the run of equal nodes that was inserted last. -/
  settled : List K
  /-- The node of that run. -/
  node : K
  /-- How often it was inserted. -/
  times : Nat
  /-- The divided differences of the last insertion, over more and more settled nodes. -/
  row : List K
  /-- The coefficients of the Newton form in order. -/
  coefficients : List K

namespace Newton

variable {K : Type} [Scalar K]

/-- The polynomial that takes a value at a node. -/
def start (node value : K) : Newton K := ⟨[], node, 1, [value], [value]⟩

/-- The product of the first natural numbers. -/
def factorial : Nat → Nat
  | 0 => 1
  | n + 1 => (n + 1) * factorial n

/-- The divided differences of an insertion of the node `x`, from the first one, `value`, and
from the differences `earlier` over one settled node more each. A settled node cannot come
again. -/
def differences (x : K) : List K → List K → K → Except (Fault K) (List K)
  | node :: nodes, e :: earlier, value =>
    if node == x then .error .inseparableAbscissae
    else do
      let rest ← differences x nodes earlier ((e - value) / (node - x))
      return value :: rest
  | _, _, value => .ok [value]

/-- All nodes inserted so far in order. -/
def nodes (p : Newton K) : List K := p.settled ++ List.replicate p.times p.node

/-- Inserts a condition: the value of the next derivative when the node is the last one again,
and the value of the polynomial at a new node otherwise. -/
def insert (p : Newton K) (x value : K) : Except (Fault K) (Newton K) := do
  if x == x then
    if p.node == x then
      let row ← differences x p.settled p.row.tail (value / Scalar.ofNat (factorial p.times))
      return { p with
        times := p.times + 1
        row := row
        coefficients := p.coefficients ++ row.getLast?.toList }
    else
      let row ← differences x p.nodes p.coefficients value
      return ⟨p.nodes, x, 1, row, p.coefficients ++ row.getLast?.toList⟩
  else throw .inseparableAbscissae

/-- The polynomial that meets conditions in order. Of none there is no polynomial. -/
def ofConditions : List (K × K) → Except (Fault K) (Newton K)
  | [] => .error .missingEntry
  | (x, value) :: rest => rest.foldlM (fun p (x, value) => p.insert x value) (start x value)

/-- The products `1, w₀, w₀ w₁, …` of the distances to the nodes. -/
def products (weights : List K) : List K :=
  weights.scanl (fun product w => w * product) 1.0

/-- The rest of the weights of the next derivative, after `previous`. -/
def advanceFrom (previous : K) : List K → List K → List K
  | w :: ws, r :: rs =>
    let next := w * previous + r
    next :: advanceFrom next ws rs
  | _, _ => []

/-- The weights of the coefficients in the next derivative, from those in the last one. -/
def advance (weights : List K) : List K → List K
  | [] => []
  | r :: rs => r :: advanceFrom r weights rs

/-- The sum of the coefficients times their weights, the first of which is one. -/
def weighted : List K → List K → K
  | _ :: ws, c :: cs => (ws.zip cs).foldl (fun sum (w, c) => sum + w * c) c
  | _, _ => 0.0

/-- The value and the first two derivatives of the polynomial at `x`. -/
def evaluate (p : Newton K) (x : K) : K × K × K :=
  let distances := p.nodes.map fun node => x - node
  let first := products distances
  let second := advance (distances.drop 1) first
  let third := advance (distances.drop 2) second
  (weighted first p.coefficients, weighted second (p.coefficients.drop 1),
   2.0 * weighted third (p.coefficients.drop 2))

end Newton

end FrameKinematics
