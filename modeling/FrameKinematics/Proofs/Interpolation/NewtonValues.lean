import FrameKinematics.Proofs.Interpolation.NewtonForm

/-!
# Values of Newton polynomials

The products of distances from a point to the nodes are the constant coefficients of products of
`X + C w`, the Taylor expansions of the factors `X - x`. A step from one derivative to the next
turns coefficients of one order into coefficients of the next order, so the three sums that are
evaluated are Taylor coefficients of the polynomial: its value and its first two derivatives.
-/

namespace FrameKinematics.Newton

open Polynomial

/-- The polynomial of nodes and coefficients in Newton form. -/
noncomputable def form : List ℝ → List ℝ → ℝ[X]
  | x :: xs, c :: cs => C c + (X - C x) * form xs cs
  | [], c :: _ => C c
  | _, [] => 0

/-- A polynomial of low degree is the Newton form of the remainders of its divisions. -/
theorem form_remainders {f : ℝ[X]} {xs : List ℝ} (hf : f.degree < xs.length) :
    form xs (remainders f xs) = f := by
  induction xs generalizing f with
  | nil =>
    have hzero : f = 0 := by
      rwa [List.length_nil, Nat.cast_zero, Nat.WithBot.lt_zero_iff, degree_eq_bot] at hf
    rw [hzero, remainders, form]
  | cons x xs ih =>
    have hquotient := degree_quotient_lt f hf x
    rw [remainders, form, ih hquotient, ← eq_add_mul_quotient]

/-- There is one remainder for each node. -/
theorem length_remainders (f : ℝ[X]) (xs : List ℝ) : (remainders f xs).length = xs.length := by
  induction xs generalizing f with
  | nil => rfl
  | cons x xs ih => rw [remainders, List.length_cons, ih, List.length_cons]

section Layers

/-- The coefficients of one order of the products of a polynomial with more and more of the factors
`X + C w`. -/
noncomputable def layer (order : ℕ) : ℝ[X] → List ℝ → List ℝ
  | π, [] => [π.coeff order]
  | π, w :: ws => π.coeff order :: layer order ((X + C w) * π) ws

variable (π : ℝ[X]) (w : ℝ) (ws : List ℝ) (j : ℕ)

/-- A layer starts with the coefficient of the polynomial itself. -/
theorem layer_eq_cons : layer j π ws = π.coeff j :: (layer j π ws).tail := by
  cases ws with
  | nil => rfl
  | cons w ws => rfl

/-- One more factor mixes two neighbouring coefficients. -/
theorem coeff_mul_succ : ((X + C w) * π).coeff (j + 1) = w * π.coeff (j + 1) + π.coeff j := by
  rw [add_mul, coeff_add, coeff_X_mul, coeff_C_mul, add_comm]

/-- The products of distances are the constant coefficients. -/
theorem products_eq : products ws = layer 0 1 ws := by
  have hscan (π : ℝ[X]) :
      ws.scanl (fun product w => w * product) (π.coeff 0) = layer 0 π ws := by
    induction ws generalizing π with
    | nil => rfl
    | cons w ws ih =>
      have hcoeff : ((X + C w) * π).coeff 0 = w * π.coeff 0 := by
        rw [mul_coeff_zero, coeff_add, coeff_X_zero, coeff_C_zero, zero_add]
      rw [List.scanl_cons, layer, ← ih, hcoeff]
  rw [products, Scalar.one_literal, ← hscan 1, coeff_one_zero]

/-- Each layer is computed from the one below it. -/
theorem advanceFrom_layer :
    advanceFrom (π.coeff (j + 1)) ws (layer j π ws) = (layer (j + 1) π ws).tail := by
  induction ws generalizing π with
  | nil => rfl
  | cons w ws ih =>
    have hnext := layer_eq_cons ((X + C w) * π) ws (j + 1)
    rw [layer, layer, advanceFrom, ← coeff_mul_succ, ih, List.tail_cons, ← hnext]

/-- A step to the next derivative takes coefficients of one order to coefficients of the next one.
The product it starts from has to end there. -/
theorem advance_layer (hend : π.coeff (j + 1) = 0) :
    advance ws (layer j π (w :: ws)) = layer (j + 1) ((X + C w) * π) ws := by
  have hhead : π.coeff j = ((X + C w) * π).coeff (j + 1) := by
    rw [coeff_mul_succ, hend, mul_zero, zero_add]
  rw [layer, advance, hhead, advanceFrom_layer, ← layer_eq_cons]

/-- The weights of the coefficients in the first derivative. -/
theorem advance_products (w : ℝ) (ws : List ℝ) :
    advance ws (products (w :: ws)) = layer 1 (X + C w) ws := by
  have hend : (1 : ℝ[X]).coeff 1 = 0 := coeff_one.trans (if_neg one_ne_zero)
  rw [products_eq, advance_layer 1 w ws 0 hend, mul_one]

/-- The weights of the coefficients in half of the second derivative. -/
theorem advance_advance_products (w v : ℝ) (ws : List ℝ) :
    advance ws (advance (v :: ws) (products (w :: v :: ws))) =
      layer 2 ((X + C v) * (X + C w)) ws := by
  have hend : (X + C w : ℝ[X]).coeff 2 = 0 := by
    rw [coeff_add, coeff_X, coeff_C]
    norm_num
  rw [advance_products, advance_layer _ v ws 1 hend]

end Layers

section Sums

variable (x : ℝ)

/-- The Taylor expansion of a Newton form, by its first node. -/
theorem taylor_form_cons (node c : ℝ) (nodes cs : List ℝ) :
    taylor x (form (node :: nodes) (c :: cs)) =
      C c + (X + C (x - node)) * taylor x (form nodes cs) := by
  rw [form, map_add, taylor_C, taylor_mul, map_sub, taylor_X, taylor_C, C_sub, add_sub_assoc]

/-- The sum of coefficients times weights of one order, from an initial value on. -/
theorem foldl_layer (j : ℕ) (π : ℝ[X]) (nodes cs : List ℝ) (initial : ℝ) :
    ((layer j π (nodes.map fun node => x - node)).zip cs).foldl
        (fun sum (w, c) => sum + w * c) initial =
      initial + (π * taylor x (form nodes cs)).coeff j := by
  induction nodes generalizing π cs initial with
  | nil =>
    cases cs with
    | nil => simp [form]
    | cons c cs => simp [form, layer]
  | cons node nodes ih =>
    cases cs with
    | nil => simp [form]
    | cons c cs =>
      rw [List.map_cons, layer, List.zip_cons_cons, List.foldl_cons, ih, taylor_form_cons,
        mul_add, coeff_add, coeff_mul_C, mul_left_comm, mul_assoc, add_assoc]

/-- When the first weight is one, the weighted sum is a coefficient of the expansion at `x`. -/
theorem weighted_layer {j : ℕ} {π : ℝ[X]} (hone : π.coeff j = 1) (nodes cs : List ℝ) :
    weighted (layer j π (nodes.map fun node => x - node)) cs =
      (π * taylor x (form nodes cs)).coeff j := by
  cases cs with
  | nil =>
    have hzero : form nodes [] = 0 := by
      cases nodes with
      | nil => rfl
      | cons node nodes => rfl
    rw [hzero, map_zero, mul_zero, coeff_zero]
    cases nodes with
    | nil => exact Scalar.zero_literal
    | cons node nodes => exact Scalar.zero_literal
  | cons c cs =>
    cases nodes with
    | nil => simp [form, layer, weighted, hone]
    | cons node nodes =>
      rw [List.map_cons, layer, weighted, foldl_layer, taylor_form_cons, mul_add, coeff_add,
        coeff_mul_C, hone, one_mul, mul_left_comm, mul_assoc]

/-- Nothing but weights adds up to nothing. -/
theorem weighted_nil (weights : List ℝ) : weighted weights [] = 0 := by
  cases weights with
  | nil => exact Scalar.zero_literal
  | cons w ws => exact Scalar.zero_literal

variable {nodes cs : List ℝ}

/-- The first weighted sum is the value. -/
theorem weighted_products (nodes cs : List ℝ) :
    weighted (products (nodes.map fun node => x - node)) cs =
      (taylor x (form nodes cs)).coeff 0 := by
  have hsum := weighted_layer x coeff_one_zero nodes cs
  rwa [← products_eq, one_mul] at hsum

/-- The second weighted sum is the first Taylor coefficient. -/
theorem weighted_second (hlength : cs.length = nodes.length) :
    weighted (advance ((nodes.map fun node => x - node).drop 1)
      (products (nodes.map fun node => x - node))) (cs.drop 1) =
        (taylor x (form nodes cs)).coeff 1 := by
  match nodes, cs, hlength with
  | [], [], _ => simp [form, weighted_nil]
  | node :: nodes, c :: cs, _ =>
    have hone : (X + C (x - node) : ℝ[X]).coeff 1 = 1 := by
      rw [coeff_add, coeff_X_one, coeff_C_succ, add_zero]
    rw [List.map_cons, List.drop_one, List.tail_cons, List.drop_one, List.tail_cons,
      advance_products, weighted_layer x hone, taylor_form_cons, coeff_add, coeff_C_succ, zero_add]

/-- The third weighted sum is the second Taylor coefficient. -/
theorem weighted_third (hlength : cs.length = nodes.length) :
    weighted (advance ((nodes.map fun node => x - node).drop 2)
      (advance ((nodes.map fun node => x - node).drop 1)
        (products (nodes.map fun node => x - node)))) (cs.drop 2) =
          (taylor x (form nodes cs)).coeff 2 := by
  match nodes, cs, hlength with
  | [], [], _ => simp [form, weighted_nil]
  | [node], [c], _ =>
    rw [taylor_form_cons]
    simp [form, weighted_nil]
  | node :: next :: nodes, c :: d :: cs, _ =>
    have hone : ((X + C (x - next)) * (X + C (x - node)) : ℝ[X]).coeff 2 = 1 := by
      rw [coeff_mul_succ, coeff_add, coeff_add, coeff_X_one, coeff_X, coeff_C_succ, coeff_C_succ]
      norm_num
    have hlow : ((X + C (x - node)) * C d : ℝ[X]).coeff 2 = 0 := by
      rw [coeff_mul_C, coeff_add, coeff_X, coeff_C_succ]
      norm_num
    have hdrop : (c :: d :: cs).drop 2 = cs := rfl
    rw [List.map_cons, List.map_cons, List.drop_one, List.tail_cons, hdrop]
    change weighted (advance (nodes.map fun node => x - node) _) cs = _
    rw [advance_advance_products, weighted_layer x hone, taylor_form_cons, taylor_form_cons,
      coeff_add, coeff_C_succ, zero_add, mul_add (X + C (x - node)) (C d), coeff_add, hlow,
      zero_add, mul_assoc, mul_left_comm]

/-- What is evaluated are the value and the first two derivatives of the Newton form. -/
theorem evaluate_eq {p : Newton ℝ} (hlength : p.coefficients.length = p.nodes.length) :
    p.evaluate x =
      ((form p.nodes p.coefficients).eval x, (derivative (form p.nodes p.coefficients)).eval x,
        (derivative^[2] (form p.nodes p.coefficients)).eval x) := by
  have hhalf := eval_iterate_derivative (form p.nodes p.coefficients) x 2
  rw [evaluate, weighted_products, weighted_second x hlength, weighted_third x hlength,
    taylor_coeff_zero, taylor_coeff_one, hhalf, Scalar.two_literal]
  rfl

end Sums

end FrameKinematics.Newton
