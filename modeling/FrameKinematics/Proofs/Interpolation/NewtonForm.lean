import Mathlib.Algebra.Polynomial.Taylor
import Mathlib.Algebra.Polynomial.Div
import Mathlib.Tactic.FieldSimp
import Mathlib.Tactic.LinearCombination
import FrameKinematics.Proofs.Scalar.Rounding
import FrameKinematics.Interpolation.Newton

/-!
# Newton polynomials of polynomials

Divide a polynomial by `X - x₀`, the quotient by `X - x₁`, and so on. The remainders are the
coefficients of its Newton form on the nodes `x₀, x₁, …`, and the Taylor coefficients of the
quotients at a further node are the divided differences of its insertion. So a construction whose
conditions are met by some polynomial follows the divisions of that polynomial, and when the
polynomial has a degree less than the number of conditions, it is the one that is constructed.
-/

namespace FrameKinematics.Newton

open Polynomial

section Division

variable (f : ℝ[X])

/-- The quotient of the division of a polynomial by `X - x`. -/
noncomputable def quotient (x : ℝ) : ℝ[X] := f /ₘ (X - C x)

/-- The remainder of the division by `X - x` is the value at `x`. -/
theorem eq_add_mul_quotient (x : ℝ) : f = C (f.eval x) + (X - C x) * quotient f x := by
  have hdivision := modByMonic_add_div f (X - C x)
  rw [modByMonic_X_sub_C_eq_C_eval] at hdivision
  exact hdivision.symm

/-- The Taylor expansion of a polynomial comes from that of its quotient by a node. -/
theorem taylor_eq (a x : ℝ) :
    taylor a f = C (f.eval x) + (X + C (a - x)) * taylor a (quotient f x) := by
  have hdivision := congrArg (taylor a) (eq_add_mul_quotient f x)
  rw [map_add, taylor_mul, taylor_C, map_sub, taylor_X, taylor_C] at hdivision
  rw [hdivision, map_sub, add_sub_assoc]

/-- The value of a quotient at a new node is a divided difference. -/
theorem eval_quotient {a x : ℝ} (hne : x ≠ a) :
    (f.eval x - f.eval a) / (x - a) = (quotient f x).eval a := by
  have hdivision := congrArg (eval a) (eq_add_mul_quotient f x)
  rw [eval_add, eval_C, eval_mul, eval_sub, eval_X, eval_C] at hdivision
  have hdistance : x - a ≠ 0 := sub_ne_zero.mpr hne
  rw [div_eq_iff hdistance]
  linear_combination -hdivision

/-- The Taylor coefficients of a polynomial come from those of its quotient by a node. -/
theorem coeff_taylor_succ (a x : ℝ) (s : ℕ) :
    (taylor a f).coeff (s + 1) =
      (taylor a (quotient f x)).coeff s + (a - x) * (taylor a (quotient f x)).coeff (s + 1) := by
  rw [taylor_eq f a x, coeff_add, coeff_C_succ, zero_add, add_mul, coeff_add, coeff_X_mul,
    coeff_C_mul]

/-- The Taylor coefficients of a quotient at a node that is repeated are divided differences too. -/
theorem coeff_taylor_quotient {a x : ℝ} (hne : x ≠ a) (s : ℕ) :
    ((taylor a (quotient f x)).coeff s - (taylor a f).coeff (s + 1)) / (x - a) =
      (taylor a (quotient f x)).coeff (s + 1) := by
  have hdistance : x - a ≠ 0 := sub_ne_zero.mpr hne
  rw [div_eq_iff hdistance, coeff_taylor_succ f a x]
  ring

/-- Division by `X - a` shifts the Taylor coefficients at `a`. -/
theorem coeff_taylor_quotient_self (a : ℝ) (s : ℕ) :
    (taylor a (quotient f a)).coeff s = (taylor a f).coeff (s + 1) := by
  rw [coeff_taylor_succ f a a, sub_self, zero_mul, add_zero]

/-- Division by `X - x` lowers the degree. -/
theorem degree_quotient_lt {n : ℕ} (hf : f.degree < (n + 1 : ℕ)) (x : ℝ) :
    (quotient f x).degree < n := by
  have hmonic : (X - C x).Monic := monic_X_sub_C x
  by_cases hzero : quotient f x = 0
  · rw [hzero, degree_zero]
    exact WithBot.bot_lt_coe n
  · have hne : f ≠ 0 := by
      rintro rfl
      exact hzero (zero_divByMonic _)
    have hnat : (quotient f x).natDegree = f.natDegree - 1 := by
      rw [quotient, natDegree_divByMonic f hmonic, natDegree_X_sub_C]
    have hpositive : f.natDegree ≠ 0 := by
      intro hconstant
      apply hzero
      rw [quotient, divByMonic_eq_zero_iff hmonic, degree_X_sub_C, degree_eq_natDegree hne,
        hconstant]
      exact zero_lt_one
    rw [degree_eq_natDegree hne, Nat.cast_lt] at hf
    rw [degree_eq_natDegree hzero, Nat.cast_lt]
    omega

/-- The factorials are those of the library. -/
theorem factorial_eq (n : ℕ) : factorial n = n.factorial := by
  induction n with
  | zero => rfl
  | succ n ih => rw [factorial, ih, Nat.factorial_succ]

/-- A derivative is a Taylor coefficient times a factorial. -/
theorem eval_iterate_derivative (a : ℝ) (s : ℕ) :
    (derivative^[s] f).eval a = factorial s * (taylor a f).coeff s := by
  rw [taylor_coeff, factorial_eq, ← factorial_smul_hasseDeriv, LinearMap.smul_apply, eval_smul,
    nsmul_eq_mul]

end Division

section Construction

/-- The remainders of the divisions of a polynomial by `X - x` for one node `x` after the other. -/
noncomputable def remainders : ℝ[X] → List ℝ → List ℝ
  | _, [] => []
  | f, x :: xs => f.eval x :: remainders (quotient f x) xs

/-- The Taylor coefficients of one order at `a` of a polynomial and of its quotients by one node
after the other. -/
noncomputable def tower (a : ℝ) (s : ℕ) : ℝ[X] → List ℝ → List ℝ
  | f, [] => [(taylor a f).coeff s]
  | f, x :: xs => (taylor a f).coeff s :: tower a s (quotient f x) xs

variable (f : ℝ[X]) {a : ℝ} {xs : List ℝ}

/-- The remainders at more nodes are those of the quotient that the first nodes leave. -/
theorem remainders_append (xs ys : List ℝ) :
    remainders f (xs ++ ys) = remainders f xs ++ remainders (xs.foldl quotient f) ys := by
  induction xs generalizing f with
  | nil => rfl
  | cons x xs ih =>
    rw [List.cons_append, remainders, ih, remainders, List.cons_append, List.foldl_cons]

/-- A tower starts with the coefficient of the polynomial itself. -/
theorem tower_eq_cons (a : ℝ) (s : ℕ) (xs : List ℝ) :
    tower a s f xs = (taylor a f).coeff s :: (tower a s f xs).tail := by
  cases xs with
  | nil => rfl
  | cons x xs => rfl

/-- A tower ends with the coefficient of the last quotient. -/
theorem getLast?_tower (a : ℝ) (s : ℕ) (xs : List ℝ) :
    (tower a s f xs).getLast? = some ((taylor a (xs.foldl quotient f)).coeff s) := by
  induction xs generalizing f with
  | nil => rfl
  | cons x xs ih =>
    rw [tower, List.getLast?_cons, ih, Option.getD_some, List.foldl_cons]

/-- Dividing by one node some times moves the Taylor coefficients there down by as many places. -/
theorem coeff_taylor_foldl_replicate (a : ℝ) (s n : ℕ) :
    (taylor a ((List.replicate n a).foldl quotient f)).coeff s = (taylor a f).coeff (s + n) := by
  induction n generalizing f with
  | zero => rfl
  | succ n ih =>
    rw [List.replicate_succ, List.foldl_cons, ih, coeff_taylor_quotient_self, add_assoc]

/-- The divided differences of a new node are the values of the quotients there. -/
theorem differences_remainders (ha : a ∉ xs) :
    differences a xs (remainders f xs) (f.eval a) = .ok (tower a 0 f xs) := by
  induction xs generalizing f with
  | nil => rw [differences, tower, taylor_coeff_zero]; simp
  | cons x xs ih =>
    rw [List.mem_cons, not_or] at ha
    obtain ⟨hne, hrest⟩ := ha
    have hkeep : (x == a) = false := beq_false_of_ne (Ne.symm hne)
    rw [remainders, differences, hkeep, eval_quotient f (Ne.symm hne), tower, taylor_coeff_zero]
    change (differences a xs _ _ >>= fun rest => pure (f.eval a :: rest)) = _
    rw [ih (quotient f x) hrest]
    rfl

/-- The divided differences of a node that comes again are the Taylor coefficients of the next
order. -/
theorem differences_tower (ha : a ∉ xs) (s : ℕ) :
    differences a xs (tower a s f xs).tail ((taylor a f).coeff (s + 1)) =
      .ok (tower a (s + 1) f xs) := by
  induction xs generalizing f with
  | nil => rw [differences, tower]; simp
  | cons x xs ih =>
    rw [List.mem_cons, not_or] at ha
    obtain ⟨hne, hrest⟩ := ha
    have hkeep : (x == a) = false := beq_false_of_ne (Ne.symm hne)
    rw [tower, List.tail_cons, tower_eq_cons (quotient f x) a s xs, differences, hkeep,
      coeff_taylor_quotient f (Ne.symm hne), tower]
    change (differences a xs _ _ >>= fun rest => pure ((taylor a f).coeff (s + 1) :: rest)) = _
    rw [ih (quotient f x) hrest]
    rfl

/-- The construction of a polynomial after all conditions at the settled nodes and `s + 1`
conditions at the last node. -/
noncomputable def trace (settled : List ℝ) (node : ℝ) (s : ℕ) : Newton ℝ where
  settled := settled
  node := node
  times := s + 1
  row := tower node s f settled
  coefficients := remainders f (settled ++ List.replicate (s + 1) node)

/-- The construction starts with the value at the first node. -/
theorem start_eq (x : ℝ) : start x (f.eval x) = trace f [] x 0 := by
  simp [start, trace, tower, remainders, taylor_coeff_zero]

/-- The next derivative of the polynomial at the last node continues the construction. -/
theorem insert_again {settled : List ℝ} {node : ℝ} (hnode : node ∉ settled) (s : ℕ) :
    (trace f settled node s).insert node ((derivative^[s + 1] f).eval node) =
      .ok (trace f settled node (s + 1)) := by
  have hvalue : (derivative^[s + 1] f).eval node / Scalar.ofNat (factorial (s + 1)) =
      (taylor node f).coeff (s + 1) := by
    have hpositive : (factorial (s + 1) : ℝ) ≠ 0 := by
      rw [factorial_eq]
      exact_mod_cast Nat.factorial_ne_zero (s + 1)
    rw [eval_iterate_derivative, Scalar.ofNat_real, mul_div_cancel_left₀ _ hpositive]
  have hlast : ((settled ++ List.replicate (s + 1) node).foldl quotient f).eval node =
      (taylor node (settled.foldl quotient f)).coeff (s + 1) := by
    rw [List.foldl_append, ← taylor_coeff_zero, coeff_taylor_foldl_replicate, zero_add]
  have hcoefficients : remainders f (settled ++ List.replicate (s + 1 + 1) node) =
      remainders f (settled ++ List.replicate (s + 1) node) ++
        (tower node (s + 1) f settled).getLast?.toList := by
    rw [List.replicate_succ', ← List.append_assoc, remainders_append, getLast?_tower, ← hlast]
    rfl
  rw [insert, if_pos (beq_self_eq_true node)]
  change (if (node == node) = true then
    (differences node settled (tower node s f settled).tail
      ((derivative^[s + 1] f).eval node / Scalar.ofNat (factorial (s + 1))) >>= fun row =>
        pure (Newton.mk settled node (s + 1 + 1) row
          (remainders f (settled ++ List.replicate (s + 1) node) ++ row.getLast?.toList)))
    else _) = _
  rw [if_pos (beq_self_eq_true node), hvalue, differences_tower f hnode s]
  change Except.ok (Newton.mk settled node (s + 1 + 1) _ _) = _
  rw [← hcoefficients]
  rfl

/-- The value of the polynomial at a new node continues the construction. -/
theorem insert_new {settled : List ℝ} {node x : ℝ} {s : ℕ}
    (hx : x ∉ settled ++ List.replicate (s + 1) node) :
    (trace f settled node s).insert x (f.eval x) =
      .ok (trace f (settled ++ List.replicate (s + 1) node) x 0) := by
  have hother : (node == x) = false := by
    apply beq_false_of_ne
    rintro rfl
    exact hx (List.mem_append_right _ (List.mem_replicate.mpr ⟨Nat.succ_ne_zero s, rfl⟩))
  have hcoefficients (nodes : List ℝ) : remainders f (nodes ++ [x]) =
      remainders f nodes ++ (tower x 0 f nodes).getLast?.toList := by
    rw [remainders_append, getLast?_tower, taylor_coeff_zero]
    rfl
  rw [insert, if_pos (beq_self_eq_true x)]
  change (if (node == x) = true then _ else
    (differences x (settled ++ List.replicate (s + 1) node)
      (remainders f (settled ++ List.replicate (s + 1) node)) (f.eval x) >>= fun row =>
        pure (Newton.mk (settled ++ List.replicate (s + 1) node) x 1 row
          (remainders f (settled ++ List.replicate (s + 1) node) ++ row.getLast?.toList)))) = _
  rw [hother, differences_remainders f hx]
  change Except.ok (Newton.mk _ x 1 _ _) = _
  rw [← hcoefficients]
  rfl

/-- The value and the next derivatives of a polynomial at a node, as many as asked for. -/
noncomputable def conditionsAt (count : ℕ) (x : ℝ) : List (ℝ × ℝ) :=
  (List.range count).map fun i => (x, (derivative^[i] f).eval x)

/-- Inserts conditions one after the other. -/
noncomputable def insertAll (p : Newton ℝ) (conditions : List (ℝ × ℝ)) :
    Except (Fault ℝ) (Newton ℝ) :=
  conditions.foldlM (fun p (x, value) => p.insert x value) p

/-- Conditions may be inserted in two parts. -/
theorem insertAll_append {p q : Newton ℝ} {first second : List (ℝ × ℝ)}
    (hfirst : p.insertAll first = .ok q) :
    p.insertAll (first ++ second) = q.insertAll second := by
  rw [insertAll, List.foldlM_append]
  change (p.insertAll first >>= fun q => q.insertAll second) = _
  rw [hfirst]
  rfl

/-- The derivatives at the last node, up to any order. -/
theorem insertAll_derivatives {settled : List ℝ} {node : ℝ} (hnode : node ∉ settled) (m s : ℕ) :
    (trace f settled node s).insertAll
      ((List.range' (s + 1) m).map fun i => (node, (derivative^[i] f).eval node)) =
        .ok (trace f settled node (s + m)) := by
  induction m generalizing s with
  | zero => rfl
  | succ m ih =>
    rw [List.range'_succ, List.map_cons, insertAll, List.foldlM_cons]
    change ((trace f settled node s).insert node ((derivative^[s + 1] f).eval node) >>= fun p =>
      p.insertAll _) = _
    rw [insert_again f hnode]
    change (trace f settled node (s + 1)).insertAll _ = _
    rw [ih (s + 1), Nat.add_right_comm, Nat.add_assoc]

/-- The conditions at a node are the value and then the derivatives. -/
theorem conditionsAt_succ (m : ℕ) (x : ℝ) :
    conditionsAt f (m + 1) x = (x, f.eval x) ::
      (List.range' 1 m).map fun i => (x, (derivative^[i] f).eval x) := by
  rw [conditionsAt, List.range_eq_range', List.range'_succ, List.map_cons]
  rfl

/-- All conditions at a new node. -/
theorem insertAll_conditionsAt {settled : List ℝ} {node x : ℝ} {s : ℕ} (m : ℕ)
    (hx : x ∉ settled ++ List.replicate (s + 1) node) :
    (trace f settled node s).insertAll (conditionsAt f (m + 1) x) =
      .ok (trace f (settled ++ List.replicate (s + 1) node) x m) := by
  rw [conditionsAt_succ, insertAll, List.foldlM_cons]
  change ((trace f settled node s).insert x (f.eval x) >>= fun p => p.insertAll _) = _
  rw [insert_new f hx]
  change (trace f (settled ++ List.replicate (s + 1) node) x 0).insertAll _ = _
  rw [insertAll_derivatives f hx m 0, Nat.zero_add]

/-- The conditions at different nodes, `m + 1` at each, are inserted without fault, and what is
constructed is the Newton form of the polynomial on the repeated nodes. -/
theorem insertAll_nodes {m : ℕ} {settled : List ℝ} {node : ℝ} (xs : List ℝ)
    (hdistinct : xs.Nodup) (hnew : ∀ x ∈ xs, x ∉ settled ++ List.replicate (m + 1) node) :
    ∃ p, (trace f settled node m).insertAll (xs.flatMap (conditionsAt f (m + 1))) = .ok p ∧
      p.nodes = settled ++ List.replicate (m + 1) node ++ xs.flatMap (List.replicate (m + 1)) ∧
      p.coefficients = remainders f p.nodes := by
  induction xs generalizing settled node with
  | nil => exact ⟨_, rfl, (List.append_nil _).symm, rfl⟩
  | cons x xs ih =>
    obtain ⟨hhead, hrest⟩ := List.nodup_cons.mp hdistinct
    have hx := hnew x List.mem_cons_self
    obtain ⟨p, hp, hnodes, hcoefficients⟩ :=
      @ih (settled ++ List.replicate (m + 1) node) x hrest (by
        intro y hy hmem
        rcases List.mem_append.mp hmem with hearlier | hlast
        · exact hnew y (List.mem_cons_of_mem _ hy) hearlier
        · obtain rfl := List.eq_of_mem_replicate hlast
          exact hhead hy)
    refine ⟨p, ?_, ?_, hcoefficients⟩
    · rw [List.flatMap_cons, insertAll_append (insertAll_conditionsAt f m hx)]
      exact hp
    · rw [hnodes, List.flatMap_cons, List.append_assoc]

/-- The conditions of a polynomial at different nodes determine its Newton form on these. -/
theorem ofConditions_eq {m : ℕ} {xs : List ℝ} (hdistinct : xs.Nodup) (hxs : xs ≠ []) :
    ∃ p, ofConditions (xs.flatMap (conditionsAt f (m + 1))) = .ok p ∧
      p.nodes = xs.flatMap (List.replicate (m + 1)) ∧
      p.coefficients = remainders f p.nodes := by
  obtain ⟨x, rest, rfl⟩ := List.exists_cons_of_ne_nil hxs
  obtain ⟨hhead, hrest⟩ := List.nodup_cons.mp hdistinct
  have hfirst := insertAll_derivatives f (List.not_mem_nil : x ∉ ([] : List ℝ)) m 0
  obtain ⟨p, hp, hnodes, hcoefficients⟩ :=
    @insertAll_nodes f m [] x rest hrest (by
      intro y hy hmem
      obtain rfl := List.eq_of_mem_replicate hmem
      exact hhead hy)
  refine ⟨p, ?_, ?_, hcoefficients⟩
  · rw [List.flatMap_cons, conditionsAt_succ]
    change (start x (f.eval x)).insertAll (_ ++ _) = _
    rw [start_eq, insertAll_append hfirst, Nat.zero_add]
    exact hp
  · rw [hnodes, List.flatMap_cons, List.nil_append]

end Construction

end FrameKinematics.Newton
