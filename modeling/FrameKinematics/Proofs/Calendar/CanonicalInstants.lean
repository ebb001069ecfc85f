import FrameKinematics.Proofs.Scalar.RoundedSums
import FrameKinematics.Proofs.Source.Runs
import FrameKinematics.Calendar.TimeScale

/-!
# Canonical instants

However sums and differences are rounded, the fraction of an instant that is made is at least zero
and less than one: a rest that is rounded up to a full second is carried into the whole seconds. So
whole seconds and fraction are determined by the instant on the time line, and the comparison by
whole seconds first and by fractions second is the order of the time line.
-/

namespace FrameKinematics

namespace Instant

variable {K : Type} [Scalar K]

/-- Instants that are made: of whole seconds and an offset, of a calendar label, of calendar fields,
and of an instant made before by a shift. -/
inductive Made : Instant K → Prop where
  | make {seconds : Int} {offset : K} {t : Instant K} (h : make seconds offset = .ok t) : Made t
  | ofLabel {label : Label} {scale : TimeScale} {t : Instant K} (h : ofLabel label scale = .ok t) :
    Made t
  | ofFields {year month day hour minute : Int} {second : K} {scale : TimeScale} {t : Instant K}
    (h : ofFields year month day hour minute second scale = .ok t) : Made t
  | shift {s t : Instant K} {duration : K} (hs : Made s) (h : s.shift duration = .ok t) : Made t

/-- In the end every instant is made of whole seconds and an offset. -/
theorem Made.exists_make {t : Instant K} (ht : Made t) :
    ∃ seconds offset, Instant.make seconds offset = .ok t := by
  have hshift {s t : Instant K} {duration : K} (h : s.shift duration = .ok t) :
      ∃ seconds offset, Instant.make seconds offset = .ok t := by
    obtain ⟨⟨whole, rest⟩, -, hmake⟩ := exists_of_bind_eq_ok h
    exact ⟨_, _, hmake⟩
  cases ht with
  | make h => exact ⟨_, _, h⟩
  | ofLabel h =>
    obtain ⟨behind, -, hsplit⟩ := exists_of_bind_eq_ok h
    obtain ⟨⟨whole, rest⟩, -, hmake⟩ := exists_of_bind_eq_ok hsplit
    exact ⟨_, _, hmake⟩
  | ofFields h =>
    obtain ⟨⟨whole, rest⟩, -, hlabel⟩ := exists_of_bind_eq_ok h
    obtain ⟨label, -, hbase⟩ := exists_of_bind_eq_ok hlabel
    obtain ⟨base, -, hlast⟩ := exists_of_bind_eq_ok hbase
    exact hshift hlast
  | shift hs h => exact hshift h

/-- Fractions of a second decide between instants of the same whole second, and only there: numbers
of seconds are ordered by their whole parts first. -/
theorem lexicographic {m n : Int} {a b : ℝ} (ha : 0 ≤ a) (ha' : a < 1) (hb : 0 ≤ b) (hb' : b < 1) :
    ((m : ℝ) + a < n + b ↔ m < n ∨ m = n ∧ a < b) ∧
      ((m : ℝ) + a ≤ n + b ↔ m < n ∨ m = n ∧ a ≤ b) ∧ ((m : ℝ) + a = n + b ↔ m = n ∧ a = b) := by
  rcases lt_trichotomy m n with hlt | rfl | hgt
  · have hstep : (m : ℝ) + 1 ≤ n := by exact_mod_cast hlt
    have hbelow : (m : ℝ) + a < n + b := by linarith
    simp [hlt, hlt.ne, hbelow, hbelow.le, hbelow.ne]
  · simp
  · have hstep : (n : ℝ) + 1 ≤ m := by exact_mod_cast hgt
    have habove : (n : ℝ) + b < m + a := by linarith
    simp [hgt.ne', hgt.not_gt, habove.not_gt, habove.not_ge, habove.ne']

end Instant

/-- The rest of a rounded scalar is rounded, and it is carried when it comes to a full second. -/
theorem Rounded.split_eq {ρ : Rounding} {x : ℝ} {n : Int} (hfloor : ⌊x⌋ = n) :
    (Instant.split ⟨x⟩ : Except (Fault (Rounded ρ)) (Int × Rounded ρ)) =
      if 1 ≤ ρ.round (x - n) then .ok (n + 1, 0.0) else .ok (n, ⟨ρ.round (x - n)⟩) := by
  have hscalar : (Scalar.ofInt n : Except (Fault (Rounded ρ)) (Rounded ρ)) = .ok ⟨n⟩ := by
    rw [Scalar.ofInt, Rounded.ofInt?_eq]
  have hone : (1.0 : Rounded ρ) ≤ ⟨x⟩ - ⟨n⟩ ↔ 1 ≤ ρ.round (x - n) := by
    change (1.0 : Rounded ρ).value ≤ ρ.round (x - n) ↔ _
    rw [Rounded.value_one]
  have hwhole : (Scalar.wholePart ⟨x⟩ : Except (Fault (Rounded ρ)) Int) = .ok n :=
    congrArg Except.ok hfloor
  rw [Instant.split, hwhole]
  change (Scalar.ofInt n >>= fun whole => _ : Except (Fault (Rounded ρ)) (Int × Rounded ρ)) = _
  rw [hscalar]
  change (if (1.0 : Rounded ρ) ≤ ⟨x⟩ - ⟨n⟩ then _ else _) = _
  by_cases hfull : 1 ≤ ρ.round (x - n)
  · rw [if_pos hfull, if_pos (hone.mpr hfull)]
    rfl
  · rw [if_neg hfull, if_neg (mt hone.mp hfull)]
    rfl

namespace RoundedSums

open Instant

variable {K : Type} [Scalar K] (S : RoundedSums K)

/-- A scalar is finite, not negative, and less than one. -/
def IsFraction (x : K) : Prop := ∃ a, S.value? x = some a ∧ 0 ≤ a ∧ a < 1

/-- The seconds from J2000.0 to an instant on the exact time line. -/
def elapsed? (t : Instant K) : Option ℝ := (S.value? t.fraction).map fun a => t.seconds + a

/-- A duration that can be split has a fraction of a second as its rest. A rest that is rounded up
to a full second leaves no fraction at all. -/
theorem isFraction_of_split {duration rest : K} {whole : Int}
    (h : split duration = .ok (whole, rest)) : S.IsFraction rest := by
  obtain ⟨n, hwhole, hrest⟩ := exists_of_bind_eq_ok h
  obtain ⟨y, hscalar, hcarry⟩ := exists_of_bind_eq_ok hrest
  have hfloor : Scalar.floor duration = .ok n := by
    rw [Scalar.wholePart] at hwhole
    cases hfloor : Scalar.floor duration with
    | ok m =>
      rw [hfloor] at hwhole
      cases hwhole
      rfl
    | error reason =>
      rw [hfloor] at hwhole
      cases hwhole
  have hy : S.value? y = some (n : ℝ) := by
    rw [Scalar.ofInt] at hscalar
    cases hint : (Scalar.ofInt? n : Option K) with
    | some x =>
      rw [hint] at hscalar
      cases hscalar
      exact S.value?_ofInt? hint
    | none =>
      rw [hint] at hscalar
      cases hscalar
  obtain ⟨a, ha, rfl⟩ := S.floor_eq_ok hfloor
  have hdifference := S.value?_sub ha hy
  obtain ⟨hnonneg, hle⟩ := S.round_mem_unit (x := a - ⌊a⌋)
    (sub_nonneg.mpr (Int.floor_le a)) (by linarith [Int.lt_floor_add_one a])
  have hone := S.le_iff S.value?_one hdifference
  change (if (1.0 : K) ≤ duration - y then Except.ok (⌊a⌋ + 1, (0.0 : K)) else
    Except.ok (⌊a⌋, duration - y)) = _ at hcarry
  split_ifs at hcarry with hfull
  · cases hcarry
    exact ⟨0, S.value?_zero, le_rfl, one_pos⟩
  · cases hcarry
    rw [hone, not_le] at hfull
    exact ⟨_, hdifference, hnonneg, hfull⟩

/-- The fraction of an instant that is made is less than a second. -/
theorem isFraction_of_made {t : Instant K} (ht : Made t) : S.IsFraction t.fraction := by
  obtain ⟨seconds, offset, hmake⟩ := ht.exists_make
  obtain ⟨⟨carry, fraction⟩, hsplit, hresult⟩ := exists_of_bind_eq_ok hmake
  cases hresult
  exact S.isFraction_of_split hsplit

/-- Instants that are made have fractions of less than a second. They are equal exactly when they
are the same instant on the time line, and each of the four comparisons tells their order there. -/
theorem made_compare {s t : Instant K} (hs : Made s) (ht : Made t) :
    S.IsFraction s.fraction ∧ S.IsFraction t.fraction ∧
      ∃ x y, S.elapsed? s = some x ∧ S.elapsed? t = some y ∧
        ((s == t) = true ↔ x = y) ∧
        (s.before t = true ↔ x < y) ∧ (s.notAfter t = true ↔ x ≤ y) ∧
        (t.before s = true ↔ y < x) ∧ (t.notAfter s = true ↔ y ≤ x) := by
  have hcanonical := S.isFraction_of_made hs
  have hcanonical' := S.isFraction_of_made ht
  obtain ⟨a, ha, hlow, hhigh⟩ := hcanonical
  obtain ⟨b, hb, hlow', hhigh'⟩ := hcanonical'
  obtain ⟨hlt, hle, heq⟩ := lexicographic (m := s.seconds) (n := t.seconds) hlow hhigh hlow' hhigh'
  obtain ⟨hgt, hge, -⟩ := lexicographic (m := t.seconds) (n := s.seconds) hlow' hhigh' hlow hhigh
  refine ⟨⟨a, ha, hlow, hhigh⟩, ⟨b, hb, hlow', hhigh'⟩, s.seconds + a, t.seconds + b, ?_, ?_, ?_,
    ?_, ?_, ?_, ?_⟩
  · rw [elapsed?, ha, Option.map_some]
  · rw [elapsed?, hb, Option.map_some]
  · change (s.seconds == t.seconds && s.fraction == t.fraction) = true ↔ _
    rw [heq, Bool.and_eq_true, beq_iff_eq, S.beq_iff ha hb]
  · simp [before, hlt, S.lt_iff ha hb]
  · simp [notAfter, hle, S.le_iff ha hb]
  · simp [before, hgt, S.lt_iff hb ha]
  · simp [notAfter, hge, S.le_iff hb ha]

section Quarters

/-- The literal of four is four. -/
theorem four_literal : (4.0 : ℝ) = 4 := by norm_num

/-- Rounding up to quarters. -/
noncomputable def quarters : Rounding where
  round x := ⌈4.0 * x⌉ / 4.0
  monotone := by
    intro x y hxy
    rw [four_literal]
    have hceil : ⌈4 * x⌉ ≤ ⌈4 * y⌉ := Int.ceil_le_ceil (by linarith)
    have hcast : (⌈4 * x⌉ : ℝ) ≤ ⌈4 * y⌉ := by exact_mod_cast hceil
    exact div_le_div_of_nonneg_right hcast (by norm_num)
  round_intCast := by
    intro n
    rw [four_literal]
    have hwhole : (4 : ℝ) * n = ((4 * n : Int) : ℝ) := by push_cast; ring
    rw [hwhole, Int.ceil_intCast]
    push_cast
    ring

/-- A number is rounded up to the next quarter. -/
theorem quarters_round {x : ℝ} {n : Int} (habove : n - 1 < 4 * x) (hbelow : 4 * x ≤ n) :
    quarters.round x = n / 4 := by
  change (⌈4.0 * x⌉ : ℝ) / 4.0 = n / 4
  rw [four_literal, Int.ceil_eq_iff.mpr ⟨habove, hbelow⟩]

/-- A sixteenth of a second before J2000.0: the rest of fifteen sixteenths is rounded up and
carried. -/
noncomputable def carried : Instant (Rounded quarters) := ⟨0, 0.0⟩

/-- A third of a second later, which is rounded up to a half. -/
noncomputable def halfLater : Instant (Rounded quarters) := ⟨0, ⟨0.5⟩⟩

/-- This instant is made, by rounding and a carry. -/
theorem made_carried : Made carried := by
  have hfloor : ⌊(-1 / 16 : ℝ)⌋ = -1 := by
    rw [Int.floor_eq_iff]
    norm_num
  have hround : quarters.round (-1 / 16 - ((-1 : Int) : ℝ)) = 1 := by
    rw [quarters_round (n := 4)] <;> norm_num
  refine @Made.make _ _ 0 ⟨-1 / 16⟩ _ ?_
  rw [Instant.make, Rounded.split_eq hfloor, hround, if_pos le_rfl]
  rfl

/-- This instant is made by a shift of the one before. -/
theorem made_halfLater : Made halfLater := by
  have hliteral : (0.5 : ℝ) = 1 / 2 := by norm_num
  have hthird : ⌊(1 / 3 : ℝ)⌋ = 0 := by
    rw [Int.floor_eq_iff]
    norm_num
  have hhalf : ⌊(1 / 2 : ℝ)⌋ = 0 := by
    rw [Int.floor_eq_iff]
    norm_num
  have hround : quarters.round (1 / 3 - ((0 : Int) : ℝ)) = 1 / 2 := by
    rw [quarters_round (n := 2)] <;> norm_num
  have hround' : quarters.round (1 / 2 - ((0 : Int) : ℝ)) = 1 / 2 := by
    rw [quarters_round (n := 2)] <;> norm_num
  have hsum : (0.0 : Rounded quarters) + ⟨1 / 2⟩ = ⟨1 / 2⟩ := by
    ext
    rw [Rounded.value_add, Rounded.value_zero, zero_add, quarters_round (n := 2)] <;> norm_num
  have hpart : ¬(1 : ℝ) ≤ 1 / 2 := by norm_num
  refine @Made.shift _ _ _ _ ⟨1 / 3⟩ made_carried ?_
  rw [shift, Rounded.split_eq hthird, hround, if_neg hpart]
  change Instant.make (0 + 0) ((0.0 : Rounded quarters) + ⟨1 / 2⟩) = _
  rw [hsum, Instant.make, Rounded.split_eq hhalf, hround', if_neg hpart, halfLater, hliteral]
  rfl

/-- The comparisons of these two instants agree with their elapsed seconds, though both were
rounded. -/
theorem carried_halfLater_compare :
    Made carried ∧ Made halfLater ∧
      (Rounded.sums quarters).IsFraction carried.fraction ∧
      (Rounded.sums quarters).IsFraction halfLater.fraction ∧
      ∃ x y, (Rounded.sums quarters).elapsed? carried = some x ∧
        (Rounded.sums quarters).elapsed? halfLater = some y ∧
        ((carried == halfLater) = true ↔ x = y) ∧
        (carried.before halfLater = true ↔ x < y) ∧ (carried.notAfter halfLater = true ↔ x ≤ y) ∧
        (halfLater.before carried = true ↔ y < x) ∧ (halfLater.notAfter carried = true ↔ y ≤ x) :=
  ⟨made_carried, made_halfLater,
    (Rounded.sums quarters).made_compare made_carried made_halfLater⟩

end Quarters

end RoundedSums

end FrameKinematics
