import FrameKinematics.Calendar.TimeScale

/-!
# The table of leap seconds

TAI minus UTC at a label is told by how many entries of the table the label has reached. The entries
are far apart, so within a hundred seconds at most one more entry is reached.
-/

namespace FrameKinematics

namespace LeapSeconds

/-- How many entries of the table a label has reached, by its microseconds. -/
def reached (micros : Int) : Nat := table.countP fun entry => entry.micros ≤ micros

/-- A hundred seconds in microseconds. -/
def margin : Int := 100 * Label.perSecond

/-- Of entries in decreasing order that are `gap` apart, at most one is reached within `gap`. -/
theorem countP_le_succ {entries : List Label} {gap : Int}
    (hgap : entries.Pairwise fun later earlier => earlier.micros + gap ≤ later.micros) {u v : Int}
    (huv : v < u + gap) : (entries.countP fun entry => entry.micros ≤ v) ≤
      (entries.countP fun entry => entry.micros ≤ u) + 1 := by
  induction entries with
  | nil => simp
  | cons latest entries ih =>
    obtain ⟨hlatest, hgap⟩ := List.pairwise_cons.mp hgap
    rw [List.countP_cons, List.countP_cons]
    by_cases hv : latest.micros ≤ v
    · have hall : (entries.countP fun entry => entry.micros ≤ u) = entries.length := by
        rw [List.countP_eq_length]
        intro entry hentry
        have hbefore := hlatest entry hentry
        simp only [decide_eq_true_eq]
        omega
      have hbound := List.countP_le_length (p := fun entry : Label => decide (entry.micros ≤ v))
        (l := entries)
      rw [hall]
      split <;> split <;> omega
    · have hrest := ih hgap
      simp only [hv, decide_false, Bool.false_eq_true, if_false]
      split <;> omega

/-- The entries are in decreasing order and more than a hundred seconds apart. -/
theorem table_sparse :
    table.Pairwise fun later earlier => earlier.micros + margin ≤ later.micros := by
  decide +kernel

/-- At a later time at least as many entries are reached. -/
theorem reached_mono {u v : Int} (huv : u ≤ v) : reached u ≤ reached v := by
  refine List.countP_mono_left fun entry _ hentry => ?_
  simp only [decide_eq_true_eq] at hentry ⊢
  omega

/-- Within a hundred seconds at most one more entry is reached. -/
theorem reached_le_succ {u v : Int} (huv : v < u + margin) : reached v ≤ reached u + 1 :=
  countP_le_succ table_sparse huv

/-- At an entry one more is reached. -/
theorem reached_entry {entry : Label} (hentry : entry ∈ table) :
    reached (entry.micros - 1) + 1 = reached entry.micros := by
  have hall : ∀ entry ∈ table, reached (entry.micros - 1) + 1 = reached entry.micros := by
    decide +kernel
  exact hall entry hentry

/-- No more entries are reached than there are. -/
theorem reached_le_length (u : Int) : reached u ≤ 19 := List.countP_le_length

/-- The GPS epoch is the first entry. -/
theorem reached_eq_zero_iff {u : Int} :
    reached u = 0 ↔ u < (Label.midnight 1980 1 6).micros := by
  have hmem : Label.midnight 1980 1 6 ∈ table := by decide +kernel
  have hfirst : ∀ entry ∈ table, (Label.midnight 1980 1 6).micros ≤ entry.micros := by
    decide +kernel
  simp only [reached, List.countP_eq_zero, decide_eq_true_eq, Int.not_le]
  constructor
  · intro hbefore
    exact hbefore _ hmem
  · intro hbefore entry hentry
    have hlater := hfirst entry hentry
    omega

end LeapSeconds

namespace Label

open LeapSeconds

variable {K : Type}

/-- A label is refused exactly if it has reached no entry. -/
theorem taiMinusUtc_eq_error_iff {l : Label} {fault : Fault K} :
    l.taiMinusUtc = .error fault ↔ fault = .beforeLeapTable ∧ reached l.micros = 0 := by
  cases hreached : reached l.micros with
  | zero =>
    rw [reached] at hreached
    simp [taiMinusUtc, taiMinusUtc?, hreached, eq_comm]
  | succ before =>
    rw [reached] at hreached
    simp [taiMinusUtc, taiMinusUtc?, hreached]

/-- TAI minus UTC is eighteen seconds and one more for each entry reached. -/
theorem taiMinusUtc_eq_ok_iff {l : Label} {n : Int} :
    (l.taiMinusUtc : Except (Fault K) Int) = .ok n ↔
      reached l.micros ≠ 0 ∧ n = 18 + reached l.micros := by
  cases hreached : reached l.micros with
  | zero =>
    rw [reached] at hreached
    simp [taiMinusUtc, taiMinusUtc?, hreached]
  | succ before =>
    rw [reached] at hreached
    simp only [taiMinusUtc, taiMinusUtc?, hreached, Standards.taiMinusUtcAtGpsEpoch,
      Except.ok.injEq]
    omega

end Label

end FrameKinematics
