import FrameKinematics.Proofs.Calendar.NearestLabel
import FrameKinematics.Proofs.Calendar.LeapSecondTable

/-!
# UTC at an instant

The UTC label of an instant depends on TAI minus UTC, and that depends on the label. The first guess
is read off the table at the TT label, which is up to seventy seconds ahead of the UTC label and may
have reached one entry more. Then the refined label is a second early. Since entries are far apart,
it still has reached the same entries as the right one, so one refinement is enough.
-/

namespace FrameKinematics

open LeapSeconds

/-- How many microseconds UTC is behind TT where it is some whole seconds behind TAI. -/
def microsBehindTT (taiMinusUtc : Int) : Int := 32184000 + 1000000 * taiMinusUtc

/-- A label that is set back by the difference between UTC and TT has reached one entry less at
most. -/
theorem reached_setBack (micros : Int) {n : Int} (hnonneg : 0 ≤ n) (hsmall : n ≤ 60) :
    reached (micros - microsBehindTT n) ≤ reached micros ∧
      reached micros ≤ reached (micros - microsBehindTT n) + 1 := by
  constructor
  · apply reached_mono
    rw [microsBehindTT]
    omega
  · apply reached_le_succ
    rw [microsBehindTT, margin, Label.perSecond]
    omega

namespace TimeScale

variable {taiMinusUtc : Except (Fault ℝ) Int}

/-- UTC is behind TT by 32.184 seconds more than it is behind TAI. -/
theorem behindTT_utc_eq_ok_iff {behind : ℝ} :
    TimeScale.utc.behindTT taiMinusUtc = .ok behind ↔
      ∃ n : Int, taiMinusUtc = .ok n ∧ behind = 32.184 + n := by
  cases taiMinusUtc with
  | error fault =>
    change (Except.error fault : Except (Fault ℝ) ℝ) = _ ↔ _
    simp
  | ok n =>
    change (Scalar.ofInt n >>= fun x => .ok (32.184 + x) : Except (Fault ℝ) ℝ) = _ ↔ _
    rw [Scalar.ofInt_real]
    change (Except.ok (32.184 + (n : ℝ)) : Except (Fault ℝ) ℝ) = _ ↔ _
    simp [eq_comm]

/-- The offset of UTC is refused exactly where the number of leap seconds is, for the same
reason. -/
theorem behindTT_utc_eq_error_iff {fault : Fault ℝ} :
    TimeScale.utc.behindTT taiMinusUtc = .error fault ↔ taiMinusUtc = .error fault := by
  cases taiMinusUtc with
  | error other =>
    change (Except.error other : Except (Fault ℝ) ℝ) = _ ↔ _
    simp
  | ok n => simp [behindTT_utc_eq_ok_iff.mpr ⟨n, rfl, rfl⟩]

end TimeScale

namespace Instant

/-- The offset is an even number of microseconds. -/
theorem seconds_behindTT (n : Int) :
    (32.184 : ℝ) + n = (2 * (16092000 + 500000 * n) : Int) / 1000000 := by
  push_cast
  ring

/-- Shifting by the difference between UTC and TT shifts the nearest label. -/
theorem micros_nearest_behindTT (x : ℝ) (n : Int) :
    (Label.nearest (x + (32.184 + n))).micros = (Label.nearest x).micros + microsBehindTT n := by
  rw [seconds_behindTT, Label.micros_nearest_add, microsBehindTT]
  ring

variable {t : Instant ℝ}

/-- Subtracting the offset from some seconds shifts the nearest label by it. -/
theorem nearest_sub_behindTT (x : ℝ) (n : Int) :
    Label.nearest (x - (32.184 + n)) = ⟨(Label.nearest x).micros - microsBehindTT n⟩ := by
  have hshift := micros_nearest_behindTT (x - (32.184 + n)) n
  rw [sub_add_cancel] at hshift
  ext1
  rw [hshift, add_sub_cancel_right]

/-- A label that has reached an entry stays in range when it is set back by the difference between
UTC and TT. -/
theorem inRange_sub_behindTT {l : Label} (hrange : l.inRange = true)
    (hreached : reached l.micros ≠ 0) :
    (⟨l.micros - microsBehindTT (18 + reached l.micros)⟩ : Label).inRange = true := by
  have hepoch : 100000000 ≤ (Label.midnight 1980 1 6).micros := by decide +kernel
  have hlater := not_lt.mp (mt reached_eq_zero_iff.mpr hreached)
  have hbound := reached_le_length l.micros
  rw [Label.inRange, Bool.and_eq_true, decide_eq_true_eq, decide_eq_true_eq] at hrange ⊢
  simp only [microsBehindTT]
  omega

/-- TAI minus UTC at an instant, from the number of entries that its TT label has reached: none
before the table; else it is read off the table at the refined label. -/
theorem taiMinusUtc_real (hrange : (Label.nearest t.elapsed).inRange = true) :
    (t.taiMinusUtc : Except (Fault ℝ) Int) =
      if reached (Label.nearest t.elapsed).micros = 0 then .error .beforeLeapTable
      else (⟨(Label.nearest t.elapsed).micros -
        microsBehindTT (18 + reached (Label.nearest t.elapsed).micros)⟩ : Label).taiMinusUtc := by
  have hlate := Label.later_microseconds hrange
  rw [taiMinusUtc, sinceJ2000_real]
  change ((Scalar.microseconds t.elapsed >>= fun micros => Label.j2000.later micros >>=
    fun tooLate => tooLate.taiMinusUtc >>= fun n => Scalar.ofInt n >>= fun x =>
      Scalar.microseconds (t.elapsed - (32.184 + x)) >>= fun micros =>
        Label.j2000.later micros >>= fun refined => refined.taiMinusUtc) :
          Except (Fault ℝ) Int) = _
  rw [← bind_assoc, hlate]
  change (((Label.nearest t.elapsed).taiMinusUtc >>= fun n => Scalar.ofInt n >>= fun x =>
      Scalar.microseconds (t.elapsed - (32.184 + x)) >>= fun micros =>
        Label.j2000.later micros >>= fun refined => refined.taiMinusUtc) :
          Except (Fault ℝ) Int) = _
  split_ifs with hreached
  · rw [Label.taiMinusUtc_eq_error_iff.mpr ⟨rfl, hreached⟩]
    rfl
  · rw [Label.taiMinusUtc_eq_ok_iff.mpr ⟨hreached, rfl⟩]
    change (Scalar.ofInt (18 + reached (Label.nearest t.elapsed).micros : Int) >>= fun x =>
      Scalar.microseconds (t.elapsed - (32.184 + x)) >>= fun micros =>
        Label.j2000.later micros >>= fun refined => refined.taiMinusUtc :
          Except (Fault ℝ) Int) = _
    have hrefined := nearest_sub_behindTT t.elapsed (18 + reached (Label.nearest t.elapsed).micros)
    have hinRange := inRange_sub_behindTT hrange hreached
    rw [← hrefined] at hinRange ⊢
    rw [Scalar.ofInt_real]
    change (Scalar.microseconds (t.elapsed - (32.184 + _)) >>= fun micros =>
      Label.j2000.later micros >>= fun refined => refined.taiMinusUtc : Except (Fault ℝ) Int) = _
    rw [← bind_assoc, Label.later_microseconds hinRange]
    rfl

/-- Where the number of leap seconds is known, so is the offset. -/
theorem behindTT_utc_eq_ok {n : Int} (hn : (t.taiMinusUtc : Except (Fault ℝ) Int) = .ok n) :
    (t.behindTT .utc : Except (Fault ℝ) ℝ) = .ok (32.184 + n) :=
  TimeScale.behindTT_utc_eq_ok_iff.mpr ⟨n, hn, rfl⟩

/-- The label that is refined from the TT label of a UTC label has reached the same entries as the
UTC label. Either the guess is right, and it is that label, or it is a second earlier; then an
entry lies between the two labels at hand, and no other one is near. -/
theorem reached_refined {l : Label} {n : Int}
    (hn : (l.taiMinusUtc : Except (Fault ℝ) Int) = .ok n) :
    reached (l.micros + microsBehindTT n) ≠ 0 ∧
      reached (l.micros + microsBehindTT n -
        microsBehindTT (18 + reached (l.micros + microsBehindTT n))) = reached l.micros := by
  obtain ⟨hreached, rfl⟩ := Label.taiMinusUtc_eq_ok_iff.mp hn
  have hbound := reached_le_length l.micros
  obtain ⟨tt, htt⟩ : ∃ tt, tt = l.micros + microsBehindTT (18 + reached l.micros) := ⟨_, rfl⟩
  have hl : tt - microsBehindTT (18 + reached l.micros) = l.micros := by omega
  obtain ⟨hlater, hsucc⟩ := reached_setBack tt (n := 18 + reached l.micros) (by omega) (by omega)
  rw [hl] at hlater hsucc
  rw [← htt]
  refine ⟨by omega, ?_⟩
  rcases Nat.eq_or_lt_of_le hlater with hright | hone
  · rw [← hright, hl]
  · have hguess : reached tt = reached l.micros + 1 := by omega
    obtain ⟨-, hnear⟩ := reached_setBack tt (n := 18 + reached tt) (by omega) (by omega)
    have hbefore : reached (tt - microsBehindTT (18 + reached tt)) ≤ reached l.micros := by
      apply reached_mono
      rw [hguess, htt, microsBehindTT, microsBehindTT]
      omega
    omega

/-- An instant that a UTC label names gets TAI minus UTC at that label. -/
theorem taiMinusUtc_of_label (hrange : (Label.nearest t.elapsed).inRange = true) {x : ℝ} {n : Int}
    (hn : ((Label.nearest x).taiMinusUtc : Except (Fault ℝ) Int) = .ok n)
    (ht : t.elapsed = x + (32.184 + n)) : (t.taiMinusUtc : Except (Fault ℝ) Int) = .ok n := by
  obtain ⟨hreached, hrefined⟩ := reached_refined hn
  obtain ⟨hknown, hvalue⟩ := Label.taiMinusUtc_eq_ok_iff.mp hn
  rw [taiMinusUtc_real hrange, ht, micros_nearest_behindTT, if_neg hreached]
  exact Label.taiMinusUtc_eq_ok_iff.mpr (by rw [hrefined]; exact ⟨hknown, hvalue⟩)

/-- An instant is refused exactly if its label with the first value of the table precedes the
table. -/
theorem taiMinusUtc_eq_error_iff (hrange : (Label.nearest t.elapsed).inRange = true)
    {fault : Fault ℝ} : t.taiMinusUtc = .error fault ↔ fault = .beforeLeapTable ∧
      reached ((Label.nearest t.elapsed).micros - microsBehindTT 19) = 0 := by
  rw [taiMinusUtc_real hrange]
  generalize (Label.nearest t.elapsed).micros = tt
  have hbound := reached_le_length tt
  obtain ⟨hmono, hnear⟩ := reached_setBack tt (n := 19) (by omega) (by omega)
  by_cases hnone : reached tt = 0
  · have hearlier : reached (tt - microsBehindTT 19) = 0 := by omega
    simp [hnone, hearlier, eq_comm]
  · rw [if_neg hnone, Label.taiMinusUtc_eq_error_iff, and_congr_right_iff]
    intro _
    by_cases hone : reached tt = 1
    · rw [hone]
      rfl
    · -- Two entries are reached, so one of them is reached by every label that is not far behind.
      obtain ⟨-, hfar⟩ := reached_setBack tt (n := 18 + reached tt) (by omega) (by omega)
      dsimp only
      omega

/-- Within the second that is inserted before an entry, TAI minus UTC is that of the entry or one
less. -/
theorem taiMinusUtc_inserted (hrange : (Label.nearest t.elapsed).inRange = true) {entry : Label}
    (hentry : entry ∈ table.dropLast) {n : Int}
    (hn : (entry.taiMinusUtc : Except (Fault ℝ) Int) = .ok n)
    (hlow : entry.micros + microsBehindTT n - 1000000 ≤ (Label.nearest t.elapsed).micros)
    (hhigh : (Label.nearest t.elapsed).micros ≤ entry.micros + microsBehindTT n) :
    (t.taiMinusUtc : Except (Fault ℝ) Int) = .ok (n - 1) ∨
      (t.taiMinusUtc : Except (Fault ℝ) Int) = .ok n := by
  rw [taiMinusUtc_real hrange]
  generalize (Label.nearest t.elapsed).micros = tt at *
  have htwo : ∀ entry ∈ table.dropLast, 2 ≤ reached entry.micros := by decide +kernel
  have hfirst := htwo entry hentry
  have hstep := reached_entry (List.mem_of_mem_dropLast hentry)
  obtain ⟨-, rfl⟩ := Label.taiMinusUtc_eq_ok_iff.mp hn
  have hbound := reached_le_length entry.micros
  have hreached : reached tt = reached entry.micros := by
    rw [microsBehindTT] at hlow hhigh
    have hlater : reached entry.micros ≤ reached tt := reached_mono (by omega)
    have hnear : reached tt ≤ reached (entry.micros - 1) + 1 := reached_le_succ (by
      rw [margin, Label.perSecond]
      omega)
    omega
  obtain ⟨hlater, hnear⟩ := reached_setBack tt (n := 18 + reached tt) (by omega) (by omega)
  rw [if_neg (by omega), Label.taiMinusUtc_eq_ok_iff, Label.taiMinusUtc_eq_ok_iff]
  dsimp only
  omega

/-- What the difference between TT and UTC is at an instant. -/
structure HasUtcOffset (t : Instant ℝ) : Prop where
  /-- At an instant that a UTC label names, it is that of the label, to the nearest microsecond. -/
  of_label : ∀ (x : ℝ) (n : Int),
    ((Label.nearest x).taiMinusUtc : Except (Fault ℝ) Int) = .ok n →
      t.elapsed = x + (32.184 + n) → t.behindTT .utc = .ok (32.184 + n)
  /-- In the second that is inserted before an entry of the table, it is that of the entry or a
  second less. -/
  of_inserted : ∀ entry ∈ table.dropLast, ∀ n : Int,
    (entry.taiMinusUtc : Except (Fault ℝ) Int) = .ok n →
      entry.elapsed + (32.184 + (n - 1)) ≤ t.elapsed → t.elapsed < entry.elapsed + (32.184 + n) →
        t.behindTT .utc = .ok (32.184 + (n - 1)) ∨ t.behindTT .utc = .ok (32.184 + n)
  /-- There is none exactly if the label with the first value of the table precedes the table. -/
  refused_iff : ∀ fault : Fault ℝ, t.behindTT .utc = .error fault ↔ fault = .beforeLeapTable ∧
    (Label.nearest (t.elapsed - (32.184 + 19))).micros < (Label.midnight 1980 1 6).micros

/-- The difference between TT and UTC is right at every instant in the calendar, though it is
refined only once. -/
theorem behindTT_utc_exact (hrange : (Label.nearest t.elapsed).inRange = true) :
    HasUtcOffset t where
  of_label x n hn ht := behindTT_utc_eq_ok (taiMinusUtc_of_label hrange hn ht)
  of_inserted entry hentry n hn hlow hhigh := by
    have hless : (n : ℝ) - 1 = (n - 1 : Int) := by push_cast; rfl
    rw [hless] at hlow ⊢
    have hbegin := Label.micros_nearest_mono hlow
    have hend := Label.micros_nearest_mono hhigh.le
    rw [micros_nearest_behindTT, Label.nearest_elapsed] at hbegin hend
    simp only [microsBehindTT] at hbegin hend
    have hvalue := taiMinusUtc_inserted hrange hentry hn
      (by rw [microsBehindTT]; omega) (by rw [microsBehindTT]; omega)
    exact hvalue.imp behindTT_utc_eq_ok behindTT_utc_eq_ok
  refused_iff fault := by
    have hfirst : (19 : ℝ) = (19 : Int) := by norm_num
    rw [hfirst, behindTT, TimeScale.behindTT_utc_eq_error_iff, taiMinusUtc_eq_error_iff hrange,
      nearest_sub_behindTT, reached_eq_zero_iff]

/-- The instant of UTC 2016-12-31T23:59:59, a second before a leap second begins. Its TT label has
already reached the next entry. -/
noncomputable def beforeLeap : Instant ℝ := ⟨536500867, 0.184⟩

/-- This instant has the seconds of a label of TT. -/
theorem elapsed_beforeLeap :
    beforeLeap.elapsed = (Label.ofFields ⟨2017, 1, 1, 0, 1, 7, 184000⟩).elapsed := by
  have hmicros : (Label.ofFields ⟨2017, 1, 1, 0, 1, 7, 184000⟩).micros - Label.j2000.micros =
      536500867184000 := by decide +kernel
  rw [Label.elapsed, hmicros, elapsed, beforeLeap]
  norm_num

/-- It comes 32.184 and 36 seconds after the seconds of its label of UTC. -/
theorem elapsed_beforeLeap_eq_add : beforeLeap.elapsed =
    (Label.ofFields ⟨2016, 12, 31, 23, 59, 59, 0⟩).elapsed + (32.184 + (36 : Int)) := by
  have hmicros : (Label.ofFields ⟨2016, 12, 31, 23, 59, 59, 0⟩).micros - Label.j2000.micros =
      536500799000000 := by decide +kernel
  rw [Label.elapsed, hmicros, elapsed, beforeLeap]
  norm_num

/-- At this instant the offset is still the one before the leap second. -/
theorem beforeLeap_utc_exact : (Label.nearest beforeLeap.elapsed).inRange = true ∧
    HasUtcOffset beforeLeap ∧ beforeLeap.behindTT .utc = .ok (32.184 + (36 : Int)) := by
  have hrange : (Label.nearest beforeLeap.elapsed).inRange = true := by
    rw [elapsed_beforeLeap, Label.nearest_elapsed]
    decide +kernel
  have hoffset := behindTT_utc_exact hrange
  refine ⟨hrange, hoffset, hoffset.of_label _ 36 ?_ elapsed_beforeLeap_eq_add⟩
  rw [Label.nearest_elapsed, Label.taiMinusUtc_eq_ok_iff]
  decide +kernel

end Instant

end FrameKinematics
