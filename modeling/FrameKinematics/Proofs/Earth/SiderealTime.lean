import FrameKinematics.Proofs.Calendar.NearestLabel
import FrameKinematics.Proofs.Scalar.Remainder
import FrameKinematics.Proofs.Source.Runs
import FrameKinematics.Earth.Rotation

/-!
# Sidereal time without reduction

One term of the expression of the year 1982 advances by a second each second. Whole days of it are
left out before the terms are added, and whole turns of the angle are left out of the sum. A day of
sidereal time is a turn, so the angle is the one of the expression as it stands, for instants before
the epoch as well as after it.
-/

namespace FrameKinematics

namespace Standards

/-- The seconds of a day. -/
theorem secondsPerDay_real : secondsPerDay ℝ = 86400 := by
  norm_num [secondsPerDay]

/-- The seconds of a Julian century. -/
theorem secondsPerCentury_real : secondsPerCentury ℝ = 36525 * 86400 := by
  rw [secondsPerCentury, secondsPerDay_real]
  norm_num

end Standards

/-- In TT an instant has the Julian date of J2000.0, and a day more for each day since then. -/
theorem Instant.julianDate_tt (t : Instant ℝ) :
    (t.julianDate .tt : Except (Fault ℝ) ℝ) =
      .ok (Standards.julianJ2000 ℝ + t.elapsed / Standards.secondsPerDay ℝ) := by
  have hbehind : (t.behindTT .tt : Except (Fault ℝ) ℝ) = .ok 0.0 := rfl
  rw [julianDate]
  refine (bind_eq_of_ok hbehind).trans ?_
  refine (bind_eq_of_ok (Scalar.ofInt_real t.seconds)).trans (congrArg Except.ok ?_)
  rw [Scalar.zero_literal, sub_zero, elapsed]

namespace Earth

open Scalar

/-- Greenwich mean sidereal time in seconds, with all the days since J2000.0. -/
noncomputable def unreducedSeconds (elapsed : ℝ) : ℝ :=
  let t := elapsed / Standards.secondsPerCentury ℝ
  67310.54841 + (876600 * 3600 + 8640184.812866) * t + 0.093104 * t ^ 2 - 6.2e-6 * t ^ 3

variable (elapsed : ℝ)

/-- The hours of a century make up the seconds that have elapsed, of which whole days are left
out. -/
theorem siderealSeconds_real :
    (siderealSeconds elapsed : Except (Fault ℝ) ℝ) =
      .ok (unreducedSeconds elapsed - truncatedQuotient elapsed 86400 * 86400) := by
  have hsum : (siderealSeconds elapsed : Except (Fault ℝ) ℝ) =
      .ok (67310.54841 + Scalar.rem elapsed (Standards.secondsPerDay ℝ) +
        8640184.812866 * (elapsed / Standards.secondsPerCentury ℝ) +
        0.093104 * (elapsed / Standards.secondsPerCentury ℝ) ^ 2 -
        6.2e-6 * (elapsed / Standards.secondsPerCentury ℝ) ^ 3) := rfl
  have hhours : 876600 * 3600 * (elapsed / Standards.secondsPerCentury ℝ) = elapsed := by
    rw [Standards.secondsPerCentury_real]
    ring
  rw [hsum, Standards.secondsPerDay_real, rem_real, unreducedSeconds]
  refine congrArg Except.ok ?_
  linear_combination -hhours

/-- Each day that is left out is a turn that is left out. -/
theorem siderealAngle_real :
    (siderealAngle elapsed : Except (Fault ℝ) ℝ) =
      .ok (toIcoMod Real.two_pi_pos 0 (2 * Real.pi / 86400 * unreducedSeconds elapsed)) := by
  have hturn : (2.0 * Scalar.pi : ℝ) = 2 * Real.pi := congrArg (· * Real.pi) two_literal
  have hangle : (unreducedSeconds elapsed - truncatedQuotient elapsed 86400 * 86400) /
      Standards.secondsPerDay ℝ * 2.0 * Scalar.pi =
        2 * Real.pi / 86400 * unreducedSeconds elapsed -
          truncatedQuotient elapsed 86400 • (2 * Real.pi) := by
    rw [mul_assoc, hturn, Standards.secondsPerDay_real, zsmul_eq_mul]
    ring
  rw [siderealAngle]
  refine (bind_eq_of_ok (siderealSeconds_real elapsed)).trans (congrArg Except.ok ?_)
  rw [hangle, hturn, modulo_real Real.two_pi_pos, toIcoMod_sub_zsmul]

/-- The days of a Julian date are taken back to the seconds that they come from. -/
theorem siderealAngleAt_real :
    (siderealAngleAt (Standards.julianJ2000 ℝ + elapsed / Standards.secondsPerDay ℝ) :
      Except (Fault ℝ) ℝ) = siderealAngle elapsed := by
  have hday : Standards.secondsPerDay ℝ ≠ 0 := by
    rw [Standards.secondsPerDay_real]
    norm_num
  rw [siderealAngleAt, add_sub_cancel_left, div_mul_cancel₀ _ hday]

/-- The sidereal time of any number of seconds, before or after the epoch, is the angle from zero to
a full turn that differs by whole turns from the expression without reduction. It is the sidereal
time at the Julian date that these seconds come to, and at the Julian date in TT that an instant
has. -/
theorem siderealAngle_congruent (date : Instant ℝ) :
    (∃ angle, siderealAngle elapsed = .ok angle ∧ angle ∈ Set.Ico 0 (2 * Real.pi) ∧
      (∃ turns : ℤ,
        2 * Real.pi / 86400 * unreducedSeconds elapsed = angle + turns * (2 * Real.pi)) ∧
      siderealAngleAt (Standards.julianJ2000 ℝ + elapsed / Standards.secondsPerDay ℝ) =
        .ok angle) ∧
    ∃ dt jd, date.sinceJ2000 = .ok dt ∧ date.julianDate .tt = .ok jd ∧
      jd = Standards.julianJ2000 ℝ + dt / Standards.secondsPerDay ℝ ∧
      siderealAngleAt jd = siderealAngle dt := by
  constructor
  · have hangle := siderealAngle_real elapsed
    refine ⟨_, hangle, toIcoMod_mem_Ico' _ _,
      ⟨toIcoDiv Real.two_pi_pos 0 (2 * Real.pi / 86400 * unreducedSeconds elapsed), ?_⟩, ?_⟩
    · rw [← zsmul_eq_mul, toIcoMod_add_toIcoDiv_zsmul]
    · rw [siderealAngleAt_real, hangle]
  · exact ⟨_, _, date.sinceJ2000_real, date.julianDate_tt, rfl, siderealAngleAt_real _⟩

end Earth

end FrameKinematics
