import Mathlib.Algebra.GroupWithZero.Nat
import FrameKinematics.Calendar.TimeScale

/-!
# The fields of a label

The fields of a label that fields name are these fields. The year that is found begins at most 365
days before the day, so the labels of the years from 2 to 9998 are a day and more inside the range.
-/

namespace FrameKinematics.Label

/-- The days before a year that is so many cycles, centuries, leap periods and years after the
first one. -/
theorem daysBeforeYear_eq {cycles centuries fours years : Nat} (hcenturies : centuries ≤ 3)
    (hfours : fours ≤ 24) (hyears : years ≤ 3) :
    daysBeforeYear (cycles * 400 + centuries * 100 + fours * 4 + years + 1) =
      cycles * 146097 + centuries * 36524 + fours * 1461 + years * 365 := by
  simp only [daysBeforeYear, Nat.add_sub_cancel]
  have hquarters : (cycles * 400 + centuries * 100 + fours * 4 + years) / 4 =
      cycles * 100 + centuries * 25 + fours := by omega
  have hhundreds : (cycles * 400 + centuries * 100 + fours * 4 + years) / 100 =
      cycles * 4 + centuries := by omega
  have hcycles : (cycles * 400 + centuries * 100 + fours * 4 + years) / 400 = cycles := by omega
  omega

/-- The year of a day begins as many days before it as are counted in that year. -/
theorem daysBeforeYear_yearOfDay (day : Nat) :
    daysBeforeYear (yearOfDay day).1 + (yearOfDay day).2 = day := by
  simp only [yearOfDay]
  rw [daysBeforeYear_eq (by omega) (by omega) (by omega)]
  omega

/-- At most 365 days of the year that is found come before a day. -/
theorem yearOfDay_snd_le (day : Nat) : (yearOfDay day).2 ≤ 365 := by
  simp only [yearOfDay]
  omega

/-- How many days a year has. -/
def daysOfYear (year : Nat) : Nat := if isLeap year then 366 else 365

/-- The months of a year make up its days. -/
theorem sum_monthLengths (year : Nat) : (monthLengths year).sum = daysOfYear year := by
  rw [monthLengths, daysOfYear]
  cases isLeap year <;> rfl

/-- A day is counted off from the whole periods before it. Where a leap year ends, there is no
fifth century of a cycle and no fifth year of a leap period. -/
theorem yearOfDay_eq {day inCycle inCentury inFour cycles centuries fours years rest : Nat}
    (hday : day = cycles * 146097 + inCycle) (hinCycle : inCycle = centuries * 36524 + inCentury)
    (hinCentury : inCentury = fours * 1461 + inFour) (hinFour : inFour = years * 365 + rest)
    (hcenturies : centuries ≤ 3) (hfours : fours ≤ 24) (hyears : years ≤ 3)
    (hrest : rest < 365 ∨ rest = 365 ∧ years = 3 ∧ (fours < 24 ∨ centuries = 3)) :
    yearOfDay day = (cycles * 400 + centuries * 100 + fours * 4 + years + 1, rest) := by
  have hcycle : day / 146097 = cycles := by omega
  have hcycleRest : day % 146097 = inCycle := by omega
  have hcentury : min (inCycle / 36524) 3 = centuries := by omega
  have hcenturyRest : inCycle - centuries * 36524 = inCentury := by omega
  have hfour : inCentury / 1461 = fours := by omega
  have hfourRest : inCentury % 1461 = inFour := by omega
  have hyear : min (inFour / 365) 3 = years := by omega
  have hyearRest : inFour - years * 365 = rest := by omega
  simp only [yearOfDay, hcycle, hcycleRest, hcentury, hcenturyRest, hfour, hfourRest, hyear,
    hyearRest]

/-- A day of a year is found in that year. -/
theorem yearOfDay_daysBeforeYear {year rest : Nat} (hyear : 1 ≤ year)
    (hrest : rest < daysOfYear year) : yearOfDay (daysBeforeYear year + rest) = (year, rest) := by
  obtain ⟨cycles, centuries, fours, years, hcenturies, hfours, hyears, rfl⟩ :
      ∃ cycles centuries fours years, centuries ≤ 3 ∧ fours ≤ 24 ∧ years ≤ 3 ∧
        year = cycles * 400 + centuries * 100 + fours * 4 + years + 1 :=
    ⟨(year - 1) / 400, (year - 1) % 400 / 100, (year - 1) % 100 / 4, (year - 1) % 4,
      by omega, by omega, by omega, by omega⟩
  rw [daysBeforeYear_eq hcenturies hfours hyears]
  refine yearOfDay_eq (by simp only [Nat.add_assoc]) rfl rfl rfl hcenturies hfours hyears ?_
  simp only [daysOfYear, isLeap, Bool.and_eq_true, Bool.or_eq_true, beq_iff_eq, bne_iff_ne] at hrest
  split at hrest <;> omega

/-- A day of a month is found in that month. -/
theorem monthOfDay_eq (first : Nat) {lengths : List Nat} {month day length : Nat}
    (hlength : lengths[month]? = some length) (hday : day < length) :
    monthOfDay first lengths ((lengths.take month).sum + day) = (first + month, day + 1) := by
  induction lengths generalizing first month with
  | nil => simp at hlength
  | cons head lengths ih =>
    cases month with
    | zero =>
      obtain rfl : head = length := by simpa using hlength
      simp [monthOfDay, hday]
    | succ month =>
      have hfound := ih (first + 1) (by simpa using hlength)
      have hpast : ¬head + ((lengths.take month).sum + day) < head := by omega
      rw [List.take_succ_cons, List.sum_cons, Nat.add_assoc, monthOfDay, if_neg hpast,
        Nat.add_sub_cancel_left, hfound, Nat.add_assoc, Nat.add_comm 1]

/-- A day of a month lies in its year. -/
theorem sum_take_add_lt {lengths : List Nat} {month day length : Nat}
    (hlength : lengths[month]? = some length) (hday : day < length) :
    (lengths.take month).sum + day < lengths.sum := by
  obtain ⟨hmonth, rfl⟩ := List.getElem?_eq_some_iff.mp hlength
  have hsplit : (lengths.take month).sum + (lengths.drop month).sum = lengths.sum := by
    rw [← List.sum_append, List.take_append_drop]
  rw [List.drop_eq_getElem_cons hmonth, List.sum_cons] at hsplit
  omega

/-- The days and the time of day that some seconds are counted from. -/
theorem clock_eq {seconds days hour minute second : Nat}
    (hseconds : seconds = ((days * 24 + hour) * 60 + minute) * 60 + second)
    (hhour : hour < 24) (hminute : minute < 60) (hsecond : second < 60) :
    seconds / 86400 = days ∧ seconds / 3600 % 24 = hour ∧ seconds / 60 % 60 = minute ∧
      seconds % 60 = second := by
  have hminutes : seconds / 60 = (days * 24 + hour) * 60 + minute := by omega
  have hhours : seconds / 3600 = days * 24 + hour := by omega
  have hdays : seconds / 86400 = days := by omega
  refine ⟨hdays, ?_, ?_, ?_⟩
  · rw [hhours]
    omega
  · rw [hminutes]
    omega
  · omega

/-- The fields of a label, from its seconds and the year and the month that are found. -/
theorem fields_of_found {l : Label} {micro seconds : Nat} {year month : Nat × Nat}
    (hmicro : (l.micros % perSecond).toNat = micro)
    (hseconds : (l.micros / perSecond).toNat = seconds)
    (hyear : yearOfDay (seconds / 86400) = year)
    (hmonth : monthOfDay 1 (monthLengths year.1) year.2 = month) :
    l.fields = ⟨year.1, month.1, month.2, seconds / 3600 % 24, seconds / 60 % 60, seconds % 60,
      micro⟩ := by
  subst hmicro hseconds hyear hmonth
  rfl

/-- The fields of a label, from the parts that its microseconds are counted in. -/
theorem fields_eq {l : Label} {seconds days inYear : Nat} {f : Fields}
    (hmicros : l.micros = seconds * perSecond + f.micro)
    (hseconds : seconds = ((days * 24 + f.hour) * 60 + f.minute) * 60 + f.second)
    (hyear : yearOfDay days = (f.year, inYear))
    (hmonth : monthOfDay 1 (monthLengths f.year) inYear = (f.month, f.day)) (hhour : f.hour < 24)
    (hminute : f.minute < 60) (hsecond : f.second < 60) (hmicro : f.micro < 1000000) :
    l.fields = f := by
  obtain ⟨hdays, hhourFound, hminuteFound, hsecondFound⟩ := clock_eq hseconds hhour hminute hsecond
  clear hseconds
  rw [perSecond] at hmicros
  have hmicroFound : (l.micros % perSecond).toNat = f.micro := by
    rw [perSecond]
    omega
  have hsecondsFound : (l.micros / perSecond).toNat = seconds := by
    rw [perSecond]
    omega
  rw [← hdays] at hyear
  rw [fields_of_found hmicroFound hsecondsFound hyear hmonth, hhourFound, hminuteFound,
    hsecondFound]

/-- The fields of a label that fields name are the ones given. -/
theorem fields_ofFields {f : Fields} (hf : f.valid = true) : (ofFields f).fields = f := by
  simp only [Fields.valid, Bool.and_eq_true, decide_eq_true_eq] at hf
  obtain ⟨⟨⟨⟨⟨⟨⟨⟨⟨hyear, -⟩, hmonth⟩, hlastMonth⟩, hday⟩, hlastDay⟩, hhour⟩, hminute⟩, hsecond⟩,
    hmicro⟩ := hf
  have hin : f.month - 1 < (monthLengths f.year).length := by
    have htwelve : (monthLengths f.year).length = 12 := rfl
    omega
  have hlength := List.getElem?_eq_getElem hin
  have hinMonth : f.day - 1 < (monthLengths f.year)[f.month - 1] := by
    rw [List.getD_eq_getElem?_getD, hlength, Option.getD_some] at hlastDay
    omega
  have hinYear := sum_take_add_lt hlength hinMonth
  rw [sum_monthLengths] at hinYear
  have hfound := monthOfDay_eq 1 hlength hinMonth
  rw [Nat.add_sub_cancel' hmonth, Nat.sub_add_cancel hday] at hfound
  exact fields_eq rfl (by rw [← List.sum_eq_foldl_nat]) (yearOfDay_daysBeforeYear hyear hinYear)
    hfound hhour hminute hsecond hmicro

example : (midnight 2000 2 29).fields = ⟨2000, 2, 29, 0, 0, 0, 0⟩ := by decide +kernel

/-- Later years have more days before them. -/
theorem daysBeforeYear_mono {y y' : Nat} (hyear : y ≤ y') :
    daysBeforeYear y ≤ daysBeforeYear y' := by
  have hcentury (past : Nat) : past / 100 = past / 4 / 25 := by omega
  have hquarters : (y - 1) / 4 ≤ (y' - 1) / 4 := by omega
  have hcycles : (y - 1) / 400 ≤ (y' - 1) / 400 := by omega
  simp only [daysBeforeYear, hcentury]
  generalize (y - 1) / 4 = quarters at *
  generalize (y' - 1) / 4 = quarters' at *
  omega

/-- Whether a label stays in range when it is shifted by so many microseconds at most. -/
def HasRoom (l : Label) (room : Int) : Prop :=
  ∀ micros, -room ≤ micros → micros ≤ room → (⟨l.micros + micros⟩ : Label).inRange = true

/-- The labels of the years 2 to 9998 are a day inside the calendar on both sides. -/
theorem hasRoom_of_year {l : Label} (hfirst : 2 ≤ l.fields.year) (hlast : l.fields.year ≤ 9998) :
    l.HasRoom perDay := by
  intro micros hlow hhigh
  have hbegin := daysBeforeYear_mono hfirst
  have hend := daysBeforeYear_mono hlast
  have hday : daysBeforeYear l.fields.year +
      (yearOfDay ((l.micros / perSecond).toNat / 86400)).2 = _ := daysBeforeYear_yearOfDay _
  have hrest := yearOfDay_snd_le ((l.micros / perSecond).toNat / 86400)
  have hsecond : daysBeforeYear 2 = 365 := by decide +kernel
  have hlastBegin : daysBeforeYear 9998 = 3651329 := by decide +kernel
  have hover : daysBeforeYear 10000 = 3652059 := by decide +kernel
  simp only [perDay, perSecond] at hlow hhigh hday hrest
  rw [inRange, hover, perDay, perSecond]
  simp only [Bool.and_eq_true, decide_eq_true_eq]
  omega

/-- A label has less room if it has more. -/
theorem HasRoom.mono {l : Label} {room less : Int} (hroom : l.HasRoom room) (hless : less ≤ room) :
    l.HasRoom less := by
  intro micros hlow hhigh
  exact hroom micros (by omega) (by omega)

end FrameKinematics.Label
