import FrameKinematics.Proofs.Calendar.UtcOffset
import FrameKinematics.Proofs.Calendar.Fields

/-!
# Labels and the instants they name

An instant that a label names is as many seconds after the label as its scale is behind TT. Both
directions split that difference into whole seconds and the rest, and a label gets back its own
microseconds. For UTC the difference is read at the label on the way out and refined once on the way
back.
-/

namespace FrameKinematics

open LeapSeconds

namespace TimeScale

variable {l l' : Label} {scale : TimeScale}

/-- A label has its difference from TT in every scale there is, in UTC from the first entry of the
table on. -/
theorem exists_behindTT_eq (hknown : ∀ name, scale ≠ .unknown name)
    (htable : scale = .utc → (Label.midnight 1980 1 6).micros ≤ l.micros) :
    ∃ behind : ℝ, scale.behindTT l.taiMinusUtc = .ok behind := by
  cases scale with
  | tai => exact ⟨_, rfl⟩
  | tt => exact ⟨_, rfl⟩
  | gps => exact ⟨_, rfl⟩
  | utc =>
    have hreached : reached l.micros ≠ 0 := by
      rw [ne_eq, reached_eq_zero_iff, not_lt]
      exact htable rfl
    exact ⟨_, behindTT_utc_eq_ok_iff.mpr
      ⟨_, Label.taiMinusUtc_eq_ok_iff.mpr ⟨hreached, rfl⟩, rfl⟩⟩
  | unknown name => exact absurd rfl (hknown name)

/-- A later label of a scale is as far behind TT, or farther. -/
theorem exists_behindTT_ge {behind : ℝ} (hbehind : scale.behindTT l.taiMinusUtc = .ok behind)
    (hlater : l.micros ≤ l'.micros) :
    ∃ behind' : ℝ, scale.behindTT l'.taiMinusUtc = .ok behind' ∧ behind ≤ behind' := by
  cases scale with
  | tai => exact ⟨behind, hbehind, le_rfl⟩
  | tt => exact ⟨behind, hbehind, le_rfl⟩
  | gps => exact ⟨behind, hbehind, le_rfl⟩
  | utc =>
    obtain ⟨n, hn, rfl⟩ := behindTT_utc_eq_ok_iff.mp hbehind
    obtain ⟨hreached, rfl⟩ := Label.taiMinusUtc_eq_ok_iff.mp hn
    have hmono := reached_mono hlater
    refine ⟨_, behindTT_utc_eq_ok_iff.mpr
      ⟨_, Label.taiMinusUtc_eq_ok_iff.mpr ⟨by omega, rfl⟩, rfl⟩, ?_⟩
    have hvalue : (18 + reached l.micros : Int) ≤ 18 + reached l'.micros := by omega
    have hreal : ((18 + reached l.micros : Int) : ℝ) ≤ (18 + reached l'.micros : Int) := by
      exact_mod_cast hvalue
    linarith
  | unknown name => cases hbehind

end TimeScale

namespace Label

/-- The seconds to a label are whole seconds and whole microseconds. -/
theorem elapsed_eq_add (l : Label) :
    l.elapsed = ((l.micros - j2000.micros) / perSecond : Int) +
      ((l.micros - j2000.micros) % perSecond).toNat * 1e-6 := by
  rw [elapsed, perSecond]
  generalize l.micros - j2000.micros = micros
  have hsplit : (micros : ℝ) =
      1000000 * (micros / 1000000 : Int) + ((micros % 1000000).toNat : Int) := by
    have hwhole : micros = 1000000 * (micros / 1000000) + (micros % 1000000).toNat := by omega
    exact_mod_cast hwhole
  rw [hsplit]
  push_cast
  ring

/-- Later labels have more elapsed seconds. -/
theorem elapsed_lt {l l' : Label} (hlater : l.micros < l'.micros) : l.elapsed < l'.elapsed := by
  have hmicros : ((l.micros - j2000.micros : Int) : ℝ) < (l'.micros - j2000.micros : Int) := by
    exact_mod_cast Int.sub_lt_sub_right hlater _
  rw [elapsed, elapsed]
  linarith

end Label

namespace Instant

variable {l : Label} {scale : TimeScale} {behind : ℝ}

/-- An instant that a label names is as much later as its scale is behind TT, and its fraction is
less than a second. -/
theorem ofLabel_spec (hbehind : scale.behindTT l.taiMinusUtc = .ok behind) :
    ∃ t : Instant ℝ, ofLabel l scale = .ok t ∧ t.elapsed = l.elapsed + behind ∧
      0 ≤ t.fraction ∧ t.fraction < 1 := by
  have hsum (seconds : Int) (fraction : ℝ) : (do
      let (whole, rest) ← split behind
      make (seconds + whole) (fraction + rest) : Except (Fault ℝ) (Instant ℝ)) =
        .ok ⟨seconds + ⌊behind⌋ + ⌊fraction + Int.fract behind⌋,
          Int.fract (fraction + Int.fract behind)⟩ := by
    rw [split_real]
    exact make_real _ _
  rw [ofLabel, hbehind]
  refine ⟨_, hsum _ _, ?_, Int.fract_nonneg _, Int.fract_lt_one _⟩
  rw [elapsed_make, Label.elapsed_eq_add, Scalar.ofNat_real, Int.cast_add]
  linarith [Int.floor_add_fract behind]

/-- The label of an instant: whole seconds are added to the label of J2000.0, then the nearest
microseconds of the rest. -/
theorem toLabel_real {t : Instant ℝ} (hbehind : t.behindTT scale = .ok behind) :
    t.toLabel scale =
      Label.j2000.later ((t.seconds - ⌊behind⌋) * Label.perSecond) >>= fun whole =>
        whole.later (Scalar.nearestWhole ((t.fraction - Int.fract behind) * 1000000)) := by
  rw [toLabel, hbehind]
  change (split behind >>= fun parts =>
    Label.j2000.later ((t.seconds - parts.1) * Label.perSecond) >>= fun whole =>
      Scalar.microseconds (t.fraction - parts.2) >>= fun micros => whole.later micros) = _
  rw [split_real]
  change (Label.j2000.later ((t.seconds - ⌊behind⌋) * Label.perSecond) >>= fun whole =>
    Scalar.microseconds (t.fraction - Int.fract behind) >>= fun micros => whole.later micros) = _
  rw [Scalar.microseconds_real]
  rfl

/-- An instant with the seconds of a label gets that label, where the calendar goes on for a second
on both sides. -/
theorem toLabel_spec {t : Instant ℝ} (hbehind : t.behindTT scale = .ok behind)
    (ht : t.elapsed = l.elapsed + behind) (hnonneg : 0 ≤ t.fraction) (hlt : t.fraction < 1)
    (hroom : l.HasRoom Label.perSecond) :
    t.toLabel scale = .ok l := by
  obtain ⟨whole, hwhole⟩ : ∃ whole : Label,
      whole = ⟨Label.j2000.micros + (t.seconds - ⌊behind⌋) * Label.perSecond⟩ := ⟨_, rfl⟩
  -- What is added last is the difference between the label and the one at whole seconds.
  have hrest : (t.fraction - Int.fract behind) * 1000000 = (l.micros - whole.micros : Int) := by
    rw [hwhole, Label.perSecond]
    rw [elapsed, Label.elapsed] at ht
    push_cast at ht ⊢
    linarith [Int.floor_add_fract behind]
  have hlow : -Label.perSecond ≤ whole.micros - l.micros := by
    have hreal : (-1000000 : ℝ) ≤ (whole.micros - l.micros : Int) := by
      push_cast at hrest ⊢
      linarith [Int.fract_nonneg behind]
    exact_mod_cast hreal
  have hhigh : whole.micros - l.micros ≤ Label.perSecond := by
    have hreal : (whole.micros - l.micros : Int) ≤ (1000000 : ℝ) := by
      push_cast at hrest ⊢
      linarith [Int.fract_lt_one behind]
    exact_mod_cast hreal
  have hfirst : (Label.j2000.later ((t.seconds - ⌊behind⌋) * Label.perSecond) :
      Except (Fault ℝ) Label) = .ok whole := by
    have hwholeRange := hroom (whole.micros - l.micros) hlow hhigh
    rw [add_sub_cancel, hwhole] at hwholeRange
    rw [Label.later_of_inRange hwholeRange, hwhole]
  have hsecond : (whole.later (l.micros - whole.micros) : Except (Fault ℝ) Label) = .ok l := by
    have hadded : (⟨whole.micros + (l.micros - whole.micros)⟩ : Label) = l :=
      Label.ext (add_sub_cancel _ _)
    have hlabelRange := hroom 0 (by decide) (by decide)
    rw [add_zero, ← hadded] at hlabelRange
    rw [Label.later_of_inRange hlabelRange, hadded]
  rw [toLabel_real hbehind, hfirst, hrest, Scalar.nearestWhole_intCast]
  exact hsecond

/-- An instant that a label names is as far behind TT as the label. -/
theorem behindTT_of_label {t : Instant ℝ} (hbehind : scale.behindTT l.taiMinusUtc = .ok behind)
    (ht : t.elapsed = l.elapsed + behind) (hroom : l.HasRoom Label.perDay) :
    t.behindTT scale = .ok behind := by
  cases scale with
  | tai => exact hbehind
  | tt => exact hbehind
  | gps => exact hbehind
  | utc =>
    obtain ⟨n, hn, rfl⟩ := TimeScale.behindTT_utc_eq_ok_iff.mp hbehind
    have htt : Label.nearest t.elapsed = ⟨l.micros + microsBehindTT n⟩ :=
      Label.ext (by rw [ht, micros_nearest_behindTT, Label.nearest_elapsed])
    have hnear : (Label.nearest t.elapsed).inRange = true := by
      obtain ⟨-, rfl⟩ := Label.taiMinusUtc_eq_ok_iff.mp hn
      have hbound := reached_le_length l.micros
      rw [htt]
      apply hroom <;> rw [microsBehindTT, Label.perDay, Label.perSecond] <;> omega
    have hlabel : ((Label.nearest l.elapsed).taiMinusUtc : Except (Fault ℝ) Int) = .ok n := by
      rw [Label.nearest_elapsed, hn]
    exact behindTT_utc_eq_ok (taiMinusUtc_of_label hnear hlabel ht)
  | unknown name => exact hbehind

/-- A label of the years 2 to 9998 names an instant, which gets the label back, and a later label of
the same scale names a later instant. -/
theorem toLabel_ofLabel (hknown : ∀ name, scale ≠ .unknown name)
    (hfirst : 2 ≤ l.fields.year) (hlast : l.fields.year ≤ 9998)
    (htable : scale = .utc → (Label.midnight 1980 1 6).micros ≤ l.micros) :
    ∃ t : Instant ℝ, ofLabel l scale = .ok t ∧ t.toLabel scale = .ok l ∧
      ∀ l' : Label, l.micros < l'.micros →
        ∃ t', ofLabel l' scale = .ok t' ∧ t.before t' = true := by
  obtain ⟨behind, hbehind⟩ := TimeScale.exists_behindTT_eq hknown htable
  obtain ⟨t, ht, helapsed, hnonneg, hlt⟩ := ofLabel_spec hbehind
  have hroom := Label.hasRoom_of_year hfirst hlast
  refine ⟨t, ht, ?_, fun l' hlater => ?_⟩
  · exact toLabel_spec (behindTT_of_label hbehind helapsed hroom) helapsed hnonneg hlt
      (hroom.mono (by decide))
  · obtain ⟨behind', hbehind', hle⟩ := TimeScale.exists_behindTT_ge hbehind hlater.le
    obtain ⟨t', ht', helapsed', -, hlt'⟩ := ofLabel_spec hbehind'
    refine ⟨t', ht', before_of_elapsed_lt hnonneg hlt' ?_⟩
    rw [helapsed, helapsed']
    exact add_lt_add_of_lt_of_le (Label.elapsed_lt hlater) hle

/-- The last microsecond of 2016 in UTC. A leap second follows, without a label. -/
def yearEnd : Label := .ofFields ⟨2016, 12, 31, 23, 59, 59, 999999⟩

/-- A label at the end of a year with a leap second is found again, and comes before the first label
of the next year. -/
theorem yearEnd_roundTrip :
    2 ≤ yearEnd.fields.year ∧ yearEnd.fields.year ≤ 9998 ∧
      (Label.midnight 1980 1 6).micros ≤ yearEnd.micros ∧
      ∃ t t' : Instant ℝ, ofLabel yearEnd .utc = .ok t ∧ t.toLabel .utc = .ok yearEnd ∧
        ofLabel (.midnight 2017 1 1) .utc = .ok t' ∧ t.before t' = true := by
  have hfields : yearEnd.fields = ⟨2016, 12, 31, 23, 59, 59, 999999⟩ :=
    Label.fields_ofFields (by decide)
  have hfirst : 2 ≤ yearEnd.fields.year := by
    rw [hfields]
    decide
  have hlast : yearEnd.fields.year ≤ 9998 := by
    rw [hfields]
    decide
  have htable : (Label.midnight 1980 1 6).micros ≤ yearEnd.micros := by decide +kernel
  obtain ⟨t, ht, hback, hlater⟩ := toLabel_ofLabel (fun name => show TimeScale.utc ≠ .unknown name
    from nofun) hfirst hlast (fun _ => htable)
  obtain ⟨t', ht', hbefore⟩ := hlater (.midnight 2017 1 1) (by decide +kernel)
  exact ⟨hfirst, hlast, htable, t, t', ht, hback, ht', hbefore⟩

end Instant

end FrameKinematics
