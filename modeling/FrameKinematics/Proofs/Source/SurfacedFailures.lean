import FrameKinematics.Proofs.Source.SampleUses
import FrameKinematics.Proofs.Source.SlotRequests
import FrameKinematics.Source.Laws

/-!
# Failures that surface

A failure of a raw source surfaces through a slot and through a sample store in the same way, and a
table of the pole reports an instant that it lacks. All three say that a source failed where the
instant has a label. Outside the calendar there are no labels, and then they fail to say so.
-/

namespace FrameKinematics

variable {K : Type} [Scalar K]

/-- The seconds since J2000.0 fail only beyond the range. -/
theorem failsBeyondRange_sinceJ2000 (date : Instant K) : FailsBeyondRange date.sinceJ2000 := by
  refine FailsBeyondRange.bind ?_ fun x => failsBeyondRange_pure _
  exact failsBeyondRange_ofInt _

/-- A request that a slot does not answer fails as the raw source does. -/
theorem SlotSource.Answering.result_of_failure {c : SlotSource K} {date : Instant K}
    {memory left : Memory K} {result : Except (Fault K) (Computed K)} {fault : Fault K}
    (h : c.Answering date memory result left) (hfind : (c.kept memory).find? date = none)
    (hraw : (c.raw date).outcome (c.missed memory) = .error fault) :
    result = .error (fault.surfaced c.rawName date) := by
  cases h with
  | found hfound => simp [hfind] at hfound
  | failed _ hfails =>
    rw [hraw] at hfails
    rw [Except.error.inj hfails]
  | computed _ hanswer => simp [hraw] at hanswer

/-- A sample that is not stored fails as the raw source does at the instant of the grid point. -/
theorem GridSource.sample_of_failure {g : GridSource K} {index : Int} {memory : Memory K}
    {t : Instant K} {fault : Fault K} (hnew : index ∉ g.cached memory)
    (hasks : g.asks memory index = .ok t)
    (hraw : (g.raw t).outcome ((g.reach index).after memory) = .error fault) :
    (g.sample index).outcome memory = .error (fault.surfaced g.rawName t) := by
  have hget : ((Run.store g.store).get : Run K _).outcome memory = .ok (g.samples memory) := rfl
  have hsame : ((Run.store g.store).get : Run K _).after memory = memory := rfl
  have hfind : (g.samples memory).find? index = none := SampleStore.find?_eq_none_iff.mpr hnew
  have hreach := (g.reach_spec index memory).1
  rw [hasks] at hreach
  have hguarded := outcome_guarded g.rawName g.raw t ((g.reach index).after memory)
  rw [hraw] at hguarded
  rw [sample_eq, Run.outcome_bind_of_ok hget, hsame]
  simp only [hfind]
  rw [Run.outcome_bind_of_ok hreach, fetch, Run.outcome_bind_of_error hguarded]

namespace PoleTable

/-- A table lacks the instants before its first record and after its last one, and those too far
away for a time. -/
def Lacks (table : PoleTable K) (date : Instant K) : Prop :=
  ∀ t, date.sinceJ2000 = .ok t → t < table.first.time ∨ table.last.time < t

/-- What a table says of an instant that it lacks. -/
theorem correction_of_lacks {table : PoleTable K} {date : Instant K} (h : table.Lacks date) :
    table.correction date = (do
      let _ ← date.sinceJ2000
      let label ← date.text
      let first ← table.first.date.text
      let last ← table.last.date.text
      throw (.noPoleCorrection date label first last)) := by
  rw [correction]
  cases ht : date.sinceJ2000 with
  | error fault => rfl
  | ok t =>
    change (if t < table.first.time ∨ table.last.time < t then _ else _) = _
    rw [if_pos (h t ht)]
    rfl

/-- The ways in which a table fails at an instant. -/
inductive Refusal (table : PoleTable K) (date : Instant K) :
    Except (Fault K) (PoleCorrection K) → Prop
  /-- It reports the instant and those of its first and its last record. -/
  | reported {label first last : String} (hlabel : date.text = .ok label)
      (hfirst : table.first.date.text = .ok first) (hlast : table.last.date.text = .ok last) :
      Refusal table date (.error (.noPoleCorrection date label first last))
  /-- It cannot print one of them, or the instant is too far away for a time. -/
  | lost {fault : Fault K} (hbeyond : fault.isBeyondRange = true)
      (hfault : date.sinceJ2000 = .error fault ∨
        ∃ d ∈ [date, table.first.date, table.last.date], d.text = .error fault) :
      Refusal table date (.error fault)

/-- A table fails in these ways at the instants that it lacks. -/
theorem refusal_of_lacks {table : PoleTable K} {date : Instant K} (h : table.Lacks date) :
    table.Refusal date (table.correction date) := by
  rw [correction_of_lacks h]
  cases htime : date.sinceJ2000 with
  | error fault => exact .lost (failsBeyondRange_sinceJ2000 date fault htime) (.inl htime)
  | ok t =>
    cases hlabel : date.text with
    | error fault =>
      exact .lost (failsBeyondRange_text date fault hlabel) (.inr ⟨date, by simp, hlabel⟩)
    | ok label =>
      cases hfirst : table.first.date.text with
      | error fault => exact .lost (failsBeyondRange_text _ fault hfirst) (.inr ⟨_, by simp, hfirst⟩)
      | ok first =>
        cases hlast : table.last.date.text with
        | error fault => exact .lost (failsBeyondRange_text _ fault hlast) (.inr ⟨_, by simp, hlast⟩)
        | ok last => exact .reported hlabel hfirst hlast

end PoleTable

/-- How failures surface in requests for an instant, whatever the raw source is. -/
structure SurfacesFailures (date : Instant K) : Prop where
  /-- What a slot does not answer fails as the raw source does at the instant. -/
  slot : ∀ (c : SlotSource K) memory, (c.kept memory).find? date = none →
    ∀ fault, (c.raw date).outcome (c.missed memory) = .error fault →
      (c.serve date).outcome memory = .error (fault.surfaced c.rawName date)
  /-- A request on a time grid fails as the raw source does at a grid point that is not stored. -/
  grid : ∀ (g : GridSource K) memory, ∀ moment ∈ g.moments date memory,
    moment.1 ∉ g.cached moment.2 → ∀ t, g.asks moment.2 moment.1 = .ok t →
      ∀ fault, (g.raw t).outcome ((g.reach moment.1).after moment.2) = .error fault →
        (g.serve date).outcome memory = .error (fault.surfaced g.rawName t)
  /-- A table of the pole fails at an instant that it lacks. -/
  pole : ∀ table : PoleTable K, table.Lacks date → table.Refusal date (table.correction date)
  /-- What surfaces says that a source failed, unless the instant cannot be printed. -/
  surfaced : ∀ source (fault : Fault K), fault.Surfacing source date (fault.surfaced source date)

/-- At every instant, failures surface as failures of a source up to what cannot be printed. -/
theorem failures_surface (date : Instant K) : SurfacesFailures date := by
  refine ⟨?_, ?_, ?_, ?_⟩
  · intro c memory hfind fault hraw
    exact (c.serve_answering date memory).result_of_failure hfind hraw
  · intro g memory moment hmoment hnew t hasks fault hraw
    have hfails := GridSource.sample_of_failure hnew hasks hraw
    exact (GridSource.serve_of_failure hmoment hfails).1
  · intro table hlacks
    exact PoleTable.refusal_of_lacks hlacks
  · intro source fault
    exact fault.surfaced_surfacing source date

section Examples

/-- A source from outside that always fails. -/
def Source.failing : Source Float := .external "Raw" (Law.failing .value "no data") 0

/-- A source that keeps its last transform, of which there are none. -/
def SlotSource.failing : SlotSource Float := ⟨"Raw", Source.failing.serve, 0⟩

/-- A source that interpolates between two of its transforms, a minute apart. -/
def GridSource.failing : GridSource Float :=
  ⟨⟨.whole 2, .whole 60, .whole 2, .of .withSecond, .of .withSecond⟩, "Raw",
    Source.failing.ask, 0⟩

/-- A table of the pole for the day after J2000.0. -/
def PoleTable.oneDay : PoleTable Float :=
  ⟨⟨.j2000, 0.0, ⟨0.1, 0.2⟩⟩, [⟨⟨86400, 0.0⟩, 86400.0, ⟨0.2, 0.3⟩⟩]⟩

/-- A minute before J2000.0. -/
def minuteBefore : Instant Float := ⟨-60, 0.0⟩

/-- In both wrappers and in a table, a failure a minute before J2000.0 surfaces as one of a
source. -/
theorem failing_surfaces :
    (SlotSource.failing.serve minuteBefore).outcome freshMemory =
        .error ((Fault.reported .value "no data").surfaced "Raw" minuteBefore) ∧
      (∃ t, GridSource.failing.asks freshMemory (-1) = .ok t ∧
        (GridSource.failing.serve minuteBefore).outcome freshMemory =
          .error ((Fault.reported .value "no data").surfaced "Raw" t)) ∧
      PoleTable.oneDay.Lacks minuteBefore ∧
      PoleTable.oneDay.Refusal minuteBefore (PoleTable.oneDay.correction minuteBefore) := by
  have hsurface := failures_surface minuteBefore
  have hwindow : GridSource.failing.window minuteBefore = [-1, 0] := by decide +kernel
  have hmoment : (-1, freshMemory) ∈ GridSource.failing.moments minuteBefore freshMemory := by
    rw [GridSource.moments, hwindow, Run.moments]
    exact List.mem_cons_self
  have hreached : (GridSource.failing.asks freshMemory (-1)).isOk = true := by decide +kernel
  have hlacks : PoleTable.oneDay.Lacks minuteBefore := by
    intro t ht
    obtain rfl : -60.0 = t := Except.ok.inj ht
    exact .inl (by decide +kernel)
  refine ⟨hsurface.slot _ freshMemory rfl _ rfl, ?_, hlacks, hsurface.pole _ hlacks⟩
  cases hasks : GridSource.failing.asks freshMemory (-1) with
  | error fault => simp [hasks, Except.isOk, Except.toBool] at hreached
  | ok t =>
    have hnew : -1 ∉ GridSource.failing.cached freshMemory := by decide +kernel
    exact ⟨t, rfl, hsurface.grid _ freshMemory _ hmoment hnew t hasks _ rfl⟩

/-- Beyond the calendar, the raw failure of a source and the instant that a table lacks surface as
something else, which does not say that a source failed. -/
theorem failing_lost :
    (SlotSource.failing.kept freshMemory).find? afterCalendar = none ∧
      (SlotSource.failing.raw afterCalendar).outcome (SlotSource.failing.missed freshMemory) =
        .error (.reported .value "no data") ∧
      (SlotSource.failing.serve afterCalendar).outcome freshMemory = .error .outsideCalendar ∧
      PoleTable.oneDay.Lacks afterCalendar ∧
      PoleTable.oneDay.correction afterCalendar = .error .outsideCalendar ∧
      (Fault.outsideCalendar : Fault Float).isSourceFailure = false := by
  have hlacks : PoleTable.oneDay.Lacks afterCalendar := by
    intro t ht
    obtain rfl : 1000000000000.0 = t := Except.ok.inj ht
    exact .inr (by decide +kernel)
  exact ⟨rfl, rfl, rfl, hlacks, rfl, rfl⟩

end Examples

end FrameKinematics
