import Mathlib.LinearAlgebra.AffineSpace.Ordered
import FrameKinematics.Proofs.Interpolation.SampleOrder
import FrameKinematics.Proofs.Source.SurfacedFailures
import FrameKinematics.Proofs.Transform.FixedAxis
import FrameKinematics.Earth.Pole

/-!
# What a table of the pole says

The records of a table are sorted before their instants are compared, so a table is made of records
at different instants in every order, and it is always the same table. It answers from its first
record to its last one: with the record at the instant of a record, and between two records that
follow each other with a point on the line through them, which never leaves their range.
-/

namespace FrameKinematics

/-- Sorted entries at different instants are at growing times. -/
theorem Instant.pairwise_elapsed_lt_sortOn {α : Type} {key : α → Instant ℝ} {entries : List α}
    (hmade : ∀ e ∈ entries, (key e).Made) (hdistinct : (entries.map key).Nodup) :
    (sortOn key entries).Pairwise fun a b => (key a).elapsed < (key b).elapsed := by
  have htimes : (entries.map fun e => (key e).elapsed).Nodup := by
    refine hdistinct.of_map.map_on fun e he f hf h => ?_
    exact List.inj_on_of_nodup_map hdistinct he hf
      (eq_of_elapsed_eq (hmade e he).fraction_mem (hmade f hf).fraction_mem h)
  have hsorted : ((sortOn key entries).map fun e => (key e).elapsed).Nodup :=
    ((sortOn_perm key entries).map _).nodup_iff.mpr htimes
  exact (pairwise_elapsed_sortOn fun e he => (hmade e he).fraction_mem).imp₂
    (fun _ _ hle hne => lt_of_le_of_ne hle hne) (List.pairwise_map.mp hsorted)

namespace PoleTable

/-- Times stall exactly if they do not increase. -/
theorem stalls_eq_false_iff (times : List ℝ) : stalls times = false ↔ times.Pairwise (· < ·) := by
  rw [← List.isChain_iff_pairwise]
  induction times with
  | nil => simp [stalls]
  | cons s rest ih =>
    cases rest with
    | nil => simp [stalls]
    | cons t rest =>
      rw [stalls, Bool.or_eq_false_iff, ih, List.isChain_cons_cons, decide_eq_false_iff_not,
        Scalar.zero_literal, not_le, sub_pos]

/-- The coordinates of the pole in an entry, which has them in arc seconds. -/
noncomputable def radians (entry : Instant ℝ × ℝ × ℝ) : PoleCorrection ℝ :=
  ⟨entry.2.1 * Standards.radiansPerArcsecond ℝ, entry.2.2 * Standards.radiansPerArcsecond ℝ⟩

/-- The record that an entry becomes. -/
noncomputable def record (entry : Instant ℝ × ℝ × ℝ) : PoleRecord ℝ :=
  ⟨entry.1, entry.1.elapsed, radians entry⟩

section Columns

variable (entries : List (Instant ℝ × ℝ × ℝ))

/-- The columns of sorted entries. -/
theorem ofArcseconds_eq_ofColumns :
    ofArcseconds entries =
      ofColumns ((Instant.sortOn Prod.fst entries).map Prod.fst)
        ((Instant.sortOn Prod.fst entries).map fun entry => (radians entry).xp)
        ((Instant.sortOn Prod.fst entries).map fun entry => (radians entry).yp) :=
  rfl

/-- The times of entries always exist as real numbers. -/
theorem mapM_sinceJ2000 :
    ((entries.map Prod.fst).mapM Instant.sinceJ2000 : Except (Fault ℝ) (List ℝ)) =
      .ok (entries.map fun entry => entry.1.elapsed) := by
  apply Grid.mapM_eq_ok
  rw [List.map_map, List.map_map]
  exact List.map_congr_left fun entry _ => entry.1.sinceJ2000_real

/-- What columns become depends on their instants alone. -/
theorem ofColumns_eq (first : Instant ℝ × ℝ × ℝ) (rest : List (Instant ℝ × ℝ × ℝ)) :
    ofColumns ((first :: rest).map Prod.fst) ((first :: rest).map fun entry => (radians entry).xp)
        ((first :: rest).map fun entry => (radians entry).yp) =
      if stalls ((first :: rest).map fun entry => entry.1.elapsed) then .error .unorderedPoleDates
      else .ok ⟨record first, rest.map record⟩ := by
  have hrecords : ((((first :: rest).map Prod.fst).zip
      ((first :: rest).map fun entry => entry.1.elapsed)).zip
        (((first :: rest).map fun entry => (radians entry).xp).zip
          ((first :: rest).map fun entry => (radians entry).yp))).map
        (fun ((date, time), (x, y)) => (⟨date, time, ⟨x, y⟩⟩ : PoleRecord ℝ)) =
      record first :: rest.map record := by
    rw [List.zip_map', List.zip_map', List.zip_map', List.map_map]
    rfl
  refine (bind_eq_of_ok (mapM_sinceJ2000 (first :: rest))).trans ?_
  rw [hrecords, List.length_map, List.length_map, List.length_map, if_neg (by simp),
    if_neg (by simp)]
  rfl

end Columns

section Answers

variable (table : PoleTable ℝ) (date : Instant ℝ)

/-- An instant is not before the first record of a table and not after the last one. -/
def Covers : Prop := table.first.time ≤ date.elapsed ∧ date.elapsed ≤ table.last.time

/-- A table lacks coordinates exactly outside the instants that it covers. -/
theorem lacks_iff : table.Lacks date ↔ ¬table.Covers date := by
  simp only [Lacks, Covers, date.sinceJ2000_real, Except.ok.injEq, forall_eq', not_and_or, not_le]

/-- The interpolated coordinates at a time. -/
noncomputable def poleAt (t : ℝ) : PoleCorrection ℝ :=
  ⟨interpolate (fun r => r.pole.xp) t table.first table.rest,
    interpolate (fun r => r.pole.yp) t table.first table.rest⟩

variable {table date}

/-- Inside the instants that it covers, a table gives interpolated coordinates. -/
theorem Covers.correction_eq (h : table.Covers date) :
    table.correction date = .ok (table.poleAt date.elapsed) := by
  have hwithin : ¬(date.elapsed < table.first.time ∨ table.last.time < date.elapsed) := by
    rw [not_or, not_lt, not_lt]
    exact h
  refine (bind_eq_of_ok date.sinceJ2000_real).trans ?_
  rw [if_neg hwithin]
  rfl

/-- A table answers exactly at the instants that it covers. -/
theorem exists_correction_eq_ok_iff :
    (∃ pole, table.correction date = .ok pole) ↔ table.Covers date := by
  constructor
  · rintro ⟨pole, hpole⟩
    by_contra hlacks
    have hrefusal := refusal_of_lacks ((lacks_iff table date).mpr hlacks)
    rw [hpole] at hrefusal
    cases hrefusal
  · exact fun h => ⟨_, h.correction_eq⟩

end Answers

section Search

variable {column : PoleRecord ℝ → ℝ} {t : ℝ} {r s s' : PoleRecord ℝ} {rest : List (PoleRecord ℝ)}

/-- The records are in the order of their times, which are different. -/
def Increasing (records : List (PoleRecord ℝ)) : Prop :=
  records.Pairwise fun a b => a.time < b.time

/-- No record is before the first one. -/
theorem Increasing.first_le (h : Increasing (r :: rest)) (hs : s ∈ r :: rest) :
    r.time ≤ s.time := by
  rcases List.mem_cons.mp hs with rfl | hs
  · exact le_rfl
  · exact ((List.pairwise_cons.mp h).1 s hs).le

/-- A record that is not after the first one is the first one. -/
theorem Increasing.eq_first (h : Increasing (r :: rest)) (hs : s ∈ r :: rest)
    (hle : s.time ≤ r.time) : s = r := by
  rcases List.mem_cons.mp hs with rfl | hs
  · rfl
  · exact absurd ((List.pairwise_cons.mp h).1 s hs) (not_lt.mpr hle)

/-- The last record is one of the records, and it is not before any of them. -/
theorem Increasing.le_last (h : Increasing (r :: rest)) :
    rest.getLastD r ∈ r :: rest ∧ ∀ s ∈ r :: rest, s.time ≤ (rest.getLastD r).time := by
  induction rest generalizing r with
  | nil => simp
  | cons q rest ih =>
    obtain ⟨hfirst, hrest⟩ := List.pairwise_cons.mp h
    obtain ⟨hmem, hle⟩ := ih hrest
    rw [List.getLastD_cons]
    refine ⟨List.mem_cons_of_mem r hmem, fun s hs => ?_⟩
    rcases List.mem_cons.mp hs with rfl | hs
    · exact (hfirst q List.mem_cons_self).le.trans (hle q List.mem_cons_self)
    · exact hle s hs

/-- A record that is after the first one is one of the others. -/
theorem mem_rest_of_lt (hs : s ∈ r :: rest) (hlt : r.time < s.time) : s ∈ rest :=
  (List.mem_cons.mp hs).resolve_left fun h => hlt.ne (congrArg PoleRecord.time h.symm)

/-- At the time of a record the search ends with this record. -/
theorem interpolate_of_time_eq (hsorted : Increasing (r :: rest)) (hs : s ∈ r :: rest)
    (ht : s.time = t) : interpolate column t r rest = column s := by
  induction rest generalizing r with
  | nil => rw [List.mem_singleton.mp hs, interpolate]
  | cons q rest ih =>
    obtain ⟨hfirst, hrest⟩ := List.pairwise_cons.mp hsorted
    by_cases hnext : q.time ≤ t
    · have hpast : s ∈ q :: rest :=
        mem_rest_of_lt hs ((hfirst q List.mem_cons_self).trans_le (hnext.trans_eq ht.symm))
      rw [interpolate, if_pos hnext, ih hrest hpast]
    · have hhere : s = r := by
        rcases List.mem_cons.mp hs with h | hs
        · exact h
        · exact absurd ((Increasing.first_le hrest hs).trans_eq ht) hnext
      rw [interpolate, if_neg hnext, ← hhere, if_pos (beq_iff_eq.mpr ht)]

/-- Between two records that follow each other the search ends with the line through them. -/
theorem interpolate_of_between (hsorted : Increasing (r :: rest)) (hs : s ∈ r :: rest)
    (hs' : s' ∈ r :: rest)
    (hadjacent : ∀ u ∈ r :: rest, ¬(s.time < u.time ∧ u.time < s'.time))
    (hafter : s.time < t) (hbefore : t < s'.time) :
    interpolate column t r rest = onLine t s.time (column s) s'.time (column s') := by
  induction rest generalizing r with
  | nil =>
    rw [List.mem_singleton.mp hs] at hafter
    rw [List.mem_singleton.mp hs'] at hbefore
    exact absurd (hafter.trans hbefore) (lt_irrefl _)
  | cons q rest ih =>
    obtain ⟨hfirst, hrest⟩ := List.pairwise_cons.mp hsorted
    have hq : r.time < q.time := hfirst q List.mem_cons_self
    have hlate : s' ∈ q :: rest :=
      mem_rest_of_lt hs' ((hsorted.first_le hs).trans_lt (hafter.trans hbefore))
    by_cases hnext : q.time ≤ t
    · -- The earlier record is not the first one: the second would be between the two.
      have hearly : s ∈ q :: rest := by
        rcases List.mem_cons.mp hs with rfl | hs
        · exact absurd ⟨hq, hnext.trans_lt hbefore⟩ (hadjacent q (by simp))
        · exact hs
      rw [interpolate, if_pos hnext]
      exact ih hrest hearly hlate fun u hu => hadjacent u (List.mem_cons_of_mem r hu)
    · have hhere : s = r := by
        rcases List.mem_cons.mp hs with h | hs
        · exact h
        · exact absurd ((Increasing.first_le hrest hs).trans hafter.le) hnext
      subst hhere
      have hthere : s' = q :=
        Increasing.eq_first hrest hlate (not_lt.mp fun h => hadjacent q (by simp) ⟨hq, h⟩)
      rw [interpolate, if_neg hnext, if_neg (by simpa using hafter.ne), hthere]

/-- The line through two points as an affine map. -/
theorem onLine_real (t t₀ y₀ t₁ y₁ : ℝ) :
    onLine t t₀ y₀ t₁ y₁ = AffineMap.lineMap y₀ y₁ ((t - t₀) / (t₁ - t₀)) := by
  rw [onLine, if_pos (beq_self_eq_true _), AffineMap.lineMap_apply_ring']
  ring

end Search

/-- The coordinates that divide the way from some coordinates to others in a ratio. -/
noncomputable def between (p q : PoleCorrection ℝ) (ratio : ℝ) : PoleCorrection ℝ :=
  ⟨AffineMap.lineMap p.xp q.xp ratio, AffineMap.lineMap p.yp q.yp ratio⟩

/-- A table answers for some entries: from the first of their instants to the last one, with the
entry at its instant, and between two entries with no instant between them in proportion to the
time, so within their range. -/
structure AnswersFor (table : PoleTable ℝ) (entries : List (Instant ℝ × ℝ × ℝ)) : Prop where
  covers_iff : ∀ date, (∃ pole, table.correction date = .ok pole) ↔
    (∃ e ∈ entries, e.1.elapsed ≤ date.elapsed) ∧ ∃ e ∈ entries, date.elapsed ≤ e.1.elapsed
  at_entry : ∀ e ∈ entries, ∀ date, e.1.elapsed = date.elapsed →
    table.correction date = .ok (radians e)
  between : ∀ e ∈ entries, ∀ e' ∈ entries,
    (∀ u ∈ entries, ¬(e.1.elapsed < u.1.elapsed ∧ u.1.elapsed < e'.1.elapsed)) →
    ∀ date, e.1.elapsed < date.elapsed → date.elapsed < e'.1.elapsed →
    ∃ pole, table.correction date = .ok pole ∧
      pole = PoleTable.between (radians e) (radians e')
        ((date.elapsed - e.1.elapsed) / (e'.1.elapsed - e.1.elapsed)) ∧
      pole.xp ∈ Set.uIcc (radians e).xp (radians e').xp ∧
      pole.yp ∈ Set.uIcc (radians e).yp (radians e').yp

/-- The records of a table are those of some entries, in order. -/
structure Lists (table : PoleTable ℝ) (entries : List (Instant ℝ × ℝ × ℝ)) : Prop where
  increasing : Increasing table.records
  mem_iff : ∀ r, r ∈ table.records ↔ ∃ e ∈ entries, record e = r

section Lists

variable {table : PoleTable ℝ} {entries : List (Instant ℝ × ℝ × ℝ)} {date : Instant ℝ}

/-- A table covers what lies between entries that it lists. -/
theorem Lists.covers_iff (h : table.Lists entries) :
    table.Covers date ↔
      (∃ e ∈ entries, e.1.elapsed ≤ date.elapsed) ∧ ∃ e ∈ entries, date.elapsed ≤ e.1.elapsed := by
  obtain ⟨hlast, hle⟩ := h.increasing.le_last
  constructor
  · rintro ⟨hfirst, hdate⟩
    obtain ⟨e, he, hrecord⟩ := (h.mem_iff _).mp List.mem_cons_self
    obtain ⟨e', he', hrecord'⟩ := (h.mem_iff _).mp hlast
    exact ⟨⟨e, he, (congrArg PoleRecord.time hrecord).trans_le hfirst⟩,
      e', he', hdate.trans_eq (congrArg PoleRecord.time hrecord').symm⟩
  · rintro ⟨⟨e, he, hafter⟩, e', he', hbefore⟩
    exact ⟨(h.increasing.first_le ((h.mem_iff _).mpr ⟨e, he, rfl⟩)).trans hafter,
      hbefore.trans (hle _ ((h.mem_iff _).mpr ⟨e', he', rfl⟩))⟩

/-- A point that divides the way between two numbers in a ratio lies between them. -/
theorem between_mem {p q ratio : ℝ} (hratio : ratio ∈ Set.Icc 0 1) :
    AffineMap.lineMap p q ratio ∈ Set.uIcc p q := by
  rw [← segment_eq_uIcc]
  exact lineMap_mem_segment ℝ p q hratio

/-- What a table says follows from the records that it has. -/
theorem Lists.answersFor (h : table.Lists entries) : table.AnswersFor entries where
  covers_iff date := (exists_correction_eq_ok_iff).trans h.covers_iff
  at_entry e he date hdate := by
    have hmem : record e ∈ table.first :: table.rest := (h.mem_iff _).mpr ⟨e, he, rfl⟩
    have hcovers : table.Covers date := h.covers_iff.mpr ⟨⟨e, he, hdate.le⟩, e, he, hdate.ge⟩
    rw [hcovers.correction_eq, poleAt, interpolate_of_time_eq h.increasing hmem hdate,
      interpolate_of_time_eq h.increasing hmem hdate]
    rfl
  between e he e' he' hadjacent date hafter hbefore := by
    have hmem : record e ∈ table.first :: table.rest := (h.mem_iff _).mpr ⟨e, he, rfl⟩
    have hmem' : record e' ∈ table.first :: table.rest := (h.mem_iff _).mpr ⟨e', he', rfl⟩
    have hnone : ∀ r ∈ table.first :: table.rest,
        ¬((record e).time < r.time ∧ r.time < (record e').time) := by
      intro r hr
      obtain ⟨u, hu, rfl⟩ := (h.mem_iff r).mp hr
      exact hadjacent u hu
    have hcovers : table.Covers date :=
      h.covers_iff.mpr ⟨⟨e, he, hafter.le⟩, e', he', hbefore.le⟩
    have hpole : table.poleAt date.elapsed = PoleTable.between (radians e) (radians e')
        ((date.elapsed - e.1.elapsed) / (e'.1.elapsed - e.1.elapsed)) := by
      rw [poleAt, interpolate_of_between h.increasing hmem hmem' hnone hafter hbefore,
        interpolate_of_between h.increasing hmem hmem' hnone hafter hbefore, onLine_real,
        onLine_real]
      rfl
    have hlength : 0 < e'.1.elapsed - e.1.elapsed := sub_pos.mpr (hafter.trans hbefore)
    have hratio : (date.elapsed - e.1.elapsed) / (e'.1.elapsed - e.1.elapsed) ∈ Set.Icc 0 1 := by
      refine ⟨div_nonneg (sub_nonneg.mpr hafter.le) hlength.le, (div_le_one hlength).mpr ?_⟩
      exact sub_le_sub_right hbefore.le _
    refine ⟨_, hcovers.correction_eq, hpole, ?_, ?_⟩
    · rw [hpole]
      exact between_mem hratio
    · rw [hpole]
      exact between_mem hratio

/-- Entries at different instants make up a table. -/
theorem exists_ofArcseconds (hne : entries ≠ []) (hmade : ∀ e ∈ entries, e.1.Made)
    (hdistinct : (entries.map Prod.fst).Nodup) :
    ∃ table, ofArcseconds entries = .ok table ∧ table.Lists entries := by
  have hperm := Instant.sortOn_perm Prod.fst entries
  have htimes := Instant.pairwise_elapsed_lt_sortOn hmade hdistinct
  cases hsorted : Instant.sortOn Prod.fst entries with
  | nil =>
    rw [hsorted] at hperm
    exact absurd hperm.symm.eq_nil hne
  | cons first rest =>
    rw [hsorted] at hperm htimes
    have hstalls : stalls ((first :: rest).map fun entry => entry.1.elapsed) = false :=
      (stalls_eq_false_iff _).mpr (List.pairwise_map.mpr htimes)
    have hincreasing : Increasing ((first :: rest).map record) := List.pairwise_map.mpr htimes
    refine ⟨⟨record first, rest.map record⟩, ?_, hincreasing, fun r => ?_⟩
    · rw [ofArcseconds_eq_ofColumns, hsorted, ofColumns_eq, hstalls]
      rfl
    · simp only [records, ← List.map_cons, List.mem_map, hperm.mem_iff]

/-- Entries of which two are at the same instant do not. -/
theorem ofArcseconds_of_repeated (hrepeated : ¬(entries.map Prod.fst).Nodup) :
    ofArcseconds entries = .error .unorderedPoleDates := by
  have hperm := Instant.sortOn_perm Prod.fst entries
  cases hsorted : Instant.sortOn Prod.fst entries with
  | nil =>
    rw [hsorted] at hperm
    exact absurd (hperm.symm.eq_nil ▸ List.nodup_nil) hrepeated
  | cons first rest =>
    rw [hsorted] at hperm
    have hstalls : stalls ((first :: rest).map fun entry => entry.1.elapsed) = true := by
      rw [← Bool.not_eq_false, stalls_eq_false_iff]
      intro htimes
      have hnodup : (((first :: rest).map Prod.fst).map Instant.elapsed).Nodup := by
        rw [List.map_map]
        exact htimes.imp ne_of_lt
      exact hrepeated ((hperm.map Prod.fst).nodup_iff.mp hnodup.of_map)
    rw [ofArcseconds_eq_ofColumns, hsorted, ofColumns_eq, if_pos hstalls]

/-- Entries at different instants make up one table in every order, and it answers for them. Entries
with an instant that comes twice are refused for it. -/
theorem ofArcseconds_tabulates (hmade : ∀ e ∈ entries, e.1.Made) :
    (entries ≠ [] → (entries.map Prod.fst).Nodup →
      ∃ table, (∀ shuffled, shuffled.Perm entries → ofArcseconds shuffled = .ok table) ∧
        table.AnswersFor entries) ∧
    (¬(entries.map Prod.fst).Nodup → ofArcseconds entries = .error .unorderedPoleDates) := by
  refine ⟨fun hne hdistinct => ?_, ofArcseconds_of_repeated⟩
  obtain ⟨table, htable, hlists⟩ := exists_ofArcseconds hne hmade hdistinct
  refine ⟨table, fun shuffled hperm => ?_, hlists.answersFor⟩
  have hsorted : Instant.sortOn Prod.fst shuffled = Instant.sortOn Prod.fst entries :=
    Instant.sortOn_of_perm hperm (((hperm.map Prod.fst).nodup_iff).mpr hdistinct)
  rw [ofArcseconds_eq_ofColumns, hsorted, ← ofArcseconds_eq_ofColumns, htable]

end Lists

/-- The coordinates of the pole on a morning. -/
noncomputable def morning : Instant ℝ × ℝ × ℝ := (⟨-21600, 0.25⟩, 0.1, 0.3)

/-- The coordinates of the pole in the evening of the same day. -/
noncomputable def evening : Instant ℝ × ℝ × ℝ := (⟨21600, 0.5⟩, -0.2, 0.4)

/-- The evening comes first, and a table with the morning twice is refused. -/
theorem ofArcseconds_morning_evening :
    (∀ e ∈ [evening, morning], e.1.Made) ∧ [evening, morning] ≠ [] ∧
      ([evening, morning].map Prod.fst).Nodup ∧
      (∃ table, ofArcseconds [evening, morning] = .ok table ∧
        ofArcseconds [morning, evening] = .ok table ∧ table.AnswersFor [evening, morning]) ∧
      ¬([morning, evening, morning].map Prod.fst).Nodup ∧
      ofArcseconds [morning, evening, morning] = .error .unorderedPoleDates := by
  have hmorning : morning.1.Made := Instant.made_of_fraction_mem (by norm_num [morning])
  have hevening : evening.1.Made := Instant.made_of_fraction_mem (by norm_num [evening])
  have hmade : ∀ e ∈ [evening, morning], e.1.Made := by simp [hmorning, hevening]
  have hmade' : ∀ e ∈ [morning, evening, morning], e.1.Made := by simp [hmorning, hevening]
  have hdistinct : ([evening, morning].map Prod.fst).Nodup := by simp [evening, morning]
  have hrepeated : ¬([morning, evening, morning].map Prod.fst).Nodup := by simp
  obtain ⟨table, htable, hanswers⟩ :=
    (ofArcseconds_tabulates hmade).1 (List.cons_ne_nil _ _) hdistinct
  exact ⟨hmade, List.cons_ne_nil _ _, hdistinct,
    ⟨table, htable _ (.refl _), htable _ (.swap _ _ _), hanswers⟩, hrepeated,
    (ofArcseconds_tabulates hmade').2 hrepeated⟩

end PoleTable

end FrameKinematics
