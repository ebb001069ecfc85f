import FrameKinematics.Proofs.Interpolation.Purity
import FrameKinematics.Proofs.Source.RecalledTransforms
import FrameKinematics.Proofs.Transform.Composition

/-!
# Transparency of the sample store

A source that interpolates on a time grid keeps raw transforms in a store. After any requests,
failed ones included, it answers like a new source with the same settings, which has an empty
store. All that matters is that each stored sample is the raw transform at its own grid point;
where grid points lie and how samples are joined does not. The raw source may remember things
itself, as long as its transforms depend on the instant alone while what it remembers is right.
-/

namespace FrameKinematics

variable {K : Type}

/-- Where grid points lie and how the samples there are joined, for any settings. -/
structure Grid.Scheme (K : Type) where
  place : GridSettings K → Int → Except (Fault K) (Instant K)
  join : GridSettings K → Instant K → List (Transform K) → Run K (Transform K)

namespace Grid.Scheme

variable [Scalar K]

/-- Grid points at the multiples of the step, and interpolation of transforms. -/
def standard : Scheme K where
  place settings index := Grid.date settings.step (.whole index)
  join settings t samples := Transform.interpolate t samples settings.cartesian settings.angular

/-- The transform of a source at an instant when interpolation follows a scheme. -/
def ask (scheme : Scheme K) : Source K → Instant K → Run K (Transform K)
  | .interpolating raw settings store, date => Computed.transform <$> do
    Run.computed (← Grid.requestBy (scheme.place settings) (scheme.join settings)
      (Run.store store) settings raw.kindName raw.ask date)
  | source, date => source.ask date

/-- Sources follow the standard scheme. -/
theorem standard_ask : (standard : Scheme K).ask = Source.ask := by
  funext source date
  cases source <;> rfl

/-- A source gives what it would give if all samples were fetched, and the samples that it stores
are fetched ones. It may be the raw source of another one in turn. -/
theorem ask_givesBelow {I : Memory K → Prop} {n store : Nat} (hI : Memory.ConcernsBelow n I)
    (hstore : n ≤ store) {scheme : Scheme K} {raw : Source K} {law : Law K}
    (hraw : ∀ date, Run.GivesBelow n I (raw.ask date) (law date)) {settings : GridSettings K}
    {joined : Instant K → List (Transform K) → Except (Fault K) (Transform K)}
    (hjoin : ∀ t samples,
      Run.GivesBelow n I (scheme.join settings t samples) (joined t samples))
    (strict : Bool) (date : Instant K) :
    Run.GivesBelow (store + 1)
      (Grid.IsSound I store (Grid.fetched (scheme.place settings) strict raw.kindName law) strict)
      (scheme.ask (.interpolating raw settings store) date)
      (Grid.answer settings (Grid.fetched (scheme.place settings) strict raw.kindName law) joined
        date) := by
  rw [ask, map_bind, ← bind_pure (Grid.answer ..)]
  refine (Grid.requestBy_givesBelow hI hstore hraw hjoin _ settings _ date).bind fun t => ?_
  -- A number is given to the transform, which concerns no store.
  have hnumbered : (Computed.transform <$> Run.computed t : Run K _).Computes (.ok t) :=
    fun _ => ⟨rfl, rfl, rfl, rfl⟩
  exact hnumbered.givesBelow (Grid.concernsBelow_isSound hI hstore)

end Grid.Scheme

namespace Source

section Requested

/-- The memories that requests to a source lead to. Before and after each request a program may
do anything that leaves the store of the source as it is, keeps a property and does not change
whether the journal is strict. -/
inductive Requested (I : Memory K → Prop) (ask : Instant K → Run K (Transform K)) (store : Nat)
    (new : Memory K) : Memory K → Prop
  | new : Requested I ask store new new
  | request {memory : Memory K} (date : Instant K) (before : Requested I ask store new memory) :
      Requested I ask store new ((ask date).after memory)
  | other {memory memory' : Memory K} (before : Requested I ask store new memory)
      (kept : I memory') (store_eq : memory'.stores[store]? = memory.stores[store]?)
      (strict_eq : memory'.isJournalStrict = memory.isJournalStrict) :
      Requested I ask store new memory'

variable {I : Memory K → Prop} {ask : Instant K → Run K (Transform K)} {store : Nat}
  {new memory : Memory K}

/-- The requests at some instants, one after the other, lead to such a memory. -/
theorem Requested.of_dates (h : Requested I ask store new memory) (dates : List (Instant K)) :
    Requested I ask store new (dates.foldl (fun memory date => (ask date).after memory) memory) := by
  induction dates generalizing memory with
  | nil => exact h
  | cons date dates ih => exact ih (h.request date)

/-- Requests that keep memory sound lead to sound memories only. -/
theorem Requested.isSound {fetch : Int → Except (Fault K) (Transform K)} {strict : Bool}
    {answer : Instant K → Except (Fault K) (Transform K)} (h : Requested I ask store new memory)
    (hask : ∀ date, Run.Gives (Grid.IsSound I store fetch strict) (ask date) (answer date))
    (hnew : Grid.IsSound I store fetch strict new) :
    Grid.IsSound I store fetch strict memory := by
  induction h with
  | new => exact hnew
  | request date _ ih => exact (hask date _ ih).2
  | other _ kept store_eq strict_eq ih =>
    obtain ⟨-, ⟨s, hs, hholds⟩, hstrict⟩ := ih
    exact ⟨kept, ⟨s, store_eq.trans hs, hholds⟩, strict_eq.trans hstrict⟩

end Requested

variable [Scalar K]

/-- A source with settings that pass their check is created with a new, empty store. -/
theorem newInterpolating_spec (raw : Source K) {settings : GridSettings K}
    (hcheck : settings.check = .ok ()) (memory : Memory K) :
    (newInterpolating raw settings).outcome memory =
        .ok (interpolating raw settings memory.stores.size) ∧
      ((newInterpolating raw settings).after memory).slots = memory.slots ∧
      ((newInterpolating raw settings).after memory).stores = memory.stores.push {} ∧
      ((newInterpolating raw settings).after memory).isJournalStrict = memory.isJournalStrict := by
  rw [newInterpolating, hcheck]
  exact ⟨rfl, rfl, rfl, rfl⟩

/-- A source that interpolates is only created when its settings pass their check. -/
theorem check_of_newInterpolating {raw source : Source K} {settings : GridSettings K}
    {memory : Memory K} (h : (newInterpolating raw settings).outcome memory = .ok source) :
    settings.check = .ok () := by
  cases hcheck : settings.check with
  | ok u => rfl
  | error fault =>
    rw [newInterpolating, hcheck] at h
    cases h

/-- The store of a new source holds nothing that would not be fetched, and concerns no source that
was there before. -/
theorem newInterpolating_isSound {I : Memory K → Prop} {n : Nat} (hI : Memory.ConcernsBelow n I)
    (raw : Source K) {settings : GridSettings K} (hcheck : settings.check = .ok ())
    {memory : Memory K} (hmemory : I memory) (fetch : Int → Except (Fault K) (Transform K)) :
    Grid.IsSound I memory.stores.size fetch memory.isJournalStrict
      ((newInterpolating raw settings).after memory) := by
  obtain ⟨-, hslots, hstores, hstrict⟩ := newInterpolating_spec raw hcheck memory
  refine ⟨hI.congr _ _ hmemory ⟨hslots, fun i hi => ?_, hstrict⟩,
    ⟨{}, ?_, SampleStore.holds_empty⟩, hstrict⟩
  · have hroom := hI.room _ hmemory
    rw [hstores, Array.getElem?_push_lt (by omega), Array.getElem?_eq_getElem]
  · rw [hstores, Array.getElem?_push_size]

/-- A source that interpolates answers a request at an instant as if it were new: if the raw
transforms at all grid points around the instant can be fetched, it joins them in the order of
the grid points, and if not, it fails like the first of them that cannot be fetched. -/
structure AnswersAfresh (ask : Source K → Instant K → Run K (Transform K)) (raw : Source K)
    (settings : GridSettings K) (store : Nat) (fetch : Int → Except (Fault K) (Transform K))
    (joined : Instant K → List (Transform K) → Except (Fault K) (Transform K))
    (memory : Memory K) (date : Instant K) : Prop where
  as_new : (ask (interpolating raw settings store) date).outcome memory =
    (newInterpolating raw settings >>= fun source => ask source date).outcome memory
  of_no_points : ∀ fault, Grid.indices settings date = .error fault →
    (ask (interpolating raw settings store) date).outcome memory = .error fault
  increasing : ∀ points, Grid.indices settings date = .ok points → points.Pairwise (· < ·)
  of_samples : ∀ points samples, Grid.indices settings date = .ok points →
    points.map fetch = samples.map .ok →
    (ask (interpolating raw settings store) date).outcome memory = joined date samples
  of_failure : ∀ points index fault, Grid.indices settings date = .ok points →
    index ∈ points → fetch index = .error fault →
    (∀ i ∈ points, i < index → ∃ t, fetch i = .ok t) →
    (ask (interpolating raw settings store) date).outcome memory = .error fault

/-- It is enough that the source and a new one both give what they would give if all samples were
fetched. -/
theorem answersAfresh_of_eq {ask : Source K → Instant K → Run K (Transform K)} {raw : Source K}
    {settings : GridSettings K} {store : Nat} {fetch : Int → Except (Fault K) (Transform K)}
    {joined : Instant K → List (Transform K) → Except (Fault K) (Transform K)}
    {memory : Memory K} {date : Instant K}
    (hsource : (ask (interpolating raw settings store) date).outcome memory =
      Grid.answer settings fetch joined date)
    (hfresh : (newInterpolating raw settings >>= fun source => ask source date).outcome memory =
      Grid.answer settings fetch joined date) :
    AnswersAfresh ask raw settings store fetch joined memory date where
  as_new := hsource.trans hfresh.symm
  of_no_points fault hpoints := by
    rw [hsource, Grid.answer, hpoints]
    rfl
  increasing points hpoints := Grid.indices_increasing hpoints
  of_samples points samples hpoints hsamples := by
    rw [hsource, Grid.answer_of_points hpoints, Grid.mapM_eq_ok hsamples]
    rfl
  of_failure points index fault hpoints hmem hfails hbefore := by
    have hall := Grid.mapM_eq_error (Grid.indices_increasing hpoints) hmem hfails hbefore
    rw [hsource, Grid.answer_of_points hpoints, hall]
    rfl

section Transparency

variable {I : Memory K → Prop} {n : Nat} (hI : Memory.ConcernsBelow n I) {raw : Source K}
  {law : Law K} (hraw : ∀ date, Run.GivesBelow n I (raw.ask date) (law date))
  {settings : GridSettings K} {start : Memory K} (hstart : I start) {store : Nat}
  (hnew : (newInterpolating raw settings).outcome start = .ok (interpolating raw settings store))

include hI hraw hstart hnew

/-- Under any scheme a source answers afresh after any requests. -/
theorem answersAfresh {scheme : Grid.Scheme K}
    {joined : Instant K → List (Transform K) → Except (Fault K) (Transform K)}
    (hjoin : ∀ t samples,
      Run.GivesBelow n I (scheme.join settings t samples) (joined t samples))
    {memory : Memory K}
    (hrequested : Requested I (scheme.ask (interpolating raw settings store)) store
      ((newInterpolating raw settings).after start) memory) (date : Instant K) :
    AnswersAfresh scheme.ask raw settings store
      (Grid.fetched (scheme.place settings) memory.isJournalStrict raw.kindName law) joined memory
      date := by
  have hcheck := check_of_newInterpolating hnew
  have hgives := fun store (hstore : n ≤ store) strict date =>
    (Grid.Scheme.ask_givesBelow hI hstore hraw hjoin strict date).gives
  obtain rfl : start.stores.size = store := by
    rw [(newInterpolating_spec raw hcheck start).1] at hnew
    cases hnew
    rfl
  have hsound := hrequested.isSound
    (hgives _ (hI.room _ hstart) start.isJournalStrict)
    (newInterpolating_isSound hI raw hcheck hstart _)
  have hmemory := hsound.1
  have hstrict := hsound.2.2
  rw [← hstrict] at hsound
  refine answersAfresh_of_eq (hgives _ (hI.room _ hstart) _ date memory hsound).1 ?_
  rw [Run.outcome_bind, (newInterpolating_spec raw hcheck memory).1]
  exact (hgives _ (hI.room _ hmemory) _ date _
    (newInterpolating_isSound hI raw hcheck hmemory _)).1

/-- Whatever requests were made to a source that interpolates, and whichever of them failed, it
answers the next one like a new source with the same settings. This depends neither on where the
grid points lie nor on how samples are joined, as long as both are computed from the settings,
the instants and the samples. The raw source gives transforms that depend on the instant alone while
memory has a property, which it keeps. That may be the one that every memory has, or say that what
the raw source remembers is right. -/
theorem interpolating_transparent :
    (∀ memory, Requested I (ask (interpolating raw settings store)) store
        ((newInterpolating raw settings).after start) memory →
      ∀ date, AnswersAfresh ask raw settings store
        (Grid.fetched (fun index => Grid.date settings.step (.whole index)) memory.isJournalStrict
          raw.kindName law)
        (fun t samples => Transform.interpolate t samples settings.cartesian settings.angular)
        memory date) ∧
    ∀ (scheme : Grid.Scheme K)
      (joined : Instant K → List (Transform K) → Except (Fault K) (Transform K)),
      (∀ t samples, Run.GivesBelow n I (scheme.join settings t samples) (joined t samples)) →
      ∀ memory, Requested I (scheme.ask (interpolating raw settings store)) store
        ((newInterpolating raw settings).after start) memory →
      ∀ date, AnswersAfresh scheme.ask raw settings store
        (Grid.fetched (scheme.place settings) memory.isJournalStrict raw.kindName law) joined
        memory date := by
  refine ⟨fun memory hrequested date => ?_, fun scheme joined hjoin memory hrequested date =>
    answersAfresh hI hraw hstart hnew hjoin hrequested date⟩
  have hjoin : ∀ t samples, Run.GivesBelow n I (Grid.Scheme.standard.join settings t samples)
      (Transform.interpolate t samples settings.cartesian settings.angular) :=
    fun t samples => (Transform.interpolate_computes t samples _ _).givesBelow hI
  rw [← Grid.Scheme.standard_ask] at hrequested ⊢
  exact answersAfresh hI hraw hstart hnew hjoin hrequested date

end Transparency

section RecalledSamples

/-- Two grid points a minute apart. -/
def coarse : GridSettings ℝ :=
  ⟨.whole 2, .whole 60, .whole 2, .of .withSecond, .of .withSecond⟩

/-- A source that keeps the last transform of a fixed one. -/
noncomputable def recalledTurning : Source ℝ := cached (fixed .turning) 0

/-- What this source gives. -/
noncomputable def turningLaw : Law ℝ :=
  guarded "FixedTransformProvider" fun date =>
    .ok (.dated date Transform.turning.cartesian Transform.turning.angular)

/-- Memory in which what this source keeps is right. -/
def RecallsTurning (memory : Memory ℝ) : Prop := True ∧ memory.Recalls 0 turningLaw

/-- Memory in which this source is new. -/
noncomputable def beforeTurning : Memory ℝ := (newCached (fixed .turning)).after {}

/-- A source that interpolates between its transforms. -/
noncomputable def interpolatedTurning : Source ℝ := interpolating recalledTurning coarse 0

/-- Memory after two requests to this source, which share a grid point. -/
noncomputable def requestedTwice : Memory ℝ :=
  [.j2000, ⟨90, 0⟩].foldl (fun memory date => (interpolatedTurning.ask date).after memory)
    ((newInterpolating recalledTurning coarse).after beforeTurning)

/-- A source that interpolates between recalled transforms answers afresh after two requests. -/
theorem interpolatedTurning_transparent :
    Memory.ConcernsBelow 0 RecallsTurning ∧
      (∀ date, Run.GivesBelow 0 RecallsTurning (recalledTurning.ask date) (turningLaw date)) ∧
      RecallsTurning beforeTurning ∧
      (newInterpolating recalledTurning coarse).outcome beforeTurning = .ok interpolatedTurning ∧
      AnswersAfresh ask recalledTurning coarse 0
        (Grid.fetched (fun index => Grid.date (.whole 60) (.whole index))
          requestedTwice.isJournalStrict "CachedTransformProvider" turningLaw)
        (fun t samples => Transform.interpolate t samples coarse.cartesian coarse.angular)
        requestedTwice ⟨30, 0⟩ := by
  have hfixed : ∀ date, Run.GivesBelow 0 (fun _ => True) ((fixed Transform.turning).ask date)
      (.ok (.dated date Transform.turning.cartesian Transform.turning.angular)) :=
    fun date => (fixed_follows _ date).givesBelow Memory.concernsBelow_true
  have hslot : ∀ date, ((fixed Transform.turning).ask date).Leaves (·.slots[0]?) := fun _ _ => rfl
  have hI : Memory.ConcernsBelow 0 RecallsTurning := Memory.concernsBelow_true.recalls
  have hraw : ∀ date, Run.GivesBelow 0 RecallsTurning (recalledTurning.ask date)
      (turningLaw date) :=
    cached_givesBelow Memory.concernsBelow_true (fun _ _ _ => trivial) hfixed hslot
      (Law.respects_real _)
  have hstart : RecallsTurning beforeTurning := ⟨trivial, {}, rfl, Slot.holds_empty⟩
  have hnew : (newInterpolating recalledTurning coarse).outcome beforeTurning =
      .ok interpolatedTurning := rfl
  have hrequested : Requested RecallsTurning interpolatedTurning.ask 0
      ((newInterpolating recalledTurning coarse).after beforeTurning) requestedTwice :=
    Requested.new.of_dates _
  exact ⟨hI, hraw, hstart, hnew,
    (interpolating_transparent hI hraw hstart hnew).1 _ hrequested ⟨30, 0⟩⟩

end RecalledSamples

end Source

end FrameKinematics
