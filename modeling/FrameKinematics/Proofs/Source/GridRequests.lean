import FrameKinematics.Proofs.Source.Footprints
import FrameKinematics.Proofs.Source.SampleStore
import FrameKinematics.Source

/-!
# Requests on a time grid

A request finds some of its samples in the store and fetches the others. While the store holds
for each index what would be fetched for it, the request gives the transform that it would give
if all samples were fetched, and it keeps the store so, also when it fails on the way. The source
that fetches may use stores as well, with lower numbers.
-/

namespace FrameKinematics.Grid

variable {K α : Type} {I : Memory K → Prop} {n store : Nat}
  {fetch : Int → Except (Fault K) (Transform K)} {strict : Bool}

/-- Memory has a property, the store under a number is there and holds samples that were fetched,
and the journal is strict or not. -/
def IsSound (I : Memory K → Prop) (store : Nat) (fetch : Int → Except (Fault K) (Transform K))
    (strict : Bool) (memory : Memory K) : Prop :=
  I memory ∧ (∃ s, memory.stores[store]? = some s ∧ s.Holds fetch) ∧
    memory.isJournalStrict = strict

/-- What uses stores with lower numbers leaves memory sound. -/
theorem gives_of_givesBelow {x : Run K α} {r : Except (Fault K) α} (hstore : n ≤ store)
    (hx : Run.GivesBelow n I x r) : Run.Gives (IsSound I store fetch strict) x r := by
  rintro memory ⟨hmemory, ⟨s, hs, hholds⟩, hstrict⟩
  obtain ⟨hresult, hkept⟩ := hx.gives memory hmemory
  exact ⟨hresult, hkept, ⟨s, (hx.leaves_store store hstore memory).trans hs, hholds⟩,
    (hx.leaves_strict memory).trans hstrict⟩

/-- Putting sound samples into a store leaves memory sound. -/
theorem gives_set (hI : Memory.ConcernsBelow n I) (hstore : n ≤ store)
    {s : SampleStore (Transform K)} (hs : s.Holds fetch) :
    Run.Gives (IsSound I store fetch strict) ((Run.store store).set s) (.ok ()) := by
  rintro memory ⟨hmemory, ⟨old, hold, -⟩, hstrict⟩
  refine ⟨rfl, hI.congr _ _ hmemory ⟨rfl, fun i hi => ?_, rfl⟩, ⟨s, ?_, hs⟩, hstrict⟩
  · exact Array.getElem?_setIfInBounds_ne (by omega)
  · obtain ⟨hbound, -⟩ := Array.getElem?_eq_some_iff.mp hold
    exact Array.getElem?_setIfInBounds_self_of_lt hbound

/-- What a run does with a store matters for sound stores only. -/
theorem gives_get_bind {f : SampleStore (Transform K) → Run K α} {r : Except (Fault K) α}
    (hf : ∀ s, s.Holds fetch → Run.Gives (IsSound I store fetch strict) (f s) r) :
    Run.Gives (IsSound I store fetch strict) ((Run.store store).get >>= f) r := by
  intro memory hmemory
  obtain ⟨s, hs, hholds⟩ := hmemory.2.1
  have hget : memory.stores.getD store {} = s := by
    rw [Array.getD_eq_getD_getElem?, hs]
    rfl
  exact hf (memory.stores.getD store {}) (hget ▸ hholds) memory hmemory

/-- Samples that can all be fetched are fetched together. -/
theorem mapM_eq_ok {ε α β : Type} {f : α → Except ε β} {as : List α} {bs : List β}
    (h : as.map f = bs.map .ok) : as.mapM f = .ok bs := by
  induction as generalizing bs with
  | nil =>
    obtain rfl : bs = [] := by simpa using h.symm
    rfl
  | cons a as ih =>
    cases bs with
    | nil => simp at h
    | cons b bs =>
      obtain ⟨hfirst, hrest⟩ := List.cons.inj h
      rw [List.mapM_cons, hfirst, ih hrest]
      rfl

/-- Of the samples that cannot be fetched the one with the least index decides the failure. -/
theorem mapM_eq_error {ε β : Type} {f : Int → Except ε β} {points : List Int}
    (hincreasing : points.Pairwise (· < ·)) {index : Int} {fault : ε} (hmem : index ∈ points)
    (hfails : f index = .error fault) (hbefore : ∀ i ∈ points, i < index → ∃ b, f i = .ok b) :
    points.mapM f = .error fault := by
  induction points with
  | nil => cases hmem
  | cons first points ih =>
    obtain ⟨hfirst, hincreasing⟩ := List.pairwise_cons.mp hincreasing
    rw [List.mapM_cons]
    rcases List.mem_cons.mp hmem with rfl | hmem
    · rw [hfails]
      rfl
    · obtain ⟨b, hb⟩ := hbefore first List.mem_cons_self (hfirst index hmem)
      have hrest := ih hincreasing hmem fun i hi => hbefore i (List.mem_cons_of_mem _ hi)
      rw [hb, hrest]
      rfl

/-- That memory is sound concerns the store and what the property concerns. -/
theorem concernsBelow_isSound (hI : Memory.ConcernsBelow n I) (hstore : n ≤ store) :
    Memory.ConcernsBelow (store + 1) (IsSound I store fetch strict) where
  room memory hmemory := by
    obtain ⟨-, ⟨s, hs, -⟩, -⟩ := hmemory
    exact (Array.getElem?_eq_some_iff.mp hs).1
  congr memory memory' hmemory hagrees := by
    obtain ⟨hmemory, ⟨s, hs, hholds⟩, hstrict⟩ := hmemory
    have hbelow : memory.AgreesBelow n memory' :=
      ⟨hagrees.slots_eq, fun i hi => hagrees.stores_eq i (by omega), hagrees.strict_eq⟩
    exact ⟨hI.congr _ _ hmemory hbelow,
      ⟨s, (hagrees.stores_eq store (by omega)).trans hs, hholds⟩, hagrees.strict_eq.trans hstrict⟩

variable [Scalar K]

section Left

variable {σ : Type} {part : Memory K → σ}
  (hset : ∀ s, ((Run.store store).set s : Run K Unit).Leaves part)
  (hnote : ∀ event, (Journal.note event : Run K Unit).Leaves part)

include hnote

/-- Reporting a request for a raw transform changes the journal at most. -/
theorem leaves_announce (index : Int) (t : Instant K) :
    (announce index t : Run K Unit).Leaves part := by
  rw [announce]
  cases t.text with
  | ok label => exact hnote _
  | error fault =>
    refine Run.Leaves.bind (fun _ => rfl) fun strict => ?_
    cases strict <;> exact fun _ => rfl

/-- A guarded request leaves what the request leaves, but for the journal. -/
theorem leaves_guarded {request : Instant K → Run K α} (hrequest : ∀ date, (request date).Leaves part)
    (source : String) (t : Instant K) : (guarded source request t).Leaves part := by
  refine (hrequest t).tryCatch fun fault => ?_
  split
  · exact fun _ => rfl
  · refine (Run.leaves_ofExcept _).bind fun label => ?_
    exact (hnote _).bind fun _ _ => rfl

variable {raw : Instant K → Run K (Transform K)} (hraw : ∀ date, (raw date).Leaves part)

include hset hraw

/-- A sample leaves what the raw source leaves, but for the store and the journal. -/
theorem leaves_sample (capacity : Quantity K) (place : Int → Except (Fault K) (Instant K))
    (source : String) (index : Int) :
    (sample (Run.store store) capacity place source raw index).Leaves part := by
  refine Run.Leaves.bind (fun _ => rfl) fun s => ?_
  cases s.find? index with
  | some value => exact (hset _).bind fun _ _ => rfl
  | none =>
    refine (Run.leaves_ofExcept _).bind fun t => ?_
    refine (leaves_announce hnote index t).bind fun _ => ?_
    refine (leaves_guarded hnote hraw source t).bind fun value => ?_
    refine Run.Leaves.bind (fun _ => rfl) fun s => ?_
    exact (hset _).bind fun _ _ => rfl

/-- A request leaves what the raw source and the joining of samples leave, but for the store and the
journal. -/
theorem leaves_requestBy {join : Instant K → List (Transform K) → Run K (Transform K)}
    (hjoin : ∀ date samples, (join date samples).Leaves part)
    (place : Int → Except (Fault K) (Instant K)) (settings : GridSettings K) (source : String)
    (t : Instant K) :
    (requestBy place join (Run.store store) settings source raw t).Leaves part := by
  refine (Run.leaves_ofExcept _).bind fun points => ?_
  refine (Run.Leaves.mapM (leaves_sample hset hnote hraw settings.capacity place source) points).bind
    fun samples => ?_
  exact hjoin t samples

end Left

/-- What reporting a request for a raw transform can fail with: where the journal is strict, the
instant needs to have a label. -/
def announced (strict : Bool) (date : Instant K) : Except (Fault K) Unit :=
  if strict then (date.text >>= fun _ => .ok ()) else .ok ()

/-- What fetching the sample at a grid point gives. A failure of the raw source is reported as one
of a source. -/
def fetched (place : Int → Except (Fault K) (Instant K)) (strict : Bool) (source : String)
    (law : Law K) (index : Int) : Except (Fault K) (Transform K) := do
  let t ← place index
  announced strict t
  guarded source law t

/-- The transform at an instant when all samples are fetched. -/
def answer (settings : GridSettings K) (fetch : Int → Except (Fault K) (Transform K))
    (joined : Instant K → List (Transform K) → Except (Fault K) (Transform K)) (t : Instant K) :
    Except (Fault K) (Transform K) := do
  let points ← indices settings t
  let samples ← points.mapM fetch
  joined t samples

/-- With its grid points, the answer at an instant fetches and joins their samples. -/
theorem answer_of_points {settings : GridSettings K} {t : Instant K} {points : List Int}
    (hpoints : indices settings t = .ok points) (fetch : Int → Except (Fault K) (Transform K))
    (joined : Instant K → List (Transform K) → Except (Fault K) (Transform K)) :
    answer settings fetch joined t = points.mapM fetch >>= joined t := by
  rw [answer, hpoints]
  rfl

/-- The grid points around an instant come in increasing order. -/
theorem indices_increasing {settings : GridSettings K} {t : Instant K} {points : List Int}
    (hpoints : indices settings t = .ok points) : points.Pairwise (· < ·) := by
  obtain ⟨elapsed, -, hpoints⟩ := exists_of_bind_eq_ok hpoints
  obtain ⟨step, -, hpoints⟩ := exists_of_bind_eq_ok hpoints
  obtain ⟨last, -, hpoints⟩ := exists_of_bind_eq_ok hpoints
  cases hcount : settings.points.whole? with
  | none => simp only [hcount] at hpoints; cases hpoints
  | some count =>
    simp only [hcount] at hpoints
    obtain rfl := Except.ok.inj hpoints
    rw [List.pairwise_map]
    exact List.pairwise_lt_range.imp fun h => by omega

section Sound

variable (hI : Memory.ConcernsBelow n I)

include hI

/-- The failure of a guarded request says that a source failed, in the journal as well. -/
theorem guarded_givesBelow {raw : Instant K → Run K (Transform K)} {law : Law K}
    (hraw : ∀ date, Run.GivesBelow n I (raw date) (law date)) (source : String) (t : Instant K) :
    Run.GivesBelow n I (guarded source raw t) (guarded source law t) := by
  refine (hraw t).tryCatch fun fault => Run.Computes.givesBelow hI ?_
  split
  · exact Run.computes_throw fault
  · refine (Run.computes_ofExcept _).bind fun label => ?_
    refine (Run.computes_note _).bind fun _ => ?_
    exact Run.computes_throw _

variable (hstore : n ≤ store)

include hstore

/-- Reporting a request for a raw transform notes it, or fails where a strict journal cannot. -/
theorem announce_gives (index : Int) (t : Instant K) :
    Run.Gives (IsSound I store fetch strict) (announce index t) (announced strict t) := by
  intro memory hmemory
  rw [announce, announced]
  cases t.text with
  | ok label =>
    have hnote := (Run.computes_note (.gridPointFetched index label)).givesBelow hI
    obtain ⟨hresult, hkept⟩ := gives_of_givesBelow hstore hnote memory hmemory
    exact ⟨hresult.trans (ite_self _).symm, hkept⟩
  | error fault =>
    -- The report fails exactly when the journal is strict, and notes nothing.
    obtain ⟨hmemory, hholds, rfl⟩ := hmemory
    rw [Run.outcome_bind_of_ok (Run.outcome_isStrict memory),
      Run.after_bind_of_ok (Run.outcome_isStrict memory), Run.after_isStrict]
    cases hstrict : memory.isJournalStrict with
    | true => exact ⟨rfl, hmemory, hholds, hstrict⟩
    | false => exact ⟨rfl, hmemory, hholds, hstrict⟩

/-- The sample at a grid point is the one that would be fetched. A sample that is found counts as
used; another one is put into the store, and others may be dropped; a failure leaves the store
as it was. -/
theorem sample_gives {raw : Instant K → Run K (Transform K)} {law : Law K}
    (hraw : ∀ date, Run.GivesBelow n I (raw date) (law date))
    (place : Int → Except (Fault K) (Instant K)) (capacity : Quantity K) (source : String)
    (index : Int) :
    Run.Gives (IsSound I store (fetched place strict source law) strict)
      (sample (Run.store store) capacity place source raw index)
      (fetched place strict source law index) := by
  refine gives_get_bind fun s hs => ?_
  cases hfind : s.find? index with
  | some value =>
    have hfetched := hs.of_find? hfind
    rw [hfetched]
    exact (gives_set hI hstore (hs.put hfetched)).bind fun _ _ => Run.gives_pure value
  | none =>
    refine (Run.gives_ofExcept _).bind fun t hplace => ?_
    refine (announce_gives hI hstore index t).bind fun _ hannounced => ?_
    have hguarded := guarded_givesBelow hI hraw source t
    rw [← bind_pure (guarded source law t)]
    refine (gives_of_givesBelow hstore hguarded).bind fun value hvalue => ?_
    have hfetched : fetched place strict source law index = .ok value := by
      rw [fetched, hplace]
      change (announced strict t >>= fun _ => guarded source law t) = .ok value
      rw [hannounced]
      exact hvalue
    refine gives_get_bind fun s hs => ?_
    exact (gives_set hI hstore ((hs.put hfetched).trim capacity)).bind fun _ _ =>
      Run.gives_pure value

/-- A request gives the transform that it would give if all samples were fetched. It uses one store
more than the raw source. -/
theorem requestBy_givesBelow {raw : Instant K → Run K (Transform K)} {law : Law K}
    (hraw : ∀ date, Run.GivesBelow n I (raw date) (law date))
    {join : Instant K → List (Transform K) → Run K (Transform K)}
    {joined : Instant K → List (Transform K) → Except (Fault K) (Transform K)}
    (hjoin : ∀ date samples, Run.GivesBelow n I (join date samples) (joined date samples))
    (place : Int → Except (Fault K) (Instant K)) (settings : GridSettings K) (source : String)
    (t : Instant K) :
    Run.GivesBelow (store + 1) (IsSound I store (fetched place strict source law) strict)
      (requestBy place join (Run.store store) settings source raw t)
      (answer settings (fetched place strict source law) joined t) where
  gives := by
    refine (Run.gives_ofExcept _).bind fun points _ => ?_
    refine (Run.Gives.mapM (sample_gives hI hstore hraw place settings.capacity source)
      points).bind fun samples _ => ?_
    exact gives_of_givesBelow hstore (hjoin t samples)
  leaves_store i hi :=
    leaves_requestBy (fun _ _ => Array.getElem?_setIfInBounds_ne (by omega)) (fun _ _ => rfl)
      (fun date => (hraw date).leaves_store i (by omega))
      (fun date samples => (hjoin date samples).leaves_store i (by omega)) place settings source t
  leaves_strict :=
    leaves_requestBy (fun _ _ => rfl) (fun _ _ => rfl) (fun date => (hraw date).leaves_strict)
      (fun date samples => (hjoin date samples).leaves_strict) place settings source t

end Sound

end FrameKinematics.Grid
