import FrameKinematics.Proofs.Source.Runs
import FrameKinematics.Scalar.Binary64
import FrameKinematics.Source.Guard

/-!
# How failures of raw sources surface

A guarded request gives what the raw source gives. If that is a failure which does not say yet
that a source failed, the request reports it with the name of the source and the label of the
instant. An instant outside the calendar has no label, and then the request fails with that
instead: the failure of the raw source is lost.
-/

namespace FrameKinematics

variable {K α β : Type}

/-- One memory is another one in which something else is noted in the journal, and no more. -/
def Memory.Noted (memory memory' : Memory K) : Prop :=
  ∃ events, memory' = { memory with events := events }

/-- A note leaves the sample stores as they are. -/
theorem Memory.Noted.stores_eq {memory memory' : Memory K} (h : memory.Noted memory') :
    memory'.stores = memory.stores := by
  obtain ⟨_, rfl⟩ := h
  rfl

/-- A note leaves the slots as they are. -/
theorem Memory.Noted.slots_eq {memory memory' : Memory K} (h : memory.Noted memory') :
    memory'.slots = memory.slots := by
  obtain ⟨_, rfl⟩ := h
  rfl

/-- A note leaves the counts of calls as they are. -/
theorem Memory.Noted.calls_eq {memory memory' : Memory K} (h : memory.Noted memory') :
    memory'.calls = memory.calls := by
  obtain ⟨_, rfl⟩ := h
  rfl

/-- Whether a fault says that a scalar, a whole number or an instant is beyond what can be
represented. -/
def Fault.isBeyondRange : Fault K → Bool
  | .notANumber => true
  | .infinite => true
  | .tooLarge => true
  | .outsideCalendar => true
  | _ => false

/-- A computation that fails only where something is beyond what can be represented. -/
def FailsBeyondRange (r : Except (Fault K) α) : Prop :=
  ∀ fault, r = .error fault → fault.isBeyondRange = true

/-- A value that is returned does not fail at all. -/
theorem failsBeyondRange_pure (a : α) : FailsBeyondRange (pure a : Except (Fault K) α) := by
  intro fault h
  cases h

/-- What fails beyond the range only in its parts fails so as a whole. -/
theorem FailsBeyondRange.bind {r : Except (Fault K) α} {f : α → Except (Fault K) β}
    (hr : FailsBeyondRange r) (hf : ∀ a, FailsBeyondRange (f a)) : FailsBeyondRange (r >>= f) := by
  intro fault h
  cases r with
  | ok a => exact hf a fault h
  | error first =>
    obtain rfl : first = fault := Except.error.inj h
    exact hr first rfl

/-- A whole part is missing only where the scalar has none. -/
theorem failsBeyondRange_mapError (r : Except Unbounded α) :
    FailsBeyondRange (r.mapError (Fault.ofUnbounded (K := K))) := by
  intro fault h
  cases r with
  | ok a => cases h
  | error unbounded =>
    obtain rfl := Except.error.inj h
    cases unbounded <;> rfl

/-- A label that is shifted fails only beyond the range. -/
theorem failsBeyondRange_later (label : Label) (micros : Int) :
    FailsBeyondRange (label.later micros : Except (Fault K) Label) := by
  intro fault h
  rw [Label.later] at h
  split at h
  · cases h
  · obtain rfl := Except.error.inj h
    rfl

variable [Scalar K]

/-- Whole numbers that become scalars fail only beyond the range. -/
theorem failsBeyondRange_ofInt (n : Int) :
    FailsBeyondRange (Scalar.ofInt n : Except (Fault K) K) := by
  intro fault h
  rw [Scalar.ofInt] at h
  split at h
  · cases h
  · obtain rfl := Except.error.inj h
    rfl

/-- Splitting a duration fails only beyond the range. -/
theorem failsBeyondRange_split (duration : K) : FailsBeyondRange (Instant.split duration) := by
  refine (failsBeyondRange_mapError _).bind fun whole => ?_
  refine (failsBeyondRange_ofInt whole).bind fun x => ?_
  dsimp only
  split <;> exact failsBeyondRange_pure _

/-- Counting a duration in microseconds fails only beyond the range. -/
theorem failsBeyondRange_microseconds (duration : K) :
    FailsBeyondRange (Scalar.microseconds duration) := by
  refine (failsBeyondRange_mapError _).bind fun whole => ?_
  refine (failsBeyondRange_ofInt whole).bind fun x => ?_
  refine FailsBeyondRange.bind ?_ fun micros => failsBeyondRange_pure _
  refine (failsBeyondRange_mapError _).bind fun whole => ?_
  refine (failsBeyondRange_ofInt whole).bind fun x => ?_
  dsimp only
  split
  · exact failsBeyondRange_pure _
  · split <;> exact failsBeyondRange_pure _

/-- An instant that cannot be printed is beyond the calendar, or beyond the scalars. -/
theorem failsBeyondRange_text (date : Instant K) : FailsBeyondRange date.text := by
  refine FailsBeyondRange.bind ?_ fun label => failsBeyondRange_pure _
  refine (failsBeyondRange_pure _).bind fun behind => ?_
  refine (failsBeyondRange_split behind).bind fun parts => ?_
  refine (failsBeyondRange_later _ _).bind fun label => ?_
  refine (failsBeyondRange_microseconds _).bind fun micros => ?_
  exact failsBeyondRange_later label micros

/-- What a request fails with when a raw source fails at an instant: a failure that says already
that a source failed is left as it is; another one is reported with the source and the label of
the instant, if it has one; and if it has none, that is the failure. -/
def Fault.surfaced (source : String) (date : Instant K) (fault : Fault K) : Fault K :=
  if fault.isSourceFailure then fault
  else
    match date.text with
    | .ok label => .sourceFailed source date label fault
    | .error unprintable => unprintable

/-- A failure that says already that a source failed surfaces as it is. -/
theorem Fault.surfaced_of_isSourceFailure {fault : Fault K} (h : fault.isSourceFailure = true)
    (source : String) (date : Instant K) : fault.surfaced source date = fault := by
  rw [surfaced, if_pos h]

/-- Another failure surfaces as the cause of a failure of the source, where the instant has a
label. -/
theorem Fault.surfaced_of_text {fault : Fault K} (h : fault.isSourceFailure = false)
    (source : String) {date : Instant K} {label : String} (hlabel : date.text = .ok label) :
    fault.surfaced source date = .sourceFailed source date label fault := by
  rw [surfaced, if_neg (by simp [h]), hlabel]

/-- Where the instant has no label, the failure to print it surfaces. -/
theorem Fault.surfaced_of_no_text {fault unprintable : Fault K}
    (h : fault.isSourceFailure = false) (source : String) {date : Instant K}
    (hlabel : date.text = .error unprintable) : fault.surfaced source date = unprintable := by
  rw [surfaced, if_neg (by simp [h]), hlabel]

/-- The ways in which a raw failure at an instant surfaces. -/
inductive Fault.Surfacing (source : String) (date : Instant K) (fault : Fault K) : Fault K → Prop
  /-- It says already that a source failed. -/
  | unchanged (hfault : fault.isSourceFailure = true) : Surfacing source date fault fault
  /-- It is the cause of a failure of the source. -/
  | reported {label : String} (hfault : fault.isSourceFailure = false)
      (hlabel : date.text = .ok label) :
      Surfacing source date fault (.sourceFailed source date label fault)
  /-- It is lost, because the instant cannot be printed. -/
  | lost {unprintable : Fault K} (hfault : fault.isSourceFailure = false)
      (hlabel : date.text = .error unprintable) (hbeyond : unprintable.isBeyondRange = true) :
      Surfacing source date fault unprintable

/-- A surfaced failure surfaces the failure. -/
theorem Fault.surfaced_surfacing (fault : Fault K) (source : String) (date : Instant K) :
    fault.Surfacing source date (fault.surfaced source date) := by
  by_cases hfault : fault.isSourceFailure = true
  · rw [surfaced_of_isSourceFailure hfault]
    exact .unchanged hfault
  · rw [Bool.not_eq_true] at hfault
    cases hlabel : date.text with
    | ok label =>
      rw [surfaced_of_text hfault source hlabel]
      exact .reported hfault hlabel
    | error unprintable =>
      rw [surfaced_of_no_text hfault source hlabel]
      exact .lost hfault hlabel (failsBeyondRange_text date unprintable hlabel)

section Effects

/-- A guarded request gives what the raw source gives, and a raw failure surfaces. -/
theorem outcome_guarded (source : String) (raw : Instant K → Run K α) (date : Instant K)
    (memory : Memory K) : (guarded source raw date).outcome memory =
      ((raw date).outcome memory).mapError (Fault.surfaced source date) := by
  rw [guarded, Run.outcome_tryCatch]
  cases (raw date).outcome memory with
  | ok value => rfl
  | error fault =>
    change _ = Except.error (fault.surfaced source date)
    by_cases hfault : fault.isSourceFailure = true
    · simp [Fault.surfaced_of_isSourceFailure hfault, hfault]
    · rw [Bool.not_eq_true] at hfault
      cases hlabel : date.text with
      | ok label =>
        simp [Fault.surfaced_of_text hfault source hlabel, hfault]
        rfl
      | error unprintable =>
        simp [Fault.surfaced_of_no_text hfault source hlabel, hfault]
        rfl

/-- Besides what the raw source does, a guarded request writes to the journal at most. -/
theorem after_guarded (source : String) (raw : Instant K → Run K α) (date : Instant K)
    (memory : Memory K) :
    ((raw date).after memory).Noted ((guarded source raw date).after memory) := by
  rw [guarded, Run.after_tryCatch]
  cases (raw date).outcome memory with
  | ok value => exact ⟨_, rfl⟩
  | error fault =>
    by_cases hfault : fault.isSourceFailure = true
    · simp only [hfault, if_true]
      exact ⟨_, rfl⟩
    · simp only [hfault]
      cases date.text with
      | ok label => exact ⟨_, rfl⟩
      | error unprintable => exact ⟨_, rfl⟩

end Effects

/-- An instant beyond the calendar, which has no label. -/
def afterCalendar : Instant Float := ⟨1000000000000, 0.0⟩

end FrameKinematics
