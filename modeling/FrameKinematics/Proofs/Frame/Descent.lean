import FrameKinematics.Frame

/-!
# Descents

A descent asks the sources of the frames below an ancestor, from the top down to a frame, and
composes their transforms. The transform between two frames takes two descents from their common
ancestor. To see which sources are asked, each call is noted together with its answer. Nothing is
assumed of the sources: they may use a state of any kind, share it, and fail.
-/

namespace FrameKinematics

variable {S K σ α β : Type}

/-- Computations over a state of any kind that may fail. -/
abbrev Stateful (K σ : Type) := ExceptT (Fault K) (StateM σ)

namespace Stateful

variable {x : Stateful K σ α} {f : α → Stateful K σ β} {s s' : σ}

/-- After a first part that succeeds, a computation goes on in the state that this part left. -/
theorem run_bind_of_ok {a : α} (hx : x.run.run s = (.ok a, s')) :
    (x >>= f).run.run s = (f a).run.run s' := by
  rw [ExceptT.run_bind, StateT.run_bind, hx]
  rfl

/-- A computation whose first part fails ends there. -/
theorem run_bind_of_error {fault : Fault K} (hx : x.run.run s = (.error fault, s')) :
    (x >>= f).run.run s = (.error fault, s') := by
  rw [ExceptT.run_bind, StateT.run_bind, hx]
  rfl

/-- An outcome that is known changes no state. -/
theorem run_ofExcept (r : Except (Fault K) α) (s : σ) :
    (ofExcept r : Stateful K σ α).run.run s = (r, s) := by
  cases r <;> rfl

end Stateful

/-- A call of a source: the instant that it was asked for, and its answer. -/
structure Call (S K : Type) where
  source : S
  date : Instant K
  answer : Except (Fault K) (Transform K)

/-- What is asked in a call. -/
def Call.question (call : Call S K) : S × Instant K := (call.source, call.date)

/-- Asks a source and notes the call after the calls before it. -/
def noted (query : S → Instant K → Stateful K σ (Transform K)) (source : S) (date : Instant K) :
    Stateful K (σ × List (Call S K)) (Transform K) :=
  ExceptT.mk fun (s, calls) =>
    let (answer, s') := (query source date).run.run s
    (answer, s', calls ++ [⟨source, date, answer⟩])

/-- A call is noted after the calls before it, with its answer. -/
theorem run_noted {query : S → Instant K → Stateful K σ (Transform K)} {source : S}
    {date : Instant K} {s s' : σ} {answer : Except (Fault K) (Transform K)}
    (hquery : (query source date).run.run s = (answer, s')) (calls : List (Call S K)) :
    (noted query source date).run.run (s, calls) =
      (answer, s', calls ++ [⟨source, date, answer⟩]) := by
  change (let (answer, s') := (query source date).run.run s
    (answer, s', calls ++ [Call.mk source date answer])) = _
  rw [hquery]

/-- A computation that notes calls does the same as one that does not. -/
def Notes (x : Stateful K (σ × List (Call S K)) α) (y : Stateful K σ α) : Prop :=
  ∀ s calls, ∃ calls', x.run.run (s, calls) = ((y.run.run s).1, (y.run.run s).2, calls')

/-- Noting a call does what the call does. -/
theorem notes_noted (query : S → Instant K → Stateful K σ (Transform K)) (source : S)
    (date : Instant K) : Notes (noted query source date) (query source date) :=
  fun _ calls => ⟨_, run_noted rfl calls⟩

/-- An outcome that is known notes no calls. -/
theorem notes_ofExcept (r : Except (Fault K) α) :
    Notes (ofExcept r : Stateful K (σ × List (Call S K)) α) (ofExcept r) := by
  intro s calls
  rw [Stateful.run_ofExcept, Stateful.run_ofExcept]
  exact ⟨calls, rfl⟩

/-- Noting calls in both parts of a computation notes calls in the whole. -/
theorem Notes.bind {x : Stateful K (σ × List (Call S K)) α} {y : Stateful K σ α}
    {f : α → Stateful K (σ × List (Call S K)) β} {g : α → Stateful K σ β} (hx : Notes x y)
    (hf : ∀ a, Notes (f a) (g a)) : Notes (x >>= f) (y >>= g) := by
  intro s calls
  obtain ⟨calls', hrun⟩ := hx s calls
  obtain ⟨result, s', hy⟩ : ∃ result s', y.run.run s = (result, s') := ⟨_, _, rfl⟩
  rw [hy] at hrun
  cases result with
  | error fault =>
    rw [Stateful.run_bind_of_error hrun, Stateful.run_bind_of_error hy]
    exact ⟨calls', rfl⟩
  | ok a =>
    rw [Stateful.run_bind_of_ok hrun, Stateful.run_bind_of_ok hy]
    exact hf a s' calls'

/-- Noting calls in each step over a list notes calls in the whole. -/
theorem Notes.foldlM {f : β → α → Stateful K (σ × List (Call S K)) β}
    {g : β → α → Stateful K σ β} (hf : ∀ b a, Notes (f b a) (g b a)) (as : List α) (b : β) :
    Notes (as.foldlM f b) (as.foldlM g b) := by
  induction as generalizing b with
  | nil => exact fun _ calls => ⟨calls, rfl⟩
  | cons a as ih =>
    rw [List.foldlM_cons, List.foldlM_cons]
    exact (hf b a).bind ih

/-- Angular motions can be composed unless the product of their quaternions is zero. -/
theorem AngularMotion.compose_cases [Scalar K] (first second : AngularMotion K) :
    (∃ a, first.compose second = .ok a) ∨
      first.compose second = .error .zeroQuaternion ∧
        (second.rotation.quaternion.mul first.rotation.quaternion).isZero = true := by
  rw [compose, Rotation.compose, Rotation.normalized]
  by_cases hzero : (second.rotation.quaternion.mul first.rotation.quaternion).isZero = true
  · rw [if_pos hzero]
    exact .inr ⟨rfl, hzero⟩
  · rw [if_neg hzero]
    exact .inl ⟨_, rfl⟩

/-- A composition is stamped with its instant and is not the neutral transform itself, whatever is
composed. It fails only if the product of the two quaternions is zero. -/
theorem Transform.compose_cases [Scalar K] (date : Instant K) (first second : Transform K) :
    (∃ t, compose date first second = .ok t ∧ t.date = date ∧ t.isNeutral = false) ∨
      compose date first second = .error .zeroQuaternion ∧
        (second.angular.rotation.quaternion.mul
          first.angular.rotation.quaternion).isZero = true := by
  match first, second with
  | neutral, _ => exact .inl ⟨_, rfl, rfl, rfl⟩
  | dated .., neutral => exact .inl ⟨_, rfl, rfl, rfl⟩
  | dated _ c₁ a₁, dated _ c₂ a₂ =>
    rw [compose]
    rcases AngularMotion.compose_cases a₁ a₂ with ⟨a, ha⟩ | ⟨hfails, hzero⟩
    · rw [ha]
      exact .inl ⟨_, rfl, rfl, rfl⟩
    · rw [hfails]
      exact .inr ⟨rfl, hzero⟩

/-- The only failure of a composition is a quaternion product of zero. -/
theorem Transform.eq_zeroQuaternion_of_compose [Scalar K] {date : Instant K}
    {first second : Transform K} {fault : Fault K}
    (h : compose date first second = .error fault) : fault = .zeroQuaternion := by
  rcases compose_cases date first second with ⟨t, ht, -⟩ | ⟨hzero, -⟩
  · rw [ht] at h
    cases h
  · exact Except.error.inj (h.symm.trans hzero)

namespace Frame

/-- The frames strictly below an ancestor, from the top down to a frame. -/
def framesBelow (ancestor f : Frame S) : List (Frame S) :=
  (f.path.takeWhile fun h => !h.is ancestor).reverse

/-- Each frame below an ancestor has a source, and these are the sources below the ancestor. -/
theorem map_source?_framesBelow {a f : Frame S} (ha : a ∈ f.path) :
    (framesBelow a f).map source? = (sourcesBelow a f).map some := by
  induction f with
  | root tag name inertial =>
    obtain rfl : a = root tag name inertial := by simpa [path] using ha
    simp [framesBelow, path, is, sourcesBelow]
  | child tag name inertial parent source ih =>
    by_cases hsame : (child tag name inertial parent source).is a
    · simp [framesBelow, path, sourcesBelow, hsame]
    · have ha' : a ∈ parent.path := by
        rcases List.mem_cons.mp ha with rfl | ha'
        · simp [is] at hsame
        · exact ha'
      have hbelow : framesBelow a (child tag name inertial parent source) =
          framesBelow a parent ++ [child tag name inertial parent source] := by
        simp [framesBelow, path, hsame]
      rw [hbelow, sourcesBelow, if_neg hsame, List.map_append, List.map_append, ih ha']
      rfl

/-- Only the ancestor itself has no sources in between. -/
theorem sourcesBelow_eq_nil_iff {a f : Frame S} (ha : a ∈ f.path) :
    sourcesBelow a f = [] ↔ f.is a = true := by
  cases f with
  | root tag name inertial =>
    obtain rfl : a = root tag name inertial := by simpa [path] using ha
    simp [sourcesBelow, is]
  | child tag name inertial parent source =>
    by_cases hsame : (child tag name inertial parent source).is a
    · simp [sourcesBelow, hsame]
    · simp [sourcesBelow, hsame]

variable [Scalar K]

/-- What asking sources in turn can do, where the transforms so far add up to `above`: the calls
that it makes and its result. -/
inductive Descends (date : Instant K) :
    Transform K → List S → List (Call S K) → Except (Fault K) (Transform K) → Prop
  /-- No source is left. -/
  | finished (above : Transform K) : Descends date above [] [] (.ok above)
  /-- The next source fails. -/
  | raised {above : Transform K} {source : S} {hops : List S} (fault : Fault K) :
      Descends date above (source :: hops) [⟨source, date, .error fault⟩] (.error fault)
  /-- The transform of the next source cannot be composed with those so far. -/
  | broken {above link : Transform K} {source : S} {hops : List S} {fault : Fault K}
      (hcompose : above.compose date link = .error fault) :
      Descends date above (source :: hops) [⟨source, date, .ok link⟩] (.error fault)
  /-- The transform of the next source is composed with those so far, and the others follow. -/
  | next {above link below : Transform K} {source : S} {hops : List S} {made : List (Call S K)}
      {result : Except (Fault K) (Transform K)} (hcompose : above.compose date link = .ok below)
      (rest : Descends date below hops made result) :
      Descends date above (source :: hops) (⟨source, date, .ok link⟩ :: made) result

variable {date : Instant K} {above : Transform K} {hops : List S} {calls : List (Call S K)}
  {result : Except (Fault K) (Transform K)}

/-- A descent that makes no calls has no sources to ask. -/
theorem Descends.eq_nil_of_calls (h : Descends date above hops [] result) : hops = [] := by
  cases h
  rfl

/-- A descent fails as a source does, or because transforms cannot be composed. -/
theorem Descends.origin_of_error {fault : Fault K}
    (h : Descends date above hops calls (.error fault)) :
    fault = .zeroQuaternion ∨ ∃ call ∈ calls, call.answer = .error fault := by
  generalize hresult : (.error fault : Except (Fault K) (Transform K)) = result at h
  induction h with
  | finished => cases hresult
  | raised first =>
    obtain rfl := Except.error.inj hresult
    exact .inr ⟨_, List.mem_cons_self, rfl⟩
  | broken hcompose =>
    obtain rfl := Except.error.inj hresult
    exact .inl (Transform.eq_zeroQuaternion_of_compose hcompose)
  | next hcompose rest ih =>
    obtain hzero | ⟨call, hcall, hanswer⟩ := ih hresult
    · exact .inl hzero
    · exact .inr ⟨call, List.mem_cons_of_mem _ hcall, hanswer⟩

/-- This is all that a descent does, whatever the sources do. -/
theorem transformFrom_descends (query : S → Instant K → Stateful K σ (Transform K))
    (date : Instant K) (a f : Frame S) (s : σ) (calls : List (Call S K)) :
    ∃ made result s', (transformFrom (noted query) date a f).run.run (s, calls) =
        (result, s', calls ++ made) ∧
      Descends date .neutral (sourcesBelow a f) made result := by
  rw [transformFrom]
  generalize sourcesBelow a f = hops
  generalize (Transform.neutral : Transform K) = above
  induction hops generalizing above s calls with
  | nil => exact ⟨[], .ok above, s, by rw [List.append_nil]; rfl, .finished above⟩
  | cons source hops ih =>
    rw [List.foldlM_cons]
    obtain ⟨answer, s₁, hquery⟩ : ∃ answer s₁, (query source date).run.run s = (answer, s₁) :=
      ⟨_, _, rfl⟩
    have hcall := run_noted hquery calls
    cases answer with
    | error fault =>
      have hstep := Stateful.run_bind_of_error
        (f := fun link => (ofExcept (above.compose date link) : Stateful K _ _)) hcall
      exact ⟨_, _, _, Stateful.run_bind_of_error hstep, .raised fault⟩
    | ok link =>
      have hstep := (Stateful.run_bind_of_ok
        (f := fun link => (ofExcept (above.compose date link) : Stateful K _ _)) hcall).trans
        (Stateful.run_ofExcept _ _)
      cases hcompose : above.compose date link with
      | error fault =>
        rw [hcompose] at hstep
        exact ⟨_, _, _, Stateful.run_bind_of_error hstep, .broken hcompose⟩
      | ok below =>
        rw [hcompose] at hstep
        obtain ⟨made, result, s', hrun, hrest⟩ := ih s₁ (calls ++ [⟨source, date, .ok link⟩]) below
        rw [List.append_assoc] at hrun
        exact ⟨_, result, s', (Stateful.run_bind_of_ok hstep).trans hrun, .next hcompose hrest⟩

/-- What the search for the transform between two frames can do: the calls that it makes and its
result, where `down` are the sources below the common ancestor on the way to the first frame, and
`across` those on the way to the second one. -/
inductive Inquires (date : Instant K) (down across : List S) :
    List (Call S K) → Except (Fault K) (Transform K) → Prop
  /-- The descent to the first frame fails. -/
  | stopped {made : List (Call S K)} {fault : Fault K}
      (first : Descends date .neutral down made (.error fault)) :
      Inquires date down across made (.error fault)
  /-- The descent to the second frame fails. -/
  | stoppedAcross {made made' : List (Call S K)} {toSelf : Transform K} {fault : Fault K}
      (first : Descends date .neutral down made (.ok toSelf))
      (second : Descends date .neutral across made' (.error fault)) :
      Inquires date down across (made ++ made') (.error fault)
  /-- Both descents end with transforms, which are then joined. -/
  | joined {made made' : List (Call S K)} {toSelf toOther : Transform K}
      (first : Descends date .neutral down made (.ok toSelf))
      (second : Descends date .neutral across made' (.ok toOther)) :
      Inquires date down across (made ++ made') (Transform.compose date toSelf.inverse toOther)

/-- The search makes no calls only if both frames are the common ancestor. -/
theorem Inquires.eq_nil_of_calls {down across : List S}
    (h : Inquires date down across [] result) : down = [] ∧ across = [] := by
  generalize hcalls : ([] : List (Call S K)) = calls at h
  cases h with
  | stopped first =>
    subst hcalls
    obtain rfl := first.eq_nil_of_calls
    cases first
  | stoppedAcross first second =>
    obtain ⟨rfl, rfl⟩ := List.nil_eq_append_iff.mp hcalls
    exact ⟨first.eq_nil_of_calls, second.eq_nil_of_calls⟩
  | joined first second =>
    obtain ⟨rfl, rfl⟩ := List.nil_eq_append_iff.mp hcalls
    exact ⟨first.eq_nil_of_calls, second.eq_nil_of_calls⟩

/-- The search fails as a source does, or because transforms cannot be composed. -/
theorem Inquires.origin_of_error {down across : List S} {fault : Fault K}
    (h : Inquires date down across calls (.error fault)) :
    fault = .zeroQuaternion ∨ ∃ call ∈ calls, call.answer = .error fault := by
  generalize hresult : (.error fault : Except (Fault K) (Transform K)) = result at h
  cases h with
  | stopped first =>
    obtain rfl := Except.error.inj hresult
    exact first.origin_of_error
  | stoppedAcross first second =>
    obtain rfl := Except.error.inj hresult
    obtain hzero | ⟨call, hcall, hanswer⟩ := second.origin_of_error
    · exact .inl hzero
    · exact .inr ⟨call, List.mem_append_right _ hcall, hanswer⟩
  | joined first second => exact .inl (Transform.eq_zeroQuaternion_of_compose hresult.symm)

/-- This is all that the search for a transform does once a common ancestor is found. -/
theorem transformTo_inquires {a f g : Frame S} (hother : f.is g = false)
    (hancestor : f.commonAncestor g = (.ok a : Except (Fault K) (Frame S)))
    (query : S → Instant K → Stateful K σ (Transform K)) (date : Instant K) (s : σ) :
    ∃ made result s', (transformTo (noted query) date f g).run.run (s, []) = (result, s', made) ∧
      Inquires date (sourcesBelow a f) (sourcesBelow a g) made result := by
  obtain ⟨made, result, s₁, hrun, hfirst⟩ := transformFrom_descends query date a f s []
  rw [List.nil_append] at hrun
  have hsearch : (ofExcept (f.commonAncestor g) : Stateful K (σ × List (Call S K)) _).run.run
      (s, []) = (.ok a, s, []) := by
    rw [hancestor]
    rfl
  rw [transformTo, if_neg (by simp [hother]), Stateful.run_bind_of_ok hsearch]
  cases result with
  | error fault => exact ⟨made, _, s₁, Stateful.run_bind_of_error hrun, .stopped hfirst⟩
  | ok toSelf =>
    rw [Stateful.run_bind_of_ok hrun]
    obtain ⟨made', result, s₂, hrun', hsecond⟩ :=
      transformFrom_descends query date a g s₁ made
    cases result with
    | error fault =>
      exact ⟨_, _, s₂, Stateful.run_bind_of_error hrun', .stoppedAcross hfirst hsecond⟩
    | ok toOther =>
      rw [Stateful.run_bind_of_ok hrun', Stateful.run_ofExcept]
      exact ⟨_, _, s₂, rfl, .joined hfirst hsecond⟩

/-- The search does the same whether its calls are noted or not. -/
theorem transformTo_notes (query : S → Instant K → Stateful K σ (Transform K)) (date : Instant K)
    (f g : Frame S) : Notes (transformTo (noted query) date f g) (transformTo query date f g) := by
  have hdescent (a h : Frame S) :
      Notes (transformFrom (noted query) date a h) (transformFrom query date a h) := by
    rw [transformFrom, transformFrom]
    exact Notes.foldlM (fun above source => (notes_noted query source date).bind fun step =>
      notes_ofExcept (Transform.compose date above step)) _ _
  rw [transformTo, transformTo]
  split
  · exact fun _ calls => ⟨calls, rfl⟩
  · exact (notes_ofExcept _).bind fun a => (hdescent a f).bind fun toSelf =>
      (hdescent a g).bind fun toOther => notes_ofExcept _

/-- Frames without a common ancestor are refused before any source is asked. -/
theorem transformTo_of_disconnected {f g : Frame S} {fault : Fault K} (hother : f.is g = false)
    (hsearch : f.commonAncestor g = (.error fault : Except (Fault K) (Frame S)))
    (query : S → Instant K → Stateful K σ (Transform K)) (date : Instant K) (s : σ) :
    (transformTo query date f g).run.run s = (.error fault, s) := by
  have hrefused : (ofExcept (f.commonAncestor g) : Stateful K σ _).run.run s =
      (.error fault, s) := by
    rw [hsearch]
    rfl
  rw [transformTo, if_neg (by simp [hother]), Stateful.run_bind_of_error hrefused]

end Frame

end FrameKinematics
