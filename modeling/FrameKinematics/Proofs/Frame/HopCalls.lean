import FrameKinematics.Proofs.Frame.CommonAncestor
import FrameKinematics.Proofs.Source.Purity

/-!
# The calls behind a transform

The transform from one frame to another asks each source between the two frames and their common
ancestor once: first those on the way down to the one frame, then those on the way down to the
other, and no others. A source that fails ends the search with its failure. Else the transform is
stamped with the instant that was asked for and is not the neutral transform itself, unless the
transforms of the sources cannot be composed: the product of two quaternions that are not of unit
norm may be zero, and that ends the search as well.
-/

namespace FrameKinematics.Frame

variable {S K σ : Type}

variable [Scalar K]

/-- The transforms of links that follow each other, composed from the top down. -/
def chained (date : Instant K) (links : List (Transform K)) : Except (Fault K) (Transform K) :=
  links.foldlM (fun above link => above.compose date link) .neutral

/-- The transform between two frames, from the transforms of the links down to the one frame and of
those down to the other. -/
def linked (date : Instant K) (down across : List (Transform K)) :
    Except (Fault K) (Transform K) := do
  Transform.compose date (← chained date down).inverse (← chained date across)

section Descents

variable {date : Instant K} {above t : Transform K} {hops : List S} {calls : List (Call S K)}
  {result : Except (Fault K) (Transform K)}

/-- The calls of a descent ask its sources in order, for its instant. -/
theorem Descends.questions_in_turn (h : Descends date above hops calls result) :
    calls.map Call.question <+: hops.map fun source => (source, date) := by
  induction h with
  | finished => exact List.prefix_rfl
  | raised fault => exact (List.prefix_cons_inj _).mpr List.nil_prefix
  | broken => exact (List.prefix_cons_inj _).mpr List.nil_prefix
  | next _ _ ih => exact (List.prefix_cons_inj _).mpr ih

/-- A descent that succeeds calls all its sources, and each of them answers with a transform. -/
theorem Descends.complete (h : Descends date above hops calls (.ok t)) :
    calls.map Call.question = hops.map (fun source => (source, date)) ∧
      ∀ call ∈ calls, ∃ link, call.answer = .ok link := by
  generalize hresult : (.ok t : Except (Fault K) (Transform K)) = result at h
  induction h with
  | finished => exact ⟨rfl, by simp⟩
  | raised => cases hresult
  | broken => cases hresult
  | next _ _ ih =>
    obtain ⟨hquestions, hanswers⟩ := ih hresult
    refine ⟨by rw [List.map_cons, List.map_cons, hquestions]; rfl, ?_⟩
    rw [List.forall_mem_cons]
    exact ⟨⟨_, rfl⟩, hanswers⟩

/-- A descent that succeeds makes one call for each source. -/
theorem Descends.length_calls (h : Descends date above hops calls (.ok t)) :
    calls.length = hops.length := by
  simpa using congrArg List.length h.complete.1

/-- A call that fails is the last one of a descent, and its failure is that of the descent. -/
theorem Descends.ends_with_failure (h : Descends date above hops calls result)
    {before after : List (Call S K)} {call : Call S K} (hcalls : calls = before ++ call :: after)
    {fault : Fault K} (hfails : call.answer = .error fault) :
    after = [] ∧ result = .error fault := by
  induction h generalizing before with
  | finished => simp at hcalls
  | raised =>
    cases before with
    | nil =>
      obtain ⟨rfl, rfl⟩ := List.cons.inj hcalls
      exact ⟨rfl, hfails⟩
    | cons => simp at hcalls
  | broken =>
    cases before with
    | nil =>
      obtain ⟨rfl, -⟩ := List.cons.inj hcalls
      cases hfails
    | cons => simp at hcalls
  | next _ _ ih =>
    cases before with
    | nil =>
      obtain ⟨rfl, -⟩ := List.cons.inj hcalls
      cases hfails
    | cons => exact ih (List.cons.inj hcalls).2

/-- A descent whose calls are all answered with transforms gives what these add up to. -/
theorem Descends.eq_foldlM (h : Descends date above hops calls result)
    {links : List (Transform K)} (hlinks : calls.map Call.answer = links.map .ok) :
    result = links.foldlM (fun above link => above.compose date link) above := by
  induction h generalizing links with
  | finished =>
    obtain rfl : links = [] := by simpa using hlinks.symm
    rfl
  | raised =>
    cases links with
    | nil => cases hlinks
    | cons => cases (List.cons.inj hlinks).1
  | broken hcompose =>
    obtain _ | ⟨link, links⟩ := links
    · cases hlinks
    · obtain rfl := Except.ok.inj (List.cons.inj hlinks).1
      rw [List.foldlM_cons, hcompose]
      rfl
  | next hcompose _ ih =>
    obtain _ | ⟨link, links⟩ := links
    · cases hlinks
    · obtain rfl := Except.ok.inj (List.cons.inj hlinks).1
      rw [List.foldlM_cons, hcompose]
      exact ih (List.cons.inj hlinks).2

/-- When a descent makes a call, it has composed the transforms of the calls before. -/
theorem Descends.composed_before (h : Descends date above hops calls result)
    {before after : List (Call S K)} {call : Call S K} (hcalls : calls = before ++ call :: after)
    {links : List (Transform K)} (hlinks : before.map Call.answer = links.map .ok) :
    ∃ t, links.foldlM (fun above link => above.compose date link) above = .ok t := by
  induction h generalizing before links with
  | finished => simp at hcalls
  | raised =>
    cases before with
    | nil =>
      obtain rfl : links = [] := by simpa using hlinks.symm
      exact ⟨_, rfl⟩
    | cons => simp at hcalls
  | broken =>
    cases before with
    | nil =>
      obtain rfl : links = [] := by simpa using hlinks.symm
      exact ⟨_, rfl⟩
    | cons => simp at hcalls
  | next hcompose _ ih =>
    cases before with
    | nil =>
      obtain rfl : links = [] := by simpa using hlinks.symm
      exact ⟨_, rfl⟩
    | cons =>
      obtain ⟨rfl, hrest⟩ := List.cons.inj hcalls
      obtain _ | ⟨link, links⟩ := links
      · cases hlinks
      · obtain rfl := Except.ok.inj (List.cons.inj hlinks).1
        rw [List.foldlM_cons, hcompose]
        exact ih hrest (List.cons.inj hlinks).2

end Descents

omit [Scalar K] in
/-- A call of two descents in a row is one of the first or one of the second. -/
theorem first_or_second {made made' before after : List (Call S K)} {call : Call S K}
    (hcalls : made ++ made' = before ++ call :: after) :
    (∃ rest, made = before ++ call :: rest) ∨
      ∃ between, before = made ++ between ∧ made' = between ++ call :: after := by
  obtain ⟨between, hbefore, hmade'⟩ | ⟨between, hmade, hafter⟩ := List.append_eq_append_iff.mp hcalls
  · exact .inr ⟨between, hbefore, hmade'⟩
  · cases between with
    | nil => exact .inr ⟨[], by rw [hmade, List.append_nil, List.append_nil], hafter.symm⟩
    | cons first between =>
      obtain ⟨rfl, -⟩ := List.cons.inj hafter
      exact .inl ⟨between, hmade⟩

section Inquiries

variable {date : Instant K} {down across : List S} {calls : List (Call S K)}
  {result : Except (Fault K) (Transform K)}

/-- How the search for the transform between two frames asks the sources `down` below their common
ancestor on the way to the one frame and those `across` on the way to the other. -/
structure AsksInTurn (date : Instant K) (down across : List S) (calls : List (Call S K))
    (result : Except (Fault K) (Transform K)) : Prop where
  /-- Each source is asked once for the instant, in this order, and no other source is. -/
  in_turn : calls.map Call.question <+: (down ++ across).map fun source => (source, date)
  /-- A call that fails is the last one, and its failure is that of the search. -/
  ends_with_failure : ∀ before call after, calls = before ++ call :: after → ∀ fault,
    call.answer = .error fault → after = [] ∧ result = .error fault
  /-- A call is made only if the transforms so far, those down to the one frame and those down to
  the other, could be composed. -/
  composed : ∀ before call after, calls = before ++ call :: after → ∀ links : List (Transform K),
    before.map Call.answer = links.map .ok →
      (∃ t, chained date (links.take down.length) = .ok t) ∧
        ∃ t, chained date (links.drop down.length) = .ok t
  /-- If no call fails, the transforms of the links are joined. Unless a product of quaternions is
  zero there, all sources are asked, and the result is stamped with the instant and is not the
  neutral transform itself. -/
  joins : ∀ links : List (Transform K), calls.map Call.answer = links.map .ok →
    result = linked date (links.take down.length) (links.drop down.length) ∧
      (result = .error .zeroQuaternion ∨ calls.length = (down ++ across).length ∧
        ∃ t, result = .ok t ∧ t.date = date ∧ t.isNeutral = false)

/-- A search asks sources in order, each of them once, and may stop before the end. -/
theorem Inquires.questions_in_turn (h : Inquires date down across calls result) :
    calls.map Call.question <+: (down ++ across).map fun source => (source, date) := by
  rw [List.map_append]
  cases h with
  | stopped first => exact first.questions_in_turn.trans (List.prefix_append _ _)
  | stoppedAcross first second =>
    rw [List.map_append, first.complete.1]
    exact (List.prefix_append_right_inj _).mpr second.questions_in_turn
  | joined first second =>
    rw [List.map_append, first.complete.1]
    exact (List.prefix_append_right_inj _).mpr second.questions_in_turn

/-- A call that fails is the last one of the search, and its failure is that of the search. -/
theorem Inquires.ends_with_failure (h : Inquires date down across calls result)
    {before after : List (Call S K)} {call : Call S K} (hcalls : calls = before ++ call :: after)
    {fault : Fault K} (hfails : call.answer = .error fault) :
    after = [] ∧ result = .error fault := by
  -- In a descent that succeeds no call fails, so the call belongs to the other one.
  have hlater {made rest : List (Call S K)} (hanswers : ∀ c ∈ made, ∃ link, c.answer = .ok link) :
      made ≠ before ++ call :: rest := by
    rintro rfl
    obtain ⟨link, hanswer⟩ := hanswers call (by simp)
    rw [hanswer] at hfails
    cases hfails
  cases h with
  | stopped first => exact first.ends_with_failure hcalls hfails
  | stoppedAcross first second =>
    obtain ⟨_, hmade⟩ | ⟨between, -, hmade'⟩ := first_or_second hcalls
    · exact absurd hmade (hlater first.complete.2)
    · exact second.ends_with_failure hmade' hfails
  | joined first second =>
    obtain ⟨_, hmade⟩ | ⟨between, -, hmade'⟩ := first_or_second hcalls
    · exact absurd hmade (hlater first.complete.2)
    · exact absurd (second.ends_with_failure hmade' hfails).2 (by simp)

omit [Scalar K] in
/-- Answers with transforms are split where the calls are. -/
theorem map_answer_append {made made' : List (Call S K)} {links : List (Transform K)} {n : Nat}
    (hlength : made.length = n) (hlinks : (made ++ made').map Call.answer = links.map .ok) :
    made.map Call.answer = (links.take n).map .ok ∧
      made'.map Call.answer = (links.drop n).map .ok := by
  have hcut : (made.map Call.answer).length = n := by rw [List.length_map, hlength]
  rw [List.map_take, List.map_drop, ← hlinks, List.map_append]
  exact ⟨(List.take_left' hcut).symm, (List.drop_left' hcut).symm⟩

/-- When the search makes a call of the first descent, it has composed the transforms so far. -/
theorem Descends.composed_down {made before rest : List (Call S K)} {call : Call S K}
    (h : Descends date .neutral down made result) (hmade : made = before ++ call :: rest)
    {links : List (Transform K)} (hlinks : before.map Call.answer = links.map .ok) :
    (∃ t, chained date (links.take down.length) = .ok t) ∧
      ∃ t, chained date (links.drop down.length) = .ok t := by
  have hcount : before.length = links.length := by simpa using congrArg List.length hlinks
  have hmost : made.length ≤ down.length := by simpa using h.questions_in_turn.length_le
  have hlength : links.length ≤ down.length := by
    rw [hmade, List.length_append] at hmost
    omega
  rw [List.take_of_length_le hlength, List.drop_of_length_le hlength]
  exact ⟨h.composed_before hmade hlinks, .neutral, rfl⟩

/-- When the search makes a call of the second descent, it has composed the transforms so far. -/
theorem Descends.composed_across {made made' between after : List (Call S K)} {call : Call S K}
    {t : Transform K} (h : Descends date .neutral down made (.ok t))
    (h' : Descends date .neutral across made' result) (hmade' : made' = between ++ call :: after)
    {links : List (Transform K)} (hlinks : (made ++ between).map Call.answer = links.map .ok) :
    (∃ t, chained date (links.take down.length) = .ok t) ∧
      ∃ t, chained date (links.drop down.length) = .ok t := by
  obtain ⟨hdown, hacross⟩ := map_answer_append h.length_calls hlinks
  exact ⟨⟨t, (h.eq_foldlM hdown).symm⟩, h'.composed_before hmade' hacross⟩

/-- When the search makes a call, it has composed the transforms so far. -/
theorem Inquires.composed_before (h : Inquires date down across calls result)
    {before after : List (Call S K)} {call : Call S K} (hcalls : calls = before ++ call :: after)
    {links : List (Transform K)} (hlinks : before.map Call.answer = links.map .ok) :
    (∃ t, chained date (links.take down.length) = .ok t) ∧
      ∃ t, chained date (links.drop down.length) = .ok t := by
  cases h with
  | stopped first => exact first.composed_down hcalls hlinks
  | stoppedAcross first second =>
    obtain ⟨_, hmade⟩ | ⟨between, rfl, hmade'⟩ := first_or_second hcalls
    · exact first.composed_down hmade hlinks
    · exact first.composed_across second hmade' hlinks
  | joined first second =>
    obtain ⟨_, hmade⟩ | ⟨between, rfl, hmade'⟩ := first_or_second hcalls
    · exact first.composed_down hmade hlinks
    · exact first.composed_across second hmade' hlinks

/-- If no call of the search fails, it gives what the transforms of the links add up to. -/
theorem Inquires.eq_linked (h : Inquires date down across calls result)
    {links : List (Transform K)} (hlinks : calls.map Call.answer = links.map .ok) :
    result = linked date (links.take down.length) (links.drop down.length) := by
  cases h with
  | stopped first =>
    have hlength : links.length ≤ down.length := by
      simpa [← List.length_map Call.answer, hlinks] using first.questions_in_turn.length_le
    rw [List.take_of_length_le hlength, linked, chained, ← first.eq_foldlM hlinks]
    rfl
  | stoppedAcross first second =>
    obtain ⟨hdown, hacross⟩ := map_answer_append first.length_calls hlinks
    rw [linked, chained, chained, ← first.eq_foldlM hdown, ← second.eq_foldlM hacross]
    rfl
  | joined first second =>
    obtain ⟨hdown, hacross⟩ := map_answer_append first.length_calls hlinks
    rw [linked, chained, chained, ← first.eq_foldlM hdown, ← second.eq_foldlM hacross]
    rfl

/-- If no call of the search fails, it asks all sources and gives a transform for the instant that
is not the neutral one itself, unless a product of quaternions is zero. -/
theorem Inquires.complete_of_answers (h : Inquires date down across calls result)
    (hanswers : ∀ call ∈ calls, ∃ link, call.answer = .ok link) :
    result = .error .zeroQuaternion ∨ calls.length = (down ++ across).length ∧
      ∃ t, result = .ok t ∧ t.date = date ∧ t.isNeutral = false := by
  have hzero : ∀ fault, result = .error fault → result = .error .zeroQuaternion := by
    rintro fault rfl
    obtain rfl | ⟨call, hcall, hfails⟩ := h.origin_of_error
    · rfl
    · obtain ⟨link, hanswer⟩ := hanswers call hcall
      rw [hanswer] at hfails
      cases hfails
  cases h with
  | stopped => exact .inl (hzero _ rfl)
  | stoppedAcross => exact .inl (hzero _ rfl)
  | joined first second =>
    obtain ⟨t, ht, hplain⟩ | ⟨hfails, -⟩ := Transform.compose_cases date _ _
    · exact .inr ⟨by rw [List.length_append, List.length_append, first.length_calls,
        second.length_calls], t, ht, hplain⟩
    · exact .inl hfails

/-- All that a search can do is to ask in turn. -/
theorem Inquires.asksInTurn (h : Inquires date down across calls result) :
    AsksInTurn date down across calls result := by
  refine ⟨h.questions_in_turn, ?_, ?_, ?_⟩
  · intro before call after hcalls fault hfails
    exact h.ends_with_failure hcalls hfails
  · intro before call after hcalls links hlinks
    exact h.composed_before hcalls hlinks
  · intro links hlinks
    refine ⟨h.eq_linked hlinks, h.complete_of_answers fun call hcall => ?_⟩
    have hanswer := List.mem_map_of_mem (f := Call.answer) hcall
    rw [hlinks, List.mem_map] at hanswer
    obtain ⟨link, -, hlink⟩ := hanswer
    exact ⟨link, hlink.symm⟩

end Inquiries

section Queries

/-- Between two frames, the search asks the sources of the frames below their common ancestor: those
down to the one frame, then those down to the other, each list from the top down. -/
def AsksHops (query : S → Instant K → Stateful K σ (Transform K)) (date : Instant K) (s : σ)
    (f g : Frame S) : Prop :=
  ∃ (a : Frame S) (down across : List S),
    f.commonAncestor g = (.ok a : Except (Fault K) (Frame S)) ∧
    (framesBelow a f).map source? = down.map some ∧
    (framesBelow a g).map source? = across.map some ∧
    ∃ result s' calls, (transformTo (noted query) date f g).run.run (s, []) = (result, s', calls) ∧
      AsksInTurn date down across calls result

/-- Whatever the sources do, be it that they fail, share a state or give transforms of other
instants, the search between two different frames of one tree asks for each hop once. -/
theorem transformTo_asks_hops {memory : Memory K} {frames : List (Frame S)}
    (hgrown : Grown memory frames) {f g : Frame S} (hf : f ∈ frames) (hg : g ∈ frames)
    (htop : f.top = g.top) (hne : f ≠ g) (query : S → Instant K → Stateful K σ (Transform K))
    (date : Instant K) (s : σ) : AsksHops query date s f g := by
  have hforest := hgrown.isForest.1
  have hother : f.is g = false := by
    by_contra hsame
    exact hne (hforest.eq_of_tag_eq f hf g hg (by simpa [is] using hsame))
  obtain ⟨a, hancestor, haf, hag⟩ := hforest.commonAncestor_eq_ok (K := K) hf hg htop
  obtain ⟨calls, result, s', hrun, hinquires⟩ := transformTo_inquires hother hancestor query date s
  exact ⟨a, sourcesBelow a f, sourcesBelow a g, hancestor, map_source?_framesBelow haf,
    map_source?_framesBelow hag, result, s', calls, hrun, hinquires.asksInTurn⟩

section Examples

/-- Sources that share a count and can be asked twice altogether. -/
def wearing (_source : Nat) (_date : Instant Float) : Stateful Float Nat (Transform Float) := do
  let uses ← get
  set (uses + 1)
  if uses < 2 then return .neutral else throw (.reported .value "worn out")

/-- The search between these two frames asks for each hop in turn, though the sources share a count
and wear out. -/
theorem antenna_satellite_asks_hops :
    (∃ memory : Memory Float, Grown memory sky) ∧ antenna ∈ sky ∧ satellite ∈ sky ∧
      antenna.top = satellite.top ∧ antenna ≠ satellite ∧
      AsksHops wearing .j2000 0 antenna satellite := by
  obtain ⟨memory, hgrown⟩ := grown_sky
  have hantenna : antenna ∈ sky := by simp [sky]
  have hsatellite : satellite ∈ sky := by simp [sky]
  have hne : antenna ≠ satellite := by simp [antenna, satellite]
  exact ⟨⟨memory, hgrown⟩, hantenna, hsatellite, rfl, hne,
    transformTo_asks_hops hgrown hantenna hsatellite rfl hne wearing .j2000 0⟩

/-- The root of a tree with fixed links. -/
def ground : Frame (Source Float) := root 0 "root" false

/-- A frame whose link has a quaternion of norm zero. -/
def collapsed : Frame (Source Float) :=
  child 1 "mid" false ground
    (.fixed (.ofRotation .j2000 (.fixed ⟨⟨0.0, 0.0, 0.0, 0.0⟩⟩)))

/-- A frame below that one. -/
def tip : Frame (Source Float) :=
  child 2 "tip" false collapsed (.fixed (.ofTranslation .j2000 (.atRest ⟨1.0, 0.0, 0.0⟩)))

/-- These frames can be created one after the other. -/
theorem grown_tip : ∃ memory : Memory Float, Grown memory [tip, collapsed, ground] := by
  have hground : Grown _ [ground] :=
    .create "root" none none false (.start ({} : Memory Float)) (by simp) rfl
  have hcollapsed : Grown _ [collapsed, ground] :=
    hground.create "mid" (some ground)
      (some (.fixed (.ofRotation .j2000 (.fixed ⟨⟨0.0, 0.0, 0.0, 0.0⟩⟩)))) false (by simp) rfl
  exact ⟨_, hcollapsed.create "tip" (some collapsed)
    (some (.fixed (.ofTranslation .j2000 (.atRest ⟨1.0, 0.0, 0.0⟩)))) false (by simp) rfl⟩

/-- What the search for the transform to this frame leaves, with its calls. -/
def groundToTip : Except (Fault Float) (Transform Float) × Memory Float ×
    List (Call (Source Float) Float) :=
  (transformTo (noted Source.ask) ⟨60, 0.0⟩ ground tip).run.run ({}, [])

/-- All sources between two frames answer with transforms, but there is no transform between the
frames: the two cannot be composed. -/
theorem tip_links_not_composed :
    (∃ memory : Memory Float, Grown memory [tip, collapsed, ground]) ∧ ground.top = tip.top ∧
      ground ≠ tip ∧ groundToTip.2.2.map (fun call => call.answer.isOk) = [true, true] ∧
      groundToTip.1 = .error .zeroQuaternion := by
  refine ⟨grown_tip, rfl, by simp [ground, tip], by decide +kernel, ?_⟩
  rfl

end Examples

end Queries

end FrameKinematics.Frame
