import Mathlib.Logic.Relation
import FrameKinematics.Proofs.Frame.HopCalls
import FrameKinematics.Proofs.Frame.Registration
import FrameKinematics.Proofs.Source.Purity
import FrameKinematics.Session

/-!
# The history of a registry

A session asks a registry for frames, one after the other, and some of these calls fail. What it may
give as a parent is a frame that the registry gave out before, so by induction over the calls all
frames of the registry are below its root. A frame that is created and then refused took a number,
but no later call can be given it.
-/

namespace FrameKinematics

/-- Whether a fault says that frames are not connected. -/
def Fault.saysDisconnected {K : Type} : Fault K → Bool
  | .disconnected .. => true
  | .reported .tree _ => true
  | _ => false

namespace Act

variable {K α β : Type}

/-- What an act answers in a session, and the session that it leaves. -/
def answer (act : Act K α) (s : Session K) : Except (Refusal K) α × Session K :=
  StateT.run (ExceptT.run act) s

variable {s s' : Session K} {i : Nat} {r r' : Registry K} {memory' : Memory K} {fault : Fault K}
  {frame : Frame (Source K)} {add : Registry K → Run K (Frame (Source K) × Registry K)}

/-- After an act that succeeds, a session goes on in the state that the act left. -/
theorem answer_bind_of_ok {act : Act K α} {f : α → Act K β} {a : α}
    (hact : act.answer s = (.ok a, s')) : (act >>= f).answer s = (f a).answer s' := by
  rw [answer] at hact ⊢
  rw [ExceptT.run_bind, StateT.run_bind, hact]
  rfl

/-- An act whose first part is refused ends there. -/
theorem answer_bind_of_error {act : Act K α} {f : α → Act K β} {refusal : Refusal K}
    (hact : act.answer s = (.error refusal, s')) :
    (act >>= f).answer s = (.error refusal, s') := by
  rw [answer] at hact ⊢
  rw [ExceptT.run_bind, StateT.run_bind, hact]
  rfl

/-- A computation on the memory of sources changes nothing else in the session. -/
theorem answer_run {computation : Run K α} {result : Except (Fault K) α}
    (hrun : computation.run.run s.memory = (result, memory')) :
    (run computation).answer s = (result.mapError .fault, { s with memory := memory' }) := by
  have hstep : (run computation).answer s =
      (ok (computation.run.run s.memory).1 : Act K α).answer
        { s with memory := (computation.run.run s.memory).2 } := rfl
  rw [hstep, hrun]
  cases result <;> rfl

/-- A registry that is kept under a number is found there. -/
theorem answer_registry (hkept : s.registries[i]? = some r) :
    (registry i).answer s = (.ok r, s) := by
  have hget : (get : Act K (Session K)).answer s = (.ok s, s) := rfl
  rw [registry, answer_bind_of_ok hget, hkept]
  rfl

/-- A registry with a new frame takes the place of the registry without it. -/
theorem answer_extendRegistry_of_ok (hkept : s.registries[i]? = some r)
    (hadded : (add r).run.run s.memory = (.ok (frame, r'), memory')) :
    (extendRegistry i add).answer s =
      (.ok frame,
        { s with memory := memory', registries := s.registries.setIfInBounds i r' }) := by
  rw [extendRegistry, answer_bind_of_ok (answer_registry hkept),
    answer_bind_of_ok (answer_run hadded)]
  rfl

/-- A registry that refuses to add a frame is left as it is. -/
theorem answer_extendRegistry_of_error (hkept : s.registries[i]? = some r)
    (hrefused : (add r).run.run s.memory = (.error fault, memory')) :
    (extendRegistry i add).answer s = (.error (.fault fault), { s with memory := memory' }) := by
  rw [extendRegistry, answer_bind_of_ok (answer_registry hkept),
    answer_bind_of_error (answer_run hrefused)]

/-- A new registry is kept after all others. -/
theorem registry_of_newRegistry [Scalar K] {settings : RegistrySettings K}
    (hnew : (newRegistry settings).answer s = (.ok i, s')) :
    ∃ r, s'.registries[i]? = some r ∧
      (Registry.build settings).run.run s.memory = (.ok r, s'.memory) := by
  obtain ⟨result, memory', hbuild⟩ : ∃ result memory',
      (Registry.build settings).run.run s.memory = (result, memory') := ⟨_, _, rfl⟩
  cases result with
  | error fault =>
    rw [newRegistry, answer_bind_of_error (answer_run hbuild)] at hnew
    cases hnew
  | ok r =>
    rw [newRegistry, answer_bind_of_ok (answer_run hbuild)] at hnew
    cases hnew
    exact ⟨r, by simp, hbuild⟩

end Act

/-- A session, and the frames that one of its registries gave out: those that were added, in order,
and those that were looked up. -/
structure Usage (K : Type) where
  session : Session K
  added : List (Frame (Source K)) := []
  found : List (Frame (Source K)) := []

namespace Usage

variable {K : Type}

/-- A parent that is given in a call was given out. -/
def Gave (u : Usage K) (call : Addition K) : Prop :=
  ∀ parent ∈ call.parent?, parent ∈ u.added ∨ parent ∈ u.found

/-- A registry holds the frames that it gave out, under different names and all below one root. -/
structure InOrder (i : Nat) (u : Usage K) (r : Registry K) : Prop where
  kept : u.session.registries[i]? = some r
  /-- Each frame was created after its parent. In between, refused frames took numbers too. -/
  grown : Frame.Grown u.session.memory r.frames.reverse
  distinct : r.names.Nodup
  frames_eq : ∃ next rotation motion, r.frames = Registry.founding next rotation motion ++ u.added
  found_mem : ∀ f ∈ u.found, f ∈ r.frames
  below_root : ∀ f ∈ r.frames, f.top.name = Registry.inertialName

namespace InOrder

variable {i : Nat} {u u' : Usage K} {r : Registry K} {call : Addition K} {s' : Session K}

/-- The frames of a registry in order are a forest. -/
theorem isForest (h : InOrder i u r) : Frame.IsForest r.frames := by
  obtain ⟨hparent, htag⟩ := h.grown.isForest.1
  exact ⟨by simpa using hparent, by simpa using htag⟩

/-- The names of a registry are those of the frames of the Earth and of the added frames. -/
theorem names_eq (h : InOrder i u r) :
    r.names = [Registry.inertialName, Registry.rotatingName, Registry.earthFixedName] ++
      u.added.map Frame.name := by
  obtain ⟨next, rotation, motion, hframes⟩ := h.frames_eq
  rw [Registry.names, hframes, List.map_append]
  rfl

/-- A frame that was added is in the registry. -/
theorem mem_of_added {f : Frame (Source K)} (h : InOrder i u r) (hf : f ∈ u.added) :
    f ∈ r.frames := by
  obtain ⟨next, rotation, motion, hframes⟩ := h.frames_eq
  rw [hframes]
  exact List.mem_append_right _ hf

/-- A parent that was given out is a frame of the registry. -/
theorem parent_mem (h : InOrder i u r) (hgave : u.Gave call) :
    ∀ parent ∈ call.parent?, parent ∈ r.frames := by
  intro parent hparent
  rcases hgave parent hparent with hadded | hfound
  · exact h.mem_of_added hadded
  · exact h.found_mem parent hfound

/-- The root of a frame is the frame under the name of the root. -/
theorem frame_inertialName (h : InOrder i u r) {f : Frame (Source K)} (hf : f ∈ r.frames) :
    r.frame Registry.inertialName = .ok f.top :=
  (Registry.frame_eq_ok_iff h.distinct).mpr
    ⟨h.isForest.path_subset hf (Frame.top_mem_path f), h.below_root f hf⟩

/-- All frames of a registry have the same root. -/
theorem top_eq_top (h : InOrder i u r) {f g : Frame (Source K)} (hf : f ∈ r.frames)
    (hg : g ∈ r.frames) : f.top = g.top :=
  Except.ok.inj ((h.frame_inertialName hf).symm.trans (h.frame_inertialName hg))

/-- Where the registry is kept and no number of a frame is taken back, all stays in order. -/
theorem of_kept (h : InOrder i u r) (hkept : s'.registries[i]? = some r)
    (hnumbered : u.session.memory.frames ≤ s'.memory.frames) :
    InOrder i { u with session := s' } r :=
  { h with kept := hkept, grown := h.grown.other hnumbered }

/-- With one more frame that has a new name and a parent in the registry, all stays in order. -/
theorem extended (h : InOrder i u r) {name : String} {parent : Frame (Source K)}
    (source : Source K) (inertial : Bool) (hname : name ∉ r.names) (hparent : parent ∈ r.frames)
    {f : Frame (Source K)} (hf : f = .child u.session.memory.frames name inertial parent source)
    (hkept : s'.registries = u.session.registries.setIfInBounds i (r.extended f))
    (hnext : s'.memory.frames = u.session.memory.frames + 1) :
    InOrder i { u with session := s', added := u.added ++ [f] } (r.extended f) := by
  subst hf
  obtain ⟨hbound, -⟩ := Array.getElem?_eq_some_iff.mp h.kept
  obtain ⟨next, rotation, motion, hframes⟩ := h.frames_eq
  exact {
    kept := by simp [hkept, hbound]
    grown := by
      rw [Registry.extended, List.reverse_append]
      exact h.grown.child name source inertial (List.mem_reverse.mpr hparent) hnext
    distinct := by
      rw [Registry.names, Registry.extended, List.map_append, List.nodup_append]
      refine ⟨h.distinct, by simp, ?_⟩
      rintro taken htaken new hnew rfl
      obtain rfl : taken = name := by simpa [Frame.name] using hnew
      exact hname htaken
    frames_eq := ⟨next, rotation, motion, by rw [Registry.extended, hframes, List.append_assoc]⟩
    found_mem := fun f hf => List.mem_append_left _ (h.found_mem f hf)
    below_root := by
      intro f hf
      rcases List.mem_append.mp hf with hold | hnew
      · exact h.below_root f hold
      · obtain rfl := List.mem_singleton.mp hnew
        exact h.below_root parent hparent }

end InOrder

variable [Scalar K]

/-- What a call of a registry does in a session. -/
def ask (i : Nat) (call : Addition K) : Act K (Frame (Source K)) := Act.extendRegistry i call.run

/-- What may happen next in a session that uses a registry. -/
inductive Uses (i : Nat) : Usage K → Usage K → Prop
  /-- A frame is added. -/
  | added {u : Usage K} {s' : Session K} {call : Addition K} {frame : Frame (Source K)}
      (gave : u.Gave call) (answered : (ask i call).answer u.session = (.ok frame, s')) :
      Uses i u { u with session := s', added := u.added ++ [frame] }
  /-- A call fails. -/
  | refused {u : Usage K} {s' : Session K} {call : Addition K} {refusal : Refusal K}
      (gave : u.Gave call) (answered : (ask i call).answer u.session = (.error refusal, s')) :
      Uses i u { u with session := s' }
  /-- A frame is looked up. -/
  | found {u : Usage K} {r : Registry K} {name : String} {frame : Frame (Source K)}
      (kept : u.session.registries[i]? = some r) (answered : r.frame name = .ok frame) :
      Uses i u { u with found := u.found ++ [frame] }
  /-- Something else happens, which does not concern the registry. -/
  | other {u : Usage K} {s' : Session K} (kept : s'.registries[i]? = u.session.registries[i]?)
      (numbered : u.session.memory.frames ≤ s'.memory.frames) :
      Uses i u { u with session := s' }

/-- A registry was built with some settings and has been used since. -/
def Reached (settings : RegistrySettings K) (i : Nat) (u : Usage K) : Prop :=
  ∃ start s, (Act.newRegistry settings).answer start = (.ok i, s) ∧
    Relation.ReflTransGen (Uses i) { session := s } u

variable {settings : RegistrySettings K} {i : Nat} {u u' : Usage K} {r : Registry K}

namespace InOrder

/-- A call adds a frame below the parent that it finds, if the name is new. Else it fails, and what
it leaves differs from before in memory only. -/
theorem ask_cases (h : InOrder i u r) (call : Addition K) :
    (∃ fault memory', u.session.memory.frames ≤ memory'.frames ∧
      (call.name ∈ r.names ∨ call.link r = .error fault) ∧
      (ask i call).answer u.session =
        (.error (.fault fault), { u.session with memory := memory' })) ∨
    ∃ link memory' f, memory'.frames = u.session.memory.frames + 1 ∧ call.name ∉ r.names ∧
      call.link r = .ok link ∧
      f = .child u.session.memory.frames call.name link.inertial link.parent link.source ∧
      (ask i call).answer u.session =
        (.ok f, { u.session with
          memory := memory'
          registries := u.session.registries.setIfInBounds i (r.extended f) }) := by
  rcases call.run_cases r u.session.memory with
    ⟨fault, hlink, hrun⟩ | ⟨link, memory', hlink, hnext, hrun⟩
  · exact .inl ⟨fault, _, Nat.le_refl _, .inr hlink,
      Act.answer_extendRegistry_of_error h.kept hrun⟩
  · by_cases hname : call.name ∈ r.names
    · rw [if_pos hname] at hrun
      exact .inl ⟨_, memory', by omega, .inl hname,
        Act.answer_extendRegistry_of_error h.kept hrun⟩
    · rw [if_neg hname] at hrun
      exact .inr ⟨link, memory', _, hnext, hname, hlink, rfl,
        Act.answer_extendRegistry_of_ok h.kept hrun⟩

/-- With a frame that a call added, all stays in order. -/
theorem of_added (h : InOrder i u r) {call : Addition K} (hgave : u.Gave call)
    {f : Frame (Source K)} {s' : Session K}
    (hadded : (ask i call).answer u.session = (.ok f, s')) :
    InOrder i { u with session := s', added := u.added ++ [f] } (r.extended f) := by
  rcases h.ask_cases call with
    ⟨fault, memory', -, -, hfails⟩ | ⟨link, memory', g, hnext, hname, hlink, hg, hanswer⟩
  · rw [hfails] at hadded
    cases hadded
  · rw [hanswer] at hadded
    cases hadded
    have hparent := Addition.parent_mem_of_link hlink (h.parent_mem hgave)
    exact h.extended link.source link.inertial hname hparent hg rfl hnext

/-- A call that fails leaves the registries as they are, and takes no number back. -/
theorem of_refused (h : InOrder i u r) {call : Addition K} {refusal : Refusal K} {s' : Session K}
    (hrefused : (ask i call).answer u.session = (.error refusal, s')) :
    s'.registries = u.session.registries ∧ u.session.memory.frames ≤ s'.memory.frames := by
  rcases h.ask_cases call with
    ⟨fault, memory', hnumbered, -, hfails⟩ | ⟨link, memory', g, -, -, -, -, hanswer⟩
  · rw [hfails] at hrefused
    cases hrefused
    exact ⟨rfl, hnumbered⟩
  · rw [hanswer] at hrefused
    cases hrefused

/-- A frame is added exactly if its name is new and its source can be made. -/
theorem exists_added_iff (h : InOrder i u r) (call : Addition K) :
    (∃ f s', (ask i call).answer u.session = (.ok f, s')) ↔
      call.name ∉ r.names ∧ call.HasSource := by
  have hsource : (∃ link, call.link r = .ok link) ↔ call.HasSource :=
    Addition.exists_link_iff (by simp [h.names_eq]) (by simp [h.names_eq])
  rcases h.ask_cases call with
    ⟨fault, memory', -, hwhy, hfails⟩ | ⟨link, memory', g, -, hname, hlink, -, hanswer⟩
  · rw [hfails]
    constructor
    · rintro ⟨f, s', hadded⟩
      cases hadded
    · rintro ⟨hname, hmade⟩
      obtain ⟨link, hlink⟩ := hsource.mpr hmade
      rcases hwhy with htaken | hfault
      · exact absurd htaken hname
      · rw [hlink] at hfault
        cases hfault
  · exact ⟨fun _ => ⟨hname, hsource.mp ⟨link, hlink⟩⟩, fun _ => ⟨g, _, hanswer⟩⟩

/-- What is in order stays so, and frames are added after those that are there. -/
theorem step (h : InOrder i u r) (huse : Uses i u u') :
    ∃ r', InOrder i u' r' ∧ r.frames <+: r'.frames := by
  cases huse with
  | added gave answered => exact ⟨_, h.of_added gave answered, List.prefix_append _ _⟩
  | refused gave answered =>
    obtain ⟨hkept, hnumbered⟩ := h.of_refused answered
    exact ⟨r, h.of_kept (by rw [hkept, h.kept]) hnumbered, List.prefix_refl _⟩
  | found kept answered =>
    obtain rfl := Option.some.inj (h.kept.symm.trans kept)
    refine ⟨r, { h with found_mem := fun f hf => ?_ }, List.prefix_refl _⟩
    rcases List.mem_append.mp hf with hold | hnew
    · exact h.found_mem f hold
    · rw [List.mem_singleton.mp hnew]
      exact (Registry.mem_of_frame_eq_ok answered).1
  | other kept numbered =>
    exact ⟨r, h.of_kept (kept.trans h.kept) numbered, List.prefix_refl _⟩

/-- By induction over what happens, all stays in order. -/
theorem run (h : InOrder i u r) (huses : Relation.ReflTransGen (Uses i) u u') :
    ∃ r', InOrder i u' r' ∧ r.frames <+: r'.frames := by
  induction huses with
  | refl => exact ⟨r, h, List.prefix_refl _⟩
  | tail _ huse ih =>
    obtain ⟨r₁, h₁, hbefore₁⟩ := ih
    obtain ⟨r₂, h₂, hbefore₂⟩ := h₁.step huse
    exact ⟨r₂, h₂, hbefore₁.trans hbefore₂⟩

/-- A new registry is in order. -/
theorem of_newRegistry {start s : Session K}
    (hnew : (Act.newRegistry settings).answer start = (.ok i, s)) :
    ∃ r, InOrder i { session := s } r := by
  obtain ⟨r, hkept, hbuilt⟩ := Act.registry_of_newRegistry hnew
  obtain ⟨rotation, motion, memory', hfounding, hnext⟩ :=
    Registry.build_of_isFit (Registry.isFit_of_build hbuilt) start.memory
  obtain ⟨hr, hmemory⟩ := Prod.mk.inj (hbuilt.symm.trans hfounding)
  obtain rfl := Except.ok.inj hr
  subst hmemory
  exact ⟨_, {
    kept := hkept
    grown := Registry.grown_founding start.memory hnext rotation motion
    distinct := Registry.nodup_founding
    frames_eq := ⟨_, rotation, motion, (List.append_nil _).symm⟩
    found_mem := by simp
    below_root := by simp [Registry.founding, Frame.top, Frame.name] }⟩

/-- The registry of a session in which it was built and used is in order. -/
theorem of_reached (hreached : Reached settings i u) : ∃ r, InOrder i u r := by
  obtain ⟨start, s, hnew, huses⟩ := hreached
  obtain ⟨r, h⟩ := of_newRegistry hnew
  obtain ⟨r', h', -⟩ := h.run huses
  exact ⟨r', h'⟩

/-- Between two frames of the registry a search for the transform fails as one of the sources that
it asks, or because transforms cannot be composed. A source that fails is the last one asked, and
its failure is that of the search. -/
theorem origin_of_transformTo (h : InOrder i u r) {f g : Frame (Source K)} (hf : f ∈ r.frames)
    (hg : g ∈ r.frames) {σ : Type} (query : Source K → Instant K → Stateful K σ (Transform K))
    (date : Instant K) (s : σ) :
    ∃ result s' calls,
      (Frame.transformTo (noted query) date f g).run.run (s, []) = (result, s', calls) ∧
      (∀ fault, result = .error fault →
        fault = .zeroQuaternion ∨ ∃ call ∈ calls, call.answer = .error fault) ∧
      ∀ before call after, calls = before ++ call :: after → ∀ fault,
        call.answer = .error fault → after = [] ∧ result = .error fault := by
  by_cases hsame : f.is g = true
  · refine ⟨.ok .neutral, s, [], ?_, by simp, by simp⟩
    rw [Frame.transformTo, if_pos hsame]
    rfl
  · obtain ⟨a, hancestor, -, -⟩ :=
      h.isForest.commonAncestor_eq_ok (K := K) hf hg (h.top_eq_top hf hg)
    obtain ⟨calls, result, s', hrun, hinquires⟩ :=
      Frame.transformTo_inquires (by simpa using hsame) hancestor query date s
    exact ⟨result, s', calls, hrun, fun fault hfault => (hfault ▸ hinquires).origin_of_error,
      fun before call after hcalls fault hfails => hinquires.ends_with_failure hcalls hfails⟩

end InOrder

/-- What a session can rely on that uses a registry `r`, which has become `r'` since. -/
structure Reliable (i : Nat) (u : Usage K) (r r' : Registry K) : Prop where
  /-- The names are those of the frames of the Earth, then those of the frames that were added. -/
  names_eq : r.names = [Registry.inertialName, Registry.rotatingName, Registry.earthFixedName] ++
    u.added.map Frame.name
  distinct : r.names.Nodup
  /-- Under each name there is a frame that has the name, and it stays there. -/
  named : ∀ name ∈ r.names, ∃ f, r.frame name = .ok f ∧ f.name = name ∧ r'.frame name = .ok f
  /-- A frame that was added is the frame under its name. -/
  added : ∀ f ∈ u.added, r.frame f.name = .ok f
  /-- A call that fails leaves the registries as they are. -/
  refused : ∀ call refusal s', (ask i call).answer u.session = (.error refusal, s') →
    s'.registries = u.session.registries
  /-- A call fails only if the name is taken or there is no source. -/
  accepted_iff : ∀ call, (∃ f s', (ask i call).answer u.session = (.ok f, s')) ↔
    call.name ∉ r.names ∧ call.HasSource
  /-- The parent of a frame is in the registry, one level above. -/
  linked : ∀ f ∈ r.frames, ∀ parent ∈ f.parent?, parent ∈ r.frames ∧ f.depth = parent.depth + 1
  /-- All frames are below the frame under the name of the root. -/
  rooted : ∀ f ∈ r.frames, r.frame Registry.inertialName = .ok f.top
  /-- Between two frames there is never said to be no connection, unless a source that is asked
  says so. When a source fails, no other one is asked, and its failure is raised as it is. -/
  connected : ∀ f ∈ r.frames, ∀ g ∈ r.frames, ∀ (σ : Type)
    (query : Source K → Instant K → Stateful K σ (Transform K)) (date : Instant K) (s : σ),
    ∃ result s' calls,
      (Frame.transformTo query date f g).run.run s = (result, s') ∧
      (Frame.transformTo (noted query) date f g).run.run (s, []) = (result, s', calls) ∧
      (∀ fault, result = .error fault → fault.saysDisconnected = true →
        ∃ call ∈ calls, call.answer = .error fault) ∧
      ∀ before call after, calls = before ++ call :: after → ∀ fault,
        call.answer = .error fault → after = [] ∧ result = .error fault

/-- Whatever a registry is asked for, in whatever order and with whatever failures in between, a
session can rely on it. -/
theorem registry_reliable {now later : Usage K} (hreached : Reached settings i now)
    (hlater : Relation.ReflTransGen (Uses i) now later) :
    ∃ r r', now.session.registries[i]? = some r ∧ later.session.registries[i]? = some r' ∧
      Reliable i now r r' := by
  obtain ⟨r, h⟩ := InOrder.of_reached hreached
  obtain ⟨r', h', hbefore⟩ := h.run hlater
  refine ⟨r, r', h.kept, h'.kept, {
    names_eq := h.names_eq
    distinct := h.distinct
    named := ?_
    added := fun f hf => (Registry.frame_eq_ok_iff h.distinct).mpr ⟨h.mem_of_added hf, rfl⟩
    refused := fun call refusal s' hrefused => (h.of_refused hrefused).1
    accepted_iff := h.exists_added_iff
    linked := ?_
    rooted := fun f => h.frame_inertialName
    connected := ?_ }⟩
  · intro name hname
    obtain ⟨f, hf⟩ := Registry.exists_frame_iff.mpr hname
    obtain ⟨hmem, hfname⟩ := Registry.mem_of_frame_eq_ok hf
    exact ⟨f, hf, hfname,
      (Registry.frame_eq_ok_iff h'.distinct).mpr ⟨hbefore.subset hmem, hfname⟩⟩
  · intro f hf parent hparent
    refine ⟨h.isForest.parent_mem f hf parent hparent, ?_⟩
    cases f with
    | root => cases hparent
    | child tag name inertial parent' source =>
      obtain rfl : parent' = parent := Option.some.inj hparent
      rfl
  · intro f hf g hg σ query date s
    obtain ⟨result, s', calls, hrun, horigin, hraised⟩ :=
      h.origin_of_transformTo hf hg query date s
    obtain ⟨calls', hnoted⟩ := Frame.transformTo_notes query date f g s []
    obtain ⟨hresult, hrest⟩ := Prod.mk.inj (hrun.symm.trans hnoted)
    obtain ⟨hstate, -⟩ := Prod.mk.inj hrest
    have hsearch : (Frame.transformTo query date f g).run.run s = (result, s') :=
      Prod.ext hresult.symm hstate.symm
    refine ⟨result, s', calls, hsearch, hrun, fun fault hfault hsays => ?_, hraised⟩
    rcases horigin fault hfault with rfl | hasked
    · cases hsays
    · exact hasked

section Examples

/-- The first registry of a new session. -/
def standardRegistry : Registry Float :=
  ⟨.standard, Registry.founding 0 (.earthRotation 0) (.poleMotion .none 1)⟩

/-- Its root. -/
def gcrf : Frame (Source Float) := .root 0 "GCRF" true

/-- A source from outside that fails in words for frames that are not connected. -/
def misleading : Source Float :=
  .external "FailingProvider" (fun _ => .error (.reported .tree "boom")) 0

/-- The motion of a spacecraft. -/
def drift : Orbit Float := .drifting ⟨⟨7.0e6, 0.0, 0.0⟩, ⟨0.0, 7.5e3, 0.0⟩, .zero⟩

/-- A call for a frame below the root. -/
def askDown : Addition Float := .below "DOWN" gcrf misleading false

/-- The frame that this call gives. -/
def down : Frame (Source Float) := .child 3 "DOWN" false gcrf misleading

/-- A call for a frame under a name that is taken. -/
def askTaken : Addition Float := .below "TIRF" gcrf misleading false

/-- A call for the frame of a spacecraft, below the frame that was added. -/
def askSatellite : Addition Float := .localOrbital "SAT" drift .qsw (some down)

/-- The frame that this call gives. The number before it went to the frame that was refused. -/
def satellite : Frame (Source Float) := .child 5 "SAT" false down (.localOrbital drift .qsw)

/-- A new session with a registry. -/
def opened : Session Float := ((Act.newRegistry .standard).answer {}).2

/-- The session after a frame was added. -/
def withDown : Session Float := ((ask 0 askDown).answer opened).2

/-- The session after a call was refused. -/
def withRefusal : Session Float := ((ask 0 askTaken).answer withDown).2

/-- The session after one more frame was added. -/
def withSatellite : Session Float := ((ask 0 askSatellite).answer withRefusal).2

/-- This session is reached by looking a frame up, adding one and being refused another one. -/
theorem reached_withRefusal : Reached .standard 0 ⟨withRefusal, [down], [gcrf]⟩ := by
  have hopened : (Act.newRegistry .standard).answer {} = (.ok 0, opened) := rfl
  have hkept : opened.registries[0]? = some standardRegistry := rfl
  have hgcrf : standardRegistry.frame "GCRF" = .ok gcrf := rfl
  have hdown : (ask 0 askDown).answer opened = (.ok down, withDown) := rfl
  have htaken : (ask 0 askTaken).answer withDown =
    (.error (.fault (.alreadyRegistered "TIRF")), withRefusal) := rfl
  have hfirst : Uses 0 ⟨opened, [], []⟩ ⟨opened, [], [gcrf]⟩ := .found hkept hgcrf
  have hsecond : Uses 0 ⟨opened, [], [gcrf]⟩ ⟨withDown, [down], [gcrf]⟩ :=
    .added (by simp [Gave, askDown, Addition.parent?]) hdown
  have hthird : Uses 0 ⟨withDown, [down], [gcrf]⟩ ⟨withRefusal, [down], [gcrf]⟩ :=
    .refused (by simp [Gave, askTaken, Addition.parent?]) htaken
  exact ⟨{}, opened, hopened, ((Relation.ReflTransGen.single hfirst).tail hsecond).tail hthird⟩

/-- From there one more frame is added, below the one that was added before. -/
theorem uses_withSatellite :
    Uses 0 ⟨withRefusal, [down], [gcrf]⟩ ⟨withSatellite, [down, satellite], [gcrf]⟩ :=
  .added (by simp [Gave, askSatellite, Addition.parent?])
    (show (ask 0 askSatellite).answer withRefusal = (.ok satellite, withSatellite) from rfl)

/-- The session can rely on its registry, after a refusal and before one more frame is added. -/
theorem satellite_registry_reliable :
    Reached .standard 0 ⟨withRefusal, [down], [gcrf]⟩ ∧
      Relation.ReflTransGen (Uses 0) ⟨withRefusal, [down], [gcrf]⟩
        ⟨withSatellite, [down, satellite], [gcrf]⟩ ∧
      ∃ r r', withRefusal.registries[0]? = some r ∧ withSatellite.registries[0]? = some r' ∧
        Reliable 0 ⟨withRefusal, [down], [gcrf]⟩ r r' :=
  ⟨reached_withRefusal, .single uses_withSatellite,
    registry_reliable reached_withRefusal (.single uses_withSatellite)⟩

/-- Between two frames of one registry there may be said to be no connection: the source of the one
frame says so. -/
theorem down_said_disconnected :
    Reached .standard 0 ⟨withRefusal, [down], [gcrf]⟩ ∧
      (∃ r, withRefusal.registries[0]? = some r ∧ r.frame "GCRF" = .ok gcrf ∧
        r.frame "DOWN" = .ok down) ∧
      ((gcrf.transformTo Source.ask .j2000 down).run.run withRefusal.memory).1 =
        .error (.reported .tree "boom") ∧
      (.reported .tree "boom" : Fault Float).saysDisconnected = true :=
  ⟨reached_withRefusal, ⟨⟨.standard, standardRegistry.frames ++ [down]⟩, rfl, rfl, rfl⟩, rfl, rfl⟩

end Examples

end Usage

end FrameKinematics
