import FrameKinematics.Proofs.Interpolation.DatedSamples
import FrameKinematics.Proofs.Interpolation.Purity
import FrameKinematics.Proofs.Motion.Extrapolation
import FrameKinematics.Proofs.Motion.Rodrigues
import FrameKinematics.Proofs.Transform.Composition
import FrameKinematics.Interpolation.Transform

/-!
# Interpolation goes through its samples

The reference of an angular interpolation meets the entry nearest to the instant. At the instant of
an entry that is the entry itself, so nothing is left of its rotation but a rate and an
acceleration, which the parameters carry without loss. Adding the reference again gives back the
entry, as far as the selection uses it.
-/

namespace FrameKinematics

section Nearest

variable {α : Type}

/-- The search for the nearest entry keeps the nearest one that it has seen. -/
theorem foldl_nearest_spec (first : ℝ × α) (rest : List (ℝ × α)) :
    ∃ best ∈ first :: rest, rest.foldl (fun best e =>
      if Scalar.abs e.1 < Scalar.abs best.1 then e else best) first = best ∧
        ∀ entry ∈ first :: rest, |best.1| ≤ |entry.1| := by
  induction rest generalizing first with
  | nil => exact ⟨first, List.mem_singleton_self _, rfl, by simp⟩
  | cons second rest ih =>
    rw [List.foldl_cons]
    split_ifs with hnearer
    · rw [Scalar.abs_real, Scalar.abs_real] at hnearer
      obtain ⟨best, hmem, hbest, hleast⟩ := ih second
      refine ⟨best, List.mem_cons_of_mem _ hmem, hbest, ?_⟩
      rintro entry (_ | ⟨_, hentry⟩)
      · exact (hleast second List.mem_cons_self).trans hnearer.le
      · exact hleast entry hentry
    · rw [Scalar.abs_real, Scalar.abs_real, not_lt] at hnearer
      obtain ⟨best, hmem, hbest, hleast⟩ := ih first
      have hfirst := hleast first List.mem_cons_self
      refine ⟨best, ?_, hbest, ?_⟩
      · rcases List.mem_cons.mp hmem with rfl | hrest
        · exact List.mem_cons_self
        · exact List.mem_cons_of_mem _ (List.mem_cons_of_mem _ hrest)
      · rintro entry (_ | ⟨_, _ | ⟨_, hentry⟩⟩)
        · exact hfirst
        · exact hfirst.trans hnearer
        · exact hleast entry (List.mem_cons_of_mem _ hentry)

/-- The nearest entry is one of the entries, and no other one is nearer. -/
theorem nearestToZero_spec {entries : List (ℝ × α)} (hne : entries ≠ []) :
    ∃ best ∈ entries, nearestToZero entries = some best ∧
      ∀ entry ∈ entries, |best.1| ≤ |entry.1| := by
  obtain ⟨first, rest, rfl⟩ := List.exists_cons_of_ne_nil hne
  obtain ⟨best, hmem, hbest, hleast⟩ := foldl_nearest_spec first rest
  exact ⟨best, hmem, congrArg some hbest, hleast⟩

end Nearest

namespace AngularMotion

variable {selection : Selection}

/-- Two angular motions have the same rotation and the same derivatives as far as a selection uses
them. -/
structure AgreesIn (selection : Selection) (a b : AngularMotion ℝ) : Prop where
  rotation : a.rotation = b.rotation
  rate : selection ≠ .valueOnly → a.rate = b.rate
  acceleration : selection = .withSecond → a.acceleration = b.acceleration

/-- A selection leaves the rotation as it is. -/
@[simp] theorem selected_rotation (a : AngularMotion ℝ) :
    (selected selection a).rotation = a.rotation := by
  cases selection <;> rfl

/-- What a selection leaves out does not count for the agreement in it. -/
theorem selected_agreesIn (a : AngularMotion ℝ) : (selected selection a).AgreesIn selection a := by
  cases selection
  case valueOnly => exact ⟨rfl, fun hne => absurd rfl hne, nofun⟩
  case withFirst => exact ⟨rfl, fun _ => rfl, nofun⟩
  case withSecond => exact ⟨rfl, fun _ => rfl, fun _ => rfl⟩

/-- The rates between unit rotations exist. -/
theorem exists_ratesBetween {entries : List (ℝ × AngularMotion ℝ)}
    (hunit : ∀ entry ∈ entries, entry.2.rotation.HasUnitNorm) :
    ∃ rates, ratesBetween entries = .ok rates := by
  match entries with
  | [] => exact ⟨[], rfl⟩
  | [_] => exact ⟨[], rfl⟩
  | (t, a) :: (u, b) :: rest =>
    have ha : a.rotation.HasUnitNorm := hunit (t, a) List.mem_cons_self
    have hb : b.rotation.HasUnitNorm := hunit (u, b) (List.mem_cons_of_mem _ List.mem_cons_self)
    obtain ⟨rates, hrates⟩ := @exists_ratesBetween ((u, b) :: rest)
      fun entry h => hunit entry (List.mem_cons_of_mem _ h)
    exact ⟨_, (bind_eq_of_ok (estimateRate_eq ha hb (u - t))).trans (bind_eq_of_ok hrates)⟩

/-- Rotations with unit quaternions always have a mean rate. -/
theorem exists_meanRate {entries : List (ℝ × AngularMotion ℝ)}
    (hunit : ∀ entry ∈ entries, entry.2.rotation.HasUnitNorm) :
    ∃ rate, meanRate selection entries = .ok rate := by
  cases selection
  case valueOnly =>
    obtain ⟨rates, hrates⟩ := exists_ratesBetween hunit
    exact ⟨_, bind_eq_of_ok hrates⟩
  case withFirst => exact ⟨_, rfl⟩
  case withSecond => exact ⟨_, rfl⟩

/-- Agreement in a selection is transitive. -/
theorem AgreesIn.trans {a b c : AngularMotion ℝ} (hab : a.AgreesIn selection b)
    (hbc : b.AgreesIn selection c) : a.AgreesIn selection c :=
  ⟨hab.rotation.trans hbc.rotation, fun h => (hab.rate h).trans (hbc.rate h),
    fun h => (hab.acceleration h).trans (hbc.acceleration h)⟩

/-- Angular motions that agree still do after the same angular motion. -/
theorem AgreesIn.andThen {b c : AngularMotion ℝ} (h : b.AgreesIn selection c)
    (a : AngularMotion ℝ) : (a.andThen b).AgreesIn selection (a.andThen c) := by
  refine ⟨?_, fun hrate => ?_, fun hacceleration => ?_⟩
  · rw [andThen_rotation, andThen_rotation, h.rotation]
  · rw [andThen_rate, andThen_rate, h.rotation, h.rate hrate]
  · have hrate := h.rate (by simp [hacceleration])
    rw [andThen_acceleration, andThen_acceleration, h.rotation, hrate,
      h.acceleration hacceleration]

/-- The parameters of an angular motion, as many as a selection uses. -/
noncomputable def parameters (selection : Selection) (a : AngularMotion ℝ) : List (Vec3 ℝ) :=
  [a.toRodrigues.value, a.toRodrigues.first, a.toRodrigues.second].take (selection.order + 1)

/-- There is one parameter vector for the rotation and one for each derivative in use. -/
theorem length_parameters (a : AngularMotion ℝ) :
    (parameters selection a).length = selection.order + 1 :=
  selection.length_take _ _ _

/-- The parameters of an angular motion that has not turned give it back, as far as they go. -/
theorem ofRodrigues_agreesIn {a : AngularMotion ℝ} (ha : a.rotation = .identity)
    {jet : Jet (Vec3 ℝ)} (h : parameters selection a =
      [jet.value, jet.first, jet.second].take (selection.order + 1)) :
    ∃ left, ofRodrigues jet = .ok left ∧ left.AgreesIn selection a := by
  obtain ⟨value, first, second⟩ := jet
  have hquarter (v : Vec3 ℝ) : (-4 : ℝ) • (-1 / 4 : ℝ) • v = v := by
    rw [smul_smul]
    norm_num
  rw [parameters, toRodrigues_of_identity ha] at h
  have hvalue : value = 0 := by
    cases selection <;> simp [Selection.order] at h <;> simp [h]
  refine ⟨⟨.identity, (-4 : ℝ) • first, (-4 : ℝ) • second⟩, ?_, ha.symm, fun hrate => ?_,
    fun hacceleration => ?_⟩
  · rw [hvalue, ofRodrigues_zero]
  · have hfirst : (-1 / 4 : ℝ) • a.rate = first := by
      cases selection <;> simp [Selection.order] at h hrate <;> simp [h]
    rw [← hfirst, hquarter]
  · have hsecond : (-1 / 4 : ℝ) • a.acceleration = second := by
      subst hacceleration
      simp [Selection.order] at h
      simp [h]
    rw [← hsecond, hquarter]

section Reference

variable {reference : AngularMotion ℝ}

/-- What is left of an angular motion after the removal of a reference. -/
noncomputable def leftOf (selection : Selection) (reference : AngularMotion ℝ) (dt : ℝ)
    (a : AngularMotion ℝ) : AngularMotion ℝ :=
  (reference.extrapolated dt).revert.andThen (selected selection a)

/-- The residual of an angular motion with a unit quaternion exists. -/
theorem residual_eq (hreference : reference.rotation.HasUnitNorm) (dt : ℝ) {a : AngularMotion ℝ}
    (ha : a.rotation.HasUnitNorm) :
    residual selection reference dt a =
      .ok (parameters selection (leftOf selection reference dt a)) := by
  have hback : (reference.extrapolated dt).revert.rotation.HasUnitNorm :=
    (hasUnitNorm_extrapolated dt hreference).revert
  have hselected : (selected selection a).rotation.HasUnitNorm := by rwa [selected_rotation]
  refine (bind_eq_of_ok (shift_eq dt hreference)).trans ?_
  exact bind_eq_of_ok (compose_eq hback hselected)

/-- The reference followed by what is left of an angular motion is this angular motion. -/
theorem extrapolated_andThen_leftOf (hreference : reference.rotation.HasUnitNorm) (dt : ℝ)
    {a : AngularMotion ℝ} (ha : a.rotation.HasUnitNorm) :
    (reference.extrapolated dt).andThen (leftOf selection reference dt a) =
      selected selection a := by
  have hforth := hasUnitNorm_extrapolated dt hreference
  have hback : (reference.extrapolated dt).revert.rotation.HasUnitNorm := hforth.revert
  have hselected : (selected selection a).rotation.HasUnitNorm := by rwa [selected_rotation]
  have hcancel := revert_andThen_self hback
  rw [revert_revert hforth] at hcancel
  rw [leftOf, ← andThen_andThen hback hselected, hcancel, identity_andThen]

/-- Nothing is left of the rotation that the reference meets. -/
theorem leftOf_rotation {a : AngularMotion ℝ} (ha : a.rotation.HasUnitNorm) (rate : Vec3 ℝ) :
    (leftOf selection (steady a.rotation rate) 0 a).rotation = .identity := by
  rw [leftOf, extrapolated_zero, andThen_rotation, selected_rotation]
  exact ha.mul_revert_self

/-- What a reference that starts at an abscissa leaves of an entry, as parameters. -/
noncomputable def remainder (selection : Selection) (reference : AngularMotion ℝ) (start : ℝ)
    (entry : ℝ × AngularMotion ℝ) : List (Vec3 ℝ) :=
  parameters selection (leftOf selection reference (entry.1 - start) entry.2)

/-- What a reference leaves of an entry has as many parameter vectors. -/
theorem length_remainder (start : ℝ) (entry : ℝ × AngularMotion ℝ) :
    (remainder selection reference start entry).length = selection.order + 1 :=
  length_parameters _

end Reference

section Entries

variable {entries : List (ℝ × AngularMotion ℝ)} {x₀ : ℝ} {a₀ a : AngularMotion ℝ} {rate : Vec3 ℝ}

/-- The residuals of entries with unit quaternions always exist, and are what the reference
leaves. -/
theorem mapM_residual (hunit : ∀ entry ∈ entries, entry.2.rotation.HasUnitNorm)
    (ha₀ : a₀.rotation.HasUnitNorm) :
    (entries.mapM fun (x, a) => residual selection (steady a₀.rotation rate) (x - x₀) a) =
      .ok (entries.map (remainder selection (steady a₀.rotation rate) x₀)) := by
  apply Grid.mapM_eq_ok
  rw [List.map_map]
  exact List.map_congr_left fun entry hentry =>
    @residual_eq selection (steady a₀.rotation rate) ha₀ _ _ (hunit entry hentry)

/-- An entry with the abscissa zero is the nearest one. -/
theorem nearest_eq (hdistinct : (entries.map Prod.fst).Nodup) (hbest : (x₀, a₀) ∈ entries)
    (hleast : ∀ entry ∈ entries, |x₀| ≤ |entry.1|) (ha : (0, a) ∈ entries) :
    (x₀, a₀) = (0, a) := by
  have hzero : x₀ = 0 := by
    have hbound := hleast _ ha
    rwa [abs_zero, abs_nonpos_iff] at hbound
  exact List.inj_on_of_nodup_map hdistinct hbest ha hzero

/-- When the reference meets an entry, the interpolation agrees with this entry. -/
theorem andThen_agreesIn (ha : a.rotation.HasUnitNorm) {jet : Jet (Vec3 ℝ)}
    (h : parameters selection (leftOf selection (steady a.rotation rate) 0 a) =
      [jet.value, jet.first, jet.second].take (selection.order + 1))
    {left : AngularMotion ℝ} (hleft : ofRodrigues jet = .ok left) :
    (((steady a.rotation rate).extrapolated 0).andThen left).AgreesIn selection a := by
  obtain ⟨left', hleft', hagrees⟩ := ofRodrigues_agreesIn (leftOf_rotation ha rate) h
  obtain rfl : left' = left := Except.ok.inj (hleft'.symm.trans hleft)
  have hwhole := hagrees.andThen ((steady a.rotation rate).extrapolated 0)
  rw [@extrapolated_andThen_leftOf selection (steady a.rotation rate) ha 0 a ha] at hwhole
  exact hwhole.trans (selected_agreesIn a)

/-- What the interpolation of angular motions finds on its way from the abscissae on. -/
structure Interpolant (selection : Selection) (entries : List (ℝ × AngularMotion ℝ)) where
  /-- The mean rate of the entries. -/
  rate : Vec3 ℝ
  /-- The abscissa of the entry that the reference meets. -/
  start : ℝ
  /-- The entry that the reference meets. -/
  nearest : AngularMotion ℝ
  /-- The parameters at zero of what the reference leaves. -/
  jet : Jet (Vec3 ℝ)
  /-- What the reference leaves at zero. -/
  left : AngularMotion ℝ
  meanRate_eq : meanRate selection entries = .ok rate
  nearest_eq : nearestToZero entries = some (start, nearest)
  vectors_eq : (Hermite.vectors selection.order (entries.map Prod.fst)
    (entries.map (remainder selection (steady nearest.rotation rate) start)) 0.0 :
      Except (Fault ℝ) _) = .ok jet
  ofRodrigues_eq : ofRodrigues jet = .ok left

namespace Interpolant

/-- What is found in the end: the reference at zero, followed by what it leaves. -/
noncomputable def result (I : Interpolant selection entries) : AngularMotion ℝ :=
  ((steady I.nearest.rotation I.rate).extrapolated (-I.start)).andThen I.left

/-- What the reference leaves at zero has a unit quaternion. -/
theorem hasUnitNorm_left (I : Interpolant selection entries) : I.left.rotation.HasUnitNorm := by
  obtain ⟨left, hleft, hrotation⟩ := exists_ofRodrigues I.jet
  obtain rfl : left = I.left := Except.ok.inj (hleft.symm.trans I.ofRodrigues_eq)
  rw [hrotation]
  exact hasUnitNorm_quaternionOf _

/-- The reference meets one of the entries, and no other one is nearer to zero. -/
theorem nearest_spec (I : Interpolant selection entries) :
    (I.start, I.nearest) ∈ entries ∧ ∀ entry ∈ entries, |I.start| ≤ |entry.1| := by
  have hnonempty : entries ≠ [] := by
    rintro rfl
    cases I.nearest_eq
  obtain ⟨best, hbest, hnearest, hleast⟩ := nearestToZero_spec hnonempty
  obtain rfl : best = (I.start, I.nearest) := Option.some.inj (hnearest.symm.trans I.nearest_eq)
  exact ⟨hbest, hleast⟩

/-- The interpolation agrees with an entry at zero, which the reference meets. -/
theorem result_agreesIn (I : Interpolant selection entries) (hsize : 2 ≤ entries.length)
    (hdistinct : (entries.map Prod.fst).Nodup)
    (hunit : ∀ entry ∈ entries, entry.2.rotation.HasUnitNorm) (ha : (0, a) ∈ entries) :
    I.result.AgreesIn selection a := by
  obtain ⟨hbest, hleast⟩ := I.nearest_spec
  obtain ⟨hstart, rfl⟩ := Prod.mk.inj (AngularMotion.nearest_eq hdistinct hbest hleast ha)
  obtain ⟨jet, hjet, hthrough⟩ := Hermite.vectors_at_zero selection.order_le hsize hdistinct
    fun entry _ => length_remainder I.start entry
  obtain rfl : jet = I.jet := Except.ok.inj (hjet.symm.trans I.vectors_eq)
  have hparameters := hthrough _ ha rfl
  -- The reference starts from this very entry, so it has gone on for no time.
  rw [hstart, remainder, sub_zero] at hparameters
  rw [result, hstart, neg_zero]
  exact andThen_agreesIn (hunit _ ha) hparameters I.ofRodrigues_eq

end Interpolant

/-- The interpolation of angular motions with unit quaternions at different abscissae finds what it
needs on its way. -/
theorem nonempty_interpolant (hsize : 2 ≤ entries.length) (hdistinct : (entries.map Prod.fst).Nodup)
    (hunit : ∀ entry ∈ entries, entry.2.rotation.HasUnitNorm) (selection : Selection) :
    Nonempty (Interpolant selection entries) := by
  have hnonempty : entries ≠ [] := List.ne_nil_of_length_pos (by omega)
  obtain ⟨rate, hrate⟩ := @exists_meanRate selection entries hunit
  obtain ⟨⟨x₀, a₀⟩, -, hnearest, -⟩ := nearestToZero_spec hnonempty
  obtain ⟨jet, hjet, -⟩ := Hermite.vectors_at_zero selection.order_le hsize hdistinct
    fun entry _ => @length_remainder selection (steady a₀.rotation rate) x₀ entry
  obtain ⟨left, hleft, -⟩ := exists_ofRodrigues jet
  exact ⟨⟨rate, x₀, a₀, jet, left, hrate, hnearest, hjet, hleft⟩⟩

end Entries

section Dated

variable {sample : List (Instant ℝ × AngularMotion ℝ)} {date : Instant ℝ}

/-- Placed entries keep their unit quaternions. -/
theorem hasUnitNorm_of_mem_placed (hunit : ∀ entry ∈ sample, entry.2.rotation.HasUnitNorm) :
    ∀ entry ∈ date.placed sample, entry.2.rotation.HasUnitNorm := by
  intro e he
  obtain ⟨entry, hentry, -, hvalue⟩ := Instant.mem_placed.mp he
  rw [← hvalue]
  exact hunit entry hentry

/-- The interpolation of angular motions goes on from the abscissae without failure. -/
theorem Interpolant.interpolate_eq (I : Interpolant selection (date.placed sample))
    (h : Instant.Separates sample) (hunit : ∀ entry ∈ sample, entry.2.rotation.HasUnitNorm) :
    (interpolate date selection sample : Except (Fault ℝ) _) = .ok I.result := by
  have hunits := @hasUnitNorm_of_mem_placed sample date hunit
  have hnearest : I.nearest.rotation.HasUnitNorm := hunits _ I.nearest_spec.1
  have hchecked := Hermite.checkAbscissae_eq
    ((List.length_map _).symm ▸ h.two_le_length) (h.nodup_distance date)
  have hjet := I.vectors_eq
  rw [Instant.map_fst_placed] at hjet
  have hreference : (steady I.nearest.rotation I.rate).rotation.HasUnitNorm := hnearest
  have hresult : ((steady I.nearest.rotation I.rate).shift (-I.start) >>= fun turned =>
      turned.compose I.left) = .ok I.result :=
    (bind_eq_of_ok (shift_eq (-I.start) hreference)).trans
      (compose_eq (hasUnitNorm_extrapolated (-I.start) hreference) I.hasUnitNorm_left)
  refine (bind_eq_of_ok (ofExcept_of_ok (date.abscissaeFrom_real _))).trans ?_
  refine (bind_eq_of_ok (ofExcept_of_ok hchecked)).trans ?_
  rw [Instant.zip_distance]
  refine (bind_eq_of_ok (ofExcept_of_ok I.meanRate_eq)).trans ?_
  dsimp only
  rw [I.nearest_eq]
  refine (bind_eq_of_ok (ofExcept_of_ok (mapM_residual hunits hnearest))).trans ?_
  refine (bind_eq_of_ok hjet).trans ?_
  refine (bind_eq_of_ok (ofExcept_of_ok I.ofRodrigues_eq)).trans ?_
  exact ofExcept_of_ok hresult

/-- A sample whose instants are apart, with unit quaternions, has an interpolant. -/
theorem nonempty_interpolant_placed (h : Instant.Separates sample)
    (hunit : ∀ entry ∈ sample, entry.2.rotation.HasUnitNorm) (selection : Selection)
    (date : Instant ℝ) : Nonempty (Interpolant selection (date.placed sample)) :=
  nonempty_interpolant (h.two_le_length_placed date) (h.nodup_placed date)
    (hasUnitNorm_of_mem_placed hunit) selection

/-- The interpolation of angular motions at different instants succeeds at every instant, and at the
instant of an entry it agrees with this entry. -/
theorem exists_interpolate (h : Instant.Separates sample)
    (hunit : ∀ entry ∈ sample, entry.2.rotation.HasUnitNorm)
    (selection : Selection) (date : Instant ℝ) :
    ∃ a, (interpolate date selection sample : Except (Fault ℝ) _) = .ok a ∧
      ∀ entry ∈ sample, entry.1.elapsed = date.elapsed → a.AgreesIn selection entry.2 := by
  obtain ⟨I⟩ := nonempty_interpolant_placed h hunit selection date
  refine ⟨I.result, I.interpolate_eq h hunit, fun entry hentry hdate => ?_⟩
  have hplaced : (0, entry.2) ∈ date.placed sample :=
    Instant.mem_placed.mpr ⟨entry, hentry, sub_eq_zero.mpr hdate, rfl⟩
  exact I.result_agreesIn (h.two_le_length_placed date) (h.nodup_placed date)
    (hasUnitNorm_of_mem_placed hunit) hplaced

end Dated

end AngularMotion

namespace Transform

variable {sample : List (Transform ℝ)}

/-- The interpolation of rigid transforms at different instants succeeds at every instant, and at
the instant of one of them it agrees with it. -/
theorem exists_interpolate (hsize : 2 ≤ sample.length)
    (hdates : (sample.map fun t => t.date.elapsed).Nodup) (hrigid : ∀ t ∈ sample, t.IsRigid)
    (cartesian angular : Selection) (date : Instant ℝ) :
    ∃ u, (interpolate date sample (.of cartesian) (.of angular) : Except (Fault ℝ) _) = .ok u ∧
      u.date = date ∧ ∀ t ∈ sample, t.date.elapsed = date.elapsed →
        u.cartesian.AgreesIn cartesian t.cartesian ∧ u.angular.AgreesIn angular t.angular := by
  have hseparates {α : Type} (part : Transform ℝ → α) :
      Instant.Separates (sample.map fun t => (t.date, part t)) := by
    refine ⟨by rwa [List.length_map], ?_⟩
    rwa [List.map_map]
  have hunit : ∀ entry ∈ sample.map fun t => (t.date, t.angular),
      entry.2.rotation.HasUnitNorm := by
    intro entry hentry
    obtain ⟨t, ht, rfl⟩ := List.mem_map.mp hentry
    exact hrigid t ht
  obtain ⟨m, hm, hmotion⟩ :=
    Motion.exists_interpolate (hseparates Transform.cartesian) cartesian date
  obtain ⟨a, ha, hangular⟩ :=
    AngularMotion.exists_interpolate (hseparates Transform.angular) hunit angular date
  refine ⟨dated date m a, ?_, rfl, fun t ht hdate => ⟨?_, ?_⟩⟩
  · refine (bind_eq_of_ok hm).trans ?_
    exact bind_eq_of_ok ha
  · exact hmotion (t.date, t.cartesian) (List.mem_map_of_mem ht) hdate
  · exact hangular (t.date, t.angular) (List.mem_map_of_mem ht) hdate

/-- Interpolation goes through its samples. At the instant of a transform of the sample it gives
this transform, with the derivatives that the selections use, however far the rotations of the
sample are apart and in whatever order it comes. -/
theorem interpolate_through_sample (hsize : 2 ≤ sample.length)
    (hdates : (sample.map fun t => t.date.elapsed).Nodup) (hrigid : ∀ t ∈ sample, t.IsRigid)
    {t : Transform ℝ} (ht : t ∈ sample) (cartesian angular : Selection) :
    ∃ u, (interpolate t.date sample (.of cartesian) (.of angular) : Run ℝ _).Yields (.ok u) ∧
      u.date = t.date ∧ u.cartesian.AgreesIn cartesian t.cartesian ∧
      u.angular.AgreesIn angular t.angular := by
  obtain ⟨u, hu, hdate, hagrees⟩ :=
    exists_interpolate hsize hdates hrigid cartesian angular t.date
  refine ⟨u, ?_, hdate, hagrees t ht rfl⟩
  rw [← hu]
  exact (interpolate_computes t.date sample (.of cartesian) (.of angular)).yields

/-- Ten seconds and a half after J2000.0, half a turn away from no rotation. -/
noncomputable def laterHalfTurn : Transform ℝ :=
  dated ⟨10, 0.5⟩ ⟨⟨0, -1, 1⟩, ⟨1, 1, 0⟩, ⟨0, 0, 1⟩⟩ ⟨⟨⟨0, 0, -1, 0⟩⟩, ⟨-1, 1, 0⟩, ⟨1, 0, 1⟩⟩

/-- Two transforms half a turn apart are interpolated through the later one. -/
theorem interpolate_through_laterHalfTurn :
    2 ≤ [laterHalfTurn, turning].length ∧
      ([laterHalfTurn, turning].map fun t => t.date.elapsed).Nodup ∧
      (∀ t ∈ [laterHalfTurn, turning], t.IsRigid) ∧ laterHalfTurn ∈ [laterHalfTurn, turning] ∧
      ∃ u, (interpolate ⟨10, 0.5⟩ [laterHalfTurn, turning] (.of .withSecond) (.of .withFirst) :
          Run ℝ _).Yields (.ok u) ∧
        u.date = ⟨10, 0.5⟩ ∧ u.cartesian.AgreesIn .withSecond laterHalfTurn.cartesian ∧
        u.angular.AgreesIn .withFirst laterHalfTurn.angular := by
  have hdates : ([laterHalfTurn, turning].map fun t => t.date.elapsed).Nodup := by
    norm_num [laterHalfTurn, turning, date, Instant.elapsed, Instant.j2000]
  have hlater : laterHalfTurn.IsRigid := by
    norm_num [laterHalfTurn, IsRigid, Transform.angular, Rotation.HasUnitNorm,
      Quaternion.HasUnitNorm, Quaternion.normSq]
  have hrigid : ∀ t ∈ [laterHalfTurn, turning], t.IsRigid := by
    intro t ht
    rcases List.mem_pair.mp ht with rfl | rfl
    · exact hlater
    · exact turning_isRigid
  exact ⟨le_rfl, hdates, hrigid, List.mem_cons_self,
    interpolate_through_sample le_rfl hdates hrigid List.mem_cons_self .withSecond .withFirst⟩

end Transform

end FrameKinematics
