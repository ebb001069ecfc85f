import Mathlib.Data.List.Dedup
import Mathlib.Data.List.DropRight
import FrameKinematics.Source.SampleStore

/-!
# The order of use in a sample store

A history lists the indices of samples each time one is used. A store that puts each sample
behind the others when it is used, and drops samples from the front until the rest fits, holds
the last distinct indices of the history, in the order of their last use. So it keeps each index
once, and the indices used last come last.
-/

namespace FrameKinematics.SampleStore

/-- The last distinct indices of a history, as many as fit, each at its last use. -/
def lastUsed (capacity : Nat) (used : List Int) : List Int := used.dedup.rtake capacity

/-- The indices in a store of some capacity after one of them, or a new one, is used. -/
def afterUse (capacity : Nat) (indices : List Int) (index : Int) : List Int :=
  (indices.filter (fun i => i != index) ++ [index]).rtake capacity

section Lists

variable {α : Type}

/-- The last entries of a list are as many as they should be, unless the list is shorter. -/
theorem length_rtake (l : List α) (n : Nat) : (l.rtake n).length = min n l.length := by
  rw [List.rtake, List.length_drop]
  omega

/-- The last entries of a list that is short enough are all of them. -/
theorem rtake_of_length_le {l : List α} {n : Nat} (h : l.length ≤ n) : l.rtake n = l := by
  rw [List.rtake, Nat.sub_eq_zero_of_le h, List.drop_zero]

/-- The last entries are found in a second part that has enough of them. -/
theorem rtake_append_of_le {l l' : List α} {n : Nat} (h : n ≤ l'.length) :
    (l ++ l').rtake n = l'.rtake n := by
  rw [List.rtake, List.rtake, List.length_append, List.drop_append]
  have hfirst : l.drop (l.length + l'.length - n) = [] := List.drop_eq_nil_of_le (by omega)
  have hskip : l.length + l'.length - n - l.length = l'.length - n := by omega
  rw [hfirst, hskip, List.nil_append]

/-- The entries before the last ones, and then the last ones, are the list. -/
theorem exists_append_rtake (l : List α) (n : Nat) : ∃ front, l = front ++ l.rtake n :=
  ⟨l.take (l.length - n), (List.take_append_drop _ l).symm⟩

end Lists

/-- An index that is used again takes the last place and leaves its old one. -/
theorem dedup_concat (used : List Int) (index : Int) :
    (used ++ [index]).dedup = used.dedup.filter (fun i => i != index) ++ [index] := by
  induction used with
  | nil => simp
  | cons first used ih =>
    by_cases hfirst : first = index
    · subst hfirst
      rw [List.cons_append, List.dedup_cons_of_mem (by simp), ih]
      by_cases hmem : first ∈ used
      · rw [List.dedup_cons_of_mem hmem]
      · rw [List.dedup_cons_of_notMem hmem]
        simp
    · by_cases hmem : first ∈ used
      · rw [List.cons_append, List.dedup_cons_of_mem (by simp [hmem]), ih,
          List.dedup_cons_of_mem hmem]
      · rw [List.cons_append, List.dedup_cons_of_notMem (by simp [hmem, hfirst]), ih,
          List.dedup_cons_of_notMem hmem]
        simp [hfirst]

/-- Without one of its entries a list of distinct ones is at most one shorter. -/
theorem length_le_length_filter {l : List Int} (hl : l.Nodup) (index : Int) :
    l.length ≤ (l.filter fun i => i != index).length + 1 := by
  have herase : l.filter (fun i => i != index) = l.erase index := (hl.erase_eq_filter index).symm
  rw [herase]
  exact Nat.le_add_of_sub_le (List.le_length_erase)

/-- What a history leaves in a store after one more use depends on what it left before. -/
theorem lastUsed_concat (capacity : Nat) (used : List Int) (index : Int) :
    lastUsed capacity (used ++ [index]) = afterUse capacity (lastUsed capacity used) index := by
  rw [lastUsed, dedup_concat, afterUse, lastUsed]
  cases capacity with
  | zero => simp
  | succ room =>
    rw [List.rtake_concat_succ, List.rtake_concat_succ]
    obtain ⟨front, hfront⟩ := exists_append_rtake used.dedup (room + 1)
    congr 1
    by_cases hlength : used.dedup.length ≤ room + 1
    · rw [rtake_of_length_le hlength]
    · -- Enough entries stay behind the front even when the index is one of them.
      have hdistinct : (used.dedup.rtake (room + 1)).Nodup :=
        (List.nodup_dedup used).sublist (List.drop_sublist _ _)
      have hroom := length_le_length_filter hdistinct index
      rw [length_rtake] at hroom
      conv_lhs => rw [hfront, List.filter_append]
      exact rtake_append_of_le (by omega)

variable {capacity : Nat} {used : List Int}

/-- Of the indices that were used last, no more are listed than the capacity. -/
theorem length_lastUsed_le (capacity : Nat) (used : List Int) :
    (lastUsed capacity used).length ≤ capacity := by
  rw [lastUsed, length_rtake]
  exact min_le_left _ _

/-- No index is listed twice among those that were used last. -/
theorem nodup_lastUsed (capacity : Nat) (used : List Int) : (lastUsed capacity used).Nodup :=
  (List.nodup_dedup used).sublist (List.drop_sublist _ _)

/-- Distinct indices that were used last, and that fit, come last and in the order of their use. -/
theorem rtake_lastUsed_append {recent : List Int} (hdistinct : recent.Nodup)
    (hfit : recent.length ≤ capacity) (used : List Int) :
    (lastUsed capacity (used ++ recent)).rtake recent.length = recent := by
  obtain ⟨front, hfront⟩ : recent <:+ used ∪ recent := List.suffix_union_right used recent
  have hroom : (front ++ recent).length - capacity ≤ front.length := by
    rw [List.length_append]
    omega
  have hkept : (front ++ recent).rtake capacity =
      front.drop ((front ++ recent).length - capacity) ++ recent := by
    rw [List.rtake, List.drop_append_of_le_length hroom]
  rw [lastUsed, List.dedup_append, hdistinct.dedup, ← hfront, hkept, rtake_append_of_le le_rfl,
    rtake_of_length_le le_rfl]

/-- Using indices that a history left in a store changes their order only. -/
theorem perm_lastUsed_append {again : List Int} (hagain : ∀ i ∈ again, i ∈ lastUsed capacity used) :
    (lastUsed capacity (used ++ again)).Perm (lastUsed capacity used) := by
  induction again using List.reverseRecOn with
  | nil => simp
  | append_singleton again index ih =>
    have hbefore := ih fun i hi => hagain i (List.mem_append_left _ hi)
    have hmem : index ∈ lastUsed capacity (used ++ again) :=
      hbefore.mem_iff.mpr (hagain index (by simp))
    refine List.Perm.trans ?_ hbefore
    have hdistinct := nodup_lastUsed capacity (used ++ again)
    have hlength := length_lastUsed_le capacity (used ++ again)
    have hmoved := (List.perm_cons_erase hmem).symm
    rw [hdistinct.erase_eq_filter] at hmoved
    have hperm := (List.perm_append_singleton index _).trans hmoved
    rw [← List.append_assoc, lastUsed_concat, afterUse, rtake_of_length_le]
    · exact hperm
    · rw [hperm.length_eq]
      exact hlength

section Store

variable {α K : Type} {s : SampleStore α} {index : Int} {value : α}

/-- A store finds a sample under each of its indices, and under no other. -/
theorem find?_isSome_iff : (s.find? index).isSome ↔ index ∈ s.indices := by
  simp [find?, indices]

/-- No sample is found exactly for indices that are not stored. -/
theorem find?_eq_none_iff : s.find? index = none ↔ index ∉ s.indices := by
  rw [← find?_isSome_iff]
  simp

/-- A sample that is put goes to the end, and one under its index goes away. -/
theorem indices_put (s : SampleStore α) (index : Int) (value : α) :
    (s.put index value).indices = s.indices.filter (fun i => i != index) ++ [index] := by
  simp [put, indices, List.filter_map, Function.comp_def]

variable [Scalar K]

/-- What is dropped is what exceeds a whole capacity. -/
theorem dropExcess_whole (capacity : Int) (entries : List (Int × α)) :
    dropExcess (.whole capacity : Quantity K) entries = entries.rtake capacity.toNat := by
  induction entries with
  | nil => simp [dropExcess]
  | cons entry entries ih =>
    rw [dropExcess]
    by_cases hexcess : capacity < entries.length + 1
    · have hrest : capacity.toNat ≤ entries.length := by omega
      rw [if_pos (by simpa [Quantity.less] using hexcess), ih]
      exact (rtake_append_of_le (l := [entry]) hrest).symm
    · rw [if_neg (by simpa [Quantity.less] using hexcess)]
      exact (rtake_of_length_le (by rw [List.length_cons]; omega)).symm

/-- A new sample is put behind the others, and those used least recently make room for it. -/
theorem indices_trim_put (s : SampleStore α) (capacity index : Int) (value : α) :
    ((s.put index value).trim (.whole capacity : Quantity K)).indices =
      afterUse capacity.toNat s.indices index := by
  rw [afterUse, ← indices_put s index value, trim, indices, indices, dropExcess_whole,
    List.rtake, List.rtake, List.map_drop, List.length_map]

/-- A sample that is used again is put behind the others, which all stay. -/
theorem indices_put_of_mem (hmem : index ∈ s.indices) (hfit : s.indices.length ≤ capacity)
    (value : α) : (s.put index value).indices = afterUse capacity s.indices index := by
  rw [afterUse, indices_put, rtake_of_length_le]
  have hshorter : (s.indices.filter fun i => i != index).length < s.indices.length :=
    List.length_filter_lt_length_iff_exists.mpr ⟨index, hmem, by simp⟩
  rw [List.length_append, List.length_singleton]
  omega

end Store

end FrameKinematics.SampleStore
