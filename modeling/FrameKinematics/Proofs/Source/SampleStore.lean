import FrameKinematics.Source.SampleStore

/-!
# Samples that were fetched

In the store of a source each sample is what the source would fetch for its index again. Looking
a sample up, putting one that was just fetched and dropping samples all keep it so.
-/

namespace FrameKinematics.SampleStore

variable {α ε K : Type} {fetch : Int → Except ε α} {s : SampleStore α}

/-- Each sample in a store is what `fetch` gives for its index. -/
def Holds (fetch : Int → Except ε α) (s : SampleStore α) : Prop :=
  ∀ entry ∈ s.entries, fetch entry.1 = .ok entry.2

/-- An empty store holds nothing that is not fetched. -/
theorem holds_empty : Holds fetch {} := by
  simp [Holds]

/-- A sample that is found need not be fetched. -/
theorem Holds.of_find? {index : Int} {value : α} (hs : s.Holds fetch)
    (hfound : s.find? index = some value) : fetch index = .ok value := by
  obtain ⟨entry, hentry, rfl⟩ := Option.map_eq_some_iff.mp hfound
  have hindex : entry.1 = index := by simpa using List.find?_some hentry
  rw [← hindex]
  exact hs entry (List.mem_of_find?_eq_some hentry)

/-- A sample that was fetched may be put under its index. -/
theorem Holds.put {index : Int} {value : α} (hs : s.Holds fetch)
    (hfetched : fetch index = .ok value) : (s.put index value).Holds fetch := by
  intro entry hentry
  rcases List.mem_append.mp hentry with hold | hnew
  · exact hs entry (List.mem_filter.mp hold).1
  · obtain rfl := List.mem_singleton.mp hnew
    exact hfetched

variable [Scalar K]

/-- Entries are dropped from the front only. -/
theorem dropExcess_suffix (capacity : Quantity K) (entries : List (Int × α)) :
    dropExcess capacity entries <:+ entries := by
  induction entries with
  | nil => exact List.suffix_rfl
  | cons entry entries ih =>
    rw [dropExcess]
    split
    · exact ih.trans (List.suffix_cons entry entries)
    · exact List.suffix_rfl

/-- Samples may be dropped. -/
theorem Holds.trim (hs : s.Holds fetch) (capacity : Quantity K) :
    (s.trim capacity).Holds fetch :=
  fun entry hentry => hs entry ((dropExcess_suffix capacity s.entries).subset hentry)

end FrameKinematics.SampleStore
