import Mathlib.Data.List.Basic
import Mathlib.Tactic.Ring
import FrameKinematics.Document.Block

/-!
# Blocks of nested lists

Nested lists of numbers whose items are alike are read as a block: its extents are the lengths of
the lists, and its entries are the numbers in order. A layer of such a block is an item of the list
again, and spreading a block over its own shape does nothing.
-/

namespace FrameKinematics

section Chunks

variable {α : Type}

/-- Pieces of equal length in a row are the beginning of a list. -/
theorem flatMap_take_drop (entries : List α) (size count : Nat) :
    (List.range count).flatMap (fun i => (entries.drop (i * size)).take size) =
      entries.take (count * size) := by
  induction count with
  | zero => rw [List.range_zero, List.flatMap_nil, Nat.zero_mul, List.take_zero]
  | succ count ih =>
    rw [List.range_succ, List.flatMap_append, ih, List.flatMap_singleton, Nat.succ_mul,
      List.take_add]

/-- When all items have one length, a piece of the entries is an item. -/
theorem take_drop_flatten {items : List (List α)} {size : Nat}
    (hitems : ∀ item ∈ items, item.length = size) {i : Nat} (hi : i < items.length) :
    (items.flatten.drop (i * size)).take size = items[i] := by
  induction items generalizing i with
  | nil => exact absurd hi (Nat.not_lt_zero i)
  | cons item items ih =>
    have hlength := hitems item List.mem_cons_self
    have hrest : ∀ item ∈ items, item.length = size := fun item hmem =>
      hitems item (List.mem_cons_of_mem _ hmem)
    cases i with
    | zero =>
      rw [Nat.zero_mul, List.drop_zero, List.flatten_cons, List.take_left' hlength,
        List.getElem_cons_zero]
    | succ i =>
      have hskip : (i + 1) * size = item.length + i * size := by
        rw [hlength]
        ring
      rw [hskip, List.flatten_cons, List.drop_length_add_append, List.getElem_cons_succ]
      exact ih hrest (Nat.lt_of_succ_lt_succ hi)

/-- Lists of one size that are joined have the number of lists times the size as their length. -/
theorem length_flatten_of_length_eq {items : List (List α)} {size : Nat}
    (hitems : ∀ item ∈ items, item.length = size) :
    items.flatten.length = items.length * size := by
  induction items with
  | nil => rw [List.flatten_nil, List.length_nil, List.length_nil, Nat.zero_mul]
  | cons item items ih =>
    have hrest := ih fun item hmem => hitems item (List.mem_cons_of_mem _ hmem)
    rw [List.flatten_cons, List.length_append, hrest, hitems item List.mem_cons_self,
      List.length_cons, Nat.succ_mul, Nat.add_comm]

end Chunks

section Places

variable {α β : Type} {items : List α} {g : α → β}

/-- Working through the places of a list is working through the list. -/
theorem map_range_eq_map {f : Nat → β} (h : ∀ i (hi : i < items.length), f i = g items[i]) :
    (List.range items.length).map f = items.map g := by
  apply List.ext_getElem
  · rw [List.length_map, List.length_map, List.length_range]
  · intro i _ hi
    rw [List.length_map] at hi
    rw [List.getElem_map, List.getElem_map, List.getElem_range, h i hi]

/-- Taking items by all their numbers takes each item once, in order. -/
theorem filterMap_range_eq_map {f : Nat → Option β}
    (h : ∀ i (hi : i < items.length), f i = some (g items[i])) :
    (List.range items.length).filterMap f = items.map g := by
  have hmap := map_range_eq_map (g := fun a => some (g a)) h
  have hid : (List.range items.length).filterMap f =
      ((List.range items.length).map f).filterMap id := by
    rw [List.filterMap_map]
    rfl
  rw [hid, hmap, List.filterMap_map]
  exact List.filterMap_eq_map_iff_forall_eq_some.mpr fun a _ => rfl

end Places

namespace Block

variable {K : Type}

/-- The volume of a shape is the product of its extents. -/
theorem volume_cons (extent : Nat) (shape : List Nat) :
    volume (extent :: shape) = extent * volume shape := by
  have hfold (n : Nat) (shape : List Nat) : shape.foldl (· * ·) n = n * shape.foldl (· * ·) 1 := by
    induction shape generalizing n with
    | nil => rw [List.foldl_nil, List.foldl_nil, Nat.mul_one]
    | cons m shape ih =>
      rw [List.foldl_cons, List.foldl_cons, ih (n * m), ih (1 * m), Nat.one_mul, Nat.mul_assoc]
  rw [volume, List.foldl_cons, hfold, Nat.one_mul, volume]

/-- The volume of one extent is this extent. -/
theorem volume_single (extent : Nat) : volume [extent] = extent := by
  rw [volume_cons]
  exact Nat.mul_one extent

/-- Entries that fill a shape are not changed by spreading them over it. -/
theorem spreadEntries_self {shape : List Nat} {entries : List K}
    (hlength : entries.length = volume shape) : spreadEntries shape shape entries = entries := by
  induction shape generalizing entries with
  | nil => rfl
  | cons extent shape ih =>
    rw [volume_cons] at hlength
    have hpiece : ∀ i ∈ List.range extent,
        spreadEntries shape shape ((entries.drop (i * volume shape)).take (volume shape)) =
          (entries.drop (i * volume shape)).take (volume shape) := by
      intro i hi
      apply ih
      have hroom : (i + 1) * volume shape ≤ extent * volume shape :=
        Nat.mul_le_mul_right _ (List.mem_range.mp hi)
      rw [Nat.succ_mul] at hroom
      rw [List.length_take, List.length_drop, hlength]
      omega
    rw [spreadEntries, if_pos rfl, List.flatMap_congr hpiece, flatMap_take_drop, ← hlength,
      List.take_length]

/-- A block is spread over its own shape without a change. -/
theorem spread_self {shape : List Nat} {entries : List K}
    (hlength : entries.length = volume shape) :
    (⟨shape, entries⟩ : Block K).spread shape = entries := by
  rw [spread, Nat.sub_self, List.replicate_zero, List.nil_append, spreadEntries_self hlength]

/-- Rows of one width are found again in the block that they fill. -/
theorem cut_spread {rows : List (List K)} {width : Nat}
    (hrows : ∀ row ∈ rows, row.length = width) :
    ((List.range rows.length).map fun i =>
      (((⟨[rows.length, width], rows.flatten⟩ : Block K).spread [rows.length, width]).drop
        (i * width)).take width) = rows := by
  have hfull : rows.flatten.length = volume [rows.length, width] := by
    rw [length_flatten_of_length_eq hrows, volume_cons, volume_single]
  have hpieces : ((List.range rows.length).map fun i =>
      (rows.flatten.drop (i * width)).take width) = rows.map id :=
    map_range_eq_map fun _ hi => take_drop_flatten hrows hi
  rw [spread_self hfull, hpieces, List.map_id]

/-- A single number is repeated. -/
theorem spread_number (x : K) (count : Nat) :
    (⟨[], [x]⟩ : Block K).spread [count] = List.replicate count x := by
  have hlayers : ((List.range 1).flatMap fun i =>
      spreadEntries [] [] (([x].drop (i * volume [])).take (volume []))) = [x] := rfl
  change (if 1 = count then _ else (List.replicate count ((List.range 1).flatMap fun i =>
    spreadEntries [] [] (([x].drop (i * volume [])).take (volume [])))).flatten) = _
  rw [hlayers]
  split_ifs with hone
  · rw [← hone]
    rfl
  · rw [List.flatten_replicate_singleton]

/-- A shape fits itself. -/
theorem commonShape?_self (shape : List Nat) : commonShape? shape shape = some shape := by
  have hbackwards (shape : List Nat) : commonBackwards? shape shape = some shape := by
    induction shape with
    | nil => rfl
    | cons m shape ih =>
      rw [commonBackwards?, ih, commonExtent?, if_pos rfl]
      rfl
  rw [commonShape?, hbackwards, Option.map_some, List.reverse_reverse]

/-- The layers of a block that is put together from entries are these entries. -/
theorem layer?_eq {items : List (List K)} {shape : List Nat}
    (hitems : ∀ item ∈ items, item.length = volume shape) {i : Nat} (hi : i < items.length) :
    (⟨items.length :: shape, items.flatten⟩ : Block K).layer? i = some ⟨shape, items[i]⟩ := by
  have hpiece := take_drop_flatten hitems hi
  change (if i < items.length then some (⟨shape, (items.flatten.drop (i * volume shape)).take
    (volume shape)⟩ : Block K) else none) = _
  rw [if_pos hi, hpiece]

/-- The layers of a block made of lists are the blocks of these lists. -/
theorem layers_eq {items : List (List K)} {shape : List Nat}
    (hitems : ∀ item ∈ items, item.length = volume shape) :
    (⟨items.length :: shape, items.flatten⟩ : Block K).layers =
      items.map fun item => ⟨shape, item⟩ :=
  filterMap_range_eq_map fun _ hi => layer?_eq hitems hi

end Block

namespace Document

variable {K : Type}

/-- A list of numbers as a document. -/
def numbers (xs : List K) : Document K := list (xs.map real)

/-- Lists of lists of numbers as a document. -/
def layers (rows : List (List (List K))) : Document K :=
  list (rows.map fun row => list (row.map numbers))

/-- Items that are alike make one more direction. -/
theorem extents?_list {items : List (Document K)} {extents : List Nat} (hne : items ≠ [])
    (halike : ∀ d ∈ items, extents? d = some extents) :
    extents? (list items) = some (items.length :: extents) := by
  have hitems : extentsOfItems? items = some (List.replicate items.length extents) := by
    clear hne
    induction items with
    | nil => rfl
    | cons d ds ih =>
      rw [extentsOfItems?, halike d List.mem_cons_self,
        ih fun d hd => halike d (List.mem_cons_of_mem _ hd)]
      rfl
  obtain ⟨d, ds, rfl⟩ := List.exists_cons_of_ne_nil hne
  rw [extents?, hitems, List.length_cons, List.replicate_succ]
  change (if (List.replicate ds.length extents).all (· == extents) = true then _ else _) = _
  rw [if_pos (List.all_eq_true.mpr fun e he => beq_iff_eq.mpr (List.eq_of_mem_replicate he)),
    List.length_replicate]

/-- A list of numbers has their count as its only extent. -/
theorem extents?_numbers (xs : List K) : extents? (numbers xs) = some [xs.length] := by
  by_cases hne : xs = []
  · rw [hne]
    rfl
  · have halike : ∀ d ∈ xs.map (real : K → Document K), extents? d = some [] := by
      intro d hd
      obtain ⟨x, -, rfl⟩ := List.mem_map.mp hd
      rfl
    rw [numbers, extents?_list (mt List.map_eq_nil_iff.mp hne) halike, List.length_map]

/-- The leaves of a list are those of its items, in order. -/
theorem leaves_list (items : List (Document K)) : (list items).leaves = items.flatMap leaves := by
  have hitems : leavesOfItems items = items.flatMap leaves := by
    induction items with
    | nil => rfl
    | cons d ds ih => rw [leavesOfItems, ih, List.flatMap_cons]
  rw [leaves, hitems]

/-- The leaves of a list of numbers are the numbers. -/
theorem leaves_numbers (xs : List K) : (numbers xs).leaves = xs.map real := by
  rw [numbers, leaves_list, List.flatMap_map]
  exact List.map_eq_flatMap.symm

section Layers

variable {rows : List (List (List K))} {count size : Nat}

/-- Lists of equally many lists of one length have three directions. -/
theorem extents?_layers (hne : rows ≠ []) (hcount : 0 < count)
    (hrows : ∀ row ∈ rows, row.length = count)
    (hsizes : ∀ row ∈ rows, ∀ xs ∈ row, xs.length = size) :
    extents? (layers rows) = some [rows.length, count, size] := by
  have halike : ∀ d ∈ rows.map fun row => list (row.map numbers),
      extents? d = some [count, size] := by
    intro d hd
    obtain ⟨row, hrow, rfl⟩ := List.mem_map.mp hd
    have hnonempty : row ≠ [] := List.ne_nil_of_length_pos (by rwa [hrows row hrow])
    have hitems : ∀ d ∈ row.map (numbers : List K → Document K), extents? d = some [size] := by
      intro d hd
      obtain ⟨xs, hxs, rfl⟩ := List.mem_map.mp hd
      rw [extents?_numbers, hsizes row hrow xs hxs]
    rw [extents?_list (mt List.map_eq_nil_iff.mp hnonempty) hitems, List.length_map, hrows row hrow]
  rw [layers, extents?_list (mt List.map_eq_nil_iff.mp hne) halike, List.length_map]

/-- The leaves of a list of layers are the numbers in them, in order. -/
theorem leaves_layers (rows : List (List (List K))) :
    (layers rows).leaves = rows.flatten.flatten.map real := by
  have hrow (row : List (List K)) : (list (row.map numbers)).leaves = row.flatten.map real := by
    rw [leaves_list, List.flatMap_map, List.map_flatten, List.flatMap_def]
    congr 1
    exact List.map_congr_left fun xs _ => leaves_numbers xs
  rw [layers, leaves_list, List.flatMap_map, List.flatMap_congr fun row _ => hrow row,
    List.flatten_flatten, List.map_flatten, List.map_map, List.flatMap_def]
  rfl

end Layers

variable [Scalar K]

/-- Numbers are read as entries of a block. -/
theorem mapM_blockEntry (xs : List K) :
    (xs.map real).mapM blockEntry = (.ok xs : Except (Fault K) (List K)) := by
  induction xs with
  | nil => rfl
  | cons x xs ih =>
    rw [List.map_cons, List.mapM_cons, ih]
    rfl

/-- A list of numbers is a block with one direction. -/
theorem block_numbers (xs : List K) :
    (numbers xs).block = (.ok ⟨[xs.length], xs⟩ : Except (Fault K) (Block K)) := by
  have hshape : (numbers xs).shape = (.ok [xs.length] : Except (Fault K) (List Nat)) := by
    rw [shape, extents?_numbers]
    rfl
  rw [block, hshape, leaves_numbers, mapM_blockEntry]
  rfl

/-- Lists of lists of numbers are a block with three directions. -/
theorem block_layers {rows : List (List (List K))} {count size : Nat} (hne : rows ≠ [])
    (hcount : 0 < count) (hrows : ∀ row ∈ rows, row.length = count)
    (hsizes : ∀ row ∈ rows, ∀ xs ∈ row, xs.length = size) :
    (layers rows).block =
      (.ok ⟨[rows.length, count, size], rows.flatten.flatten⟩ : Except (Fault K) (Block K)) := by
  have hshape : (layers rows).shape =
      (.ok [rows.length, count, size] : Except (Fault K) (List Nat)) := by
    rw [shape, extents?_layers hne hcount hrows hsizes]
    rfl
  rw [block, hshape, leaves_layers, mapM_blockEntry]
  rfl

end Document

end FrameKinematics
