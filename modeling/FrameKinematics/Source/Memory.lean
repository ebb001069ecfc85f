import FrameKinematics.Source.SampleStore
import FrameKinematics.Source.Slot
import FrameKinematics.Journal
import FrameKinematics.Transform

/-!
# The memory of sources

What sources remember between requests: slots, sample stores and counts of calls, each under a
number that the source holds. Memory also numbers the transforms that are computed and the
frames that are created, and keeps the journal. A run may fail, and what it remembered until
then stays.
-/

namespace FrameKinematics

/-- A transform with the number of the computation that gave it. A stored transform keeps its
number, so it can be told from an equal one that was computed anew. -/
structure Computed (K : Type) where
  serial : Nat
  transform : Transform K

/-- What sources remember between requests. -/
structure Memory (K : Type) where
  slots : Array (Slot K (Computed K)) := #[]
  stores : Array (SampleStore (Transform K)) := #[]
  calls : Array Nat := #[]
  computed : Nat := 0
  frames : Nat := 0
  /-- Whether the journal is strict. -/
  isJournalStrict : Bool := false
  /-- The events noted so far, the latest first. -/
  events : List (Event K) := []

/-- A computation that uses the memory of sources and may fail. -/
abbrev Run (K : Type) := ExceptT (Fault K) (StateM (Memory K))

namespace Run

variable {K : Type}

/-- Reads something from memory. -/
def read {α : Type} (f : Memory K → α) : Run K α := do return f (← get)

/-- Changes memory. -/
def update (f : Memory K → Memory K) : Run K Unit := modify f

instance : Journal K (Run K) where
  isStrict := read Memory.isJournalStrict
  note event := update fun memory => { memory with events := event :: memory.events }

/-- The slot under a number. -/
def slot (i : Nat) : Cell (Run K) (Slot K (Computed K)) where
  get := read fun memory => memory.slots.getD i {}
  set s := update fun memory => { memory with slots := memory.slots.setIfInBounds i s }

/-- The sample store under a number. -/
def store (i : Nat) : Cell (Run K) (SampleStore (Transform K)) where
  get := read fun memory => memory.stores.getD i {}
  set s := update fun memory => { memory with stores := memory.stores.setIfInBounds i s }

/-- The count of calls under a number. -/
def calls (i : Nat) : Cell (Run K) Nat where
  get := read fun memory => memory.calls.getD i 0
  set n := update fun memory => { memory with calls := memory.calls.setIfInBounds i n }

/-- The number of a new, empty slot. -/
def newSlot : Run K Nat := do
  let i ← read fun memory => memory.slots.size
  update fun memory => { memory with slots := memory.slots.push {} }
  return i

/-- The number of a new, empty sample store. -/
def newStore : Run K Nat := do
  let i ← read fun memory => memory.stores.size
  update fun memory => { memory with stores := memory.stores.push {} }
  return i

/-- The number of a new count of calls. -/
def newCalls : Run K Nat := do
  let i ← read fun memory => memory.calls.size
  update fun memory => { memory with calls := memory.calls.push 0 }
  return i

/-- Gives a transform that was just computed its number. -/
def computed (transform : Transform K) : Run K (Computed K) := do
  let serial ← read fun memory => memory.computed
  update fun memory => { memory with computed := serial + 1 }
  return ⟨serial, transform⟩

/-- The number of a new frame. -/
def newFrame : Run K Nat := do
  let tag ← read fun memory => memory.frames
  update fun memory => { memory with frames := tag + 1 }
  return tag

end Run

end FrameKinematics
