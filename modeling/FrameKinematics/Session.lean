import FrameKinematics.Document.Numerals
import FrameKinematics.Frame.Registry
import FrameKinematics.Logging.Loggers

/-!
# Sessions

A session works on the memory of sources and on loggers, and keeps values under names. Values that hold
state, such as sources and registries, are shared by all names they have. Every value has a
key, and two names stand for the same value when the keys agree.
-/

namespace FrameKinematics

/-- A value that a session can keep. Registries and slots are kept by number. -/
inductive Value (K : Type) where
  | instant (t : Instant K)
  | rotation (r : Rotation K)
  | motion (m : Motion K)
  | angular (a : AngularMotion K)
  | line (l : Line K)
  | transform (t : Transform K)
  | source (s : Source K)
  | frame (f : Frame (Source K))
  | registry (i : Nat)
  | cache (slot : Nat)
  | gridSettings (s : GridSettings K)
  | registrySettings (s : RegistrySettings K)
  | nothing

/-- What makes a value the same as another one. -/
inductive ValueKey where
  /-- A value that is there from the start. -/
  | constant (name : String)
  /-- A transform by the number of its computation. -/
  | computed (serial : Nat)
  /-- A frame by its tag. -/
  | frame (tag : Nat)
  /-- Any other value, by the order of creation. -/
  | created (n : Nat)
deriving DecidableEq, Repr

/-- A value with its key. -/
structure Keyed (α : Type) where
  value : α
  key : ValueKey

/-- The state of a session. -/
structure Session (K : Type) where
  memory : Memory K := {}
  values : List (String × Keyed (Value K)) := []
  registries : Array (Registry K) := #[]
  created : Nat := 0
  loggers : Loggers := {}

/-- Why a session does not answer. -/
inductive Refusal (K : Type) where
  | fault (f : Fault K)
  /-- A request that cannot be read. -/
  | unreadable

/-- A computation in a session. What it changed before a failure stays changed. -/
abbrev Act (K : Type) := ExceptT (Refusal K) (StateM (Session K))

namespace Act

variable {K : Type}

/-- Refuses a request that cannot be read. -/
def unreadable {α : Type} : Act K α := throw .unreadable

/-- Fails. -/
def fail {α : Type} (f : Fault K) : Act K α := throw (.fault f)

/-- The result of a computation that may fail. -/
def ok {α : Type} : Except (Fault K) α → Act K α
  | .ok a => return a
  | .error f => fail f

/-- Runs a computation on the memory of sources. -/
def run {α : Type} (computation : Run K α) : Act K α := do
  let (result, memory) := ExceptT.run computation (← get).memory
  modify fun s => { s with memory := memory }
  ok result

/-- Reads something from the memory of sources. -/
def peek {α : Type} (f : Memory K → α) : Act K α := do return f (← get).memory

/-- Gives a value that was just created its key. -/
def created {α : Type} (value : α) : Act K (Keyed α) := do
  let n := (← get).created
  modify fun s => { s with created := n + 1 }
  return ⟨value, .created n⟩

/-- The value under a name. -/
def lookup (name : String) : Act K (Keyed (Value K)) := do
  match (← get).values.find? fun entry => entry.1 == name with
  | some (_, found) => return found
  | none => unreadable

/-- Keeps a value under a name. -/
def keep (name : String) (value : Keyed (Value K)) : Act K Unit :=
  modify fun s => { s with values := (name, value) :: s.values.filter fun e => e.1 != name }

/-- The value that a document refers to by name, if it does. -/
def reference? [Scalar K] (d : Document K) : Act K (Option (Keyed (Value K))) :=
  match d.get? "ref" with
  | some (.text name) => some <$> lookup name
  | some _ => unreadable
  | none => return none

/-- The value of a certain kind that a document refers to by name, or what `build` makes of it
if it does not refer to one. A value of another kind lacks what is needed, and a document that
cannot hold anything describes no value. -/
def referenceOr [Scalar K] {α : Type} (select : Value K → Option α)
    (build : Document K → Act K (Keyed α)) (d : Document K) : Act K (Keyed α) := do
  match ← reference? d with
  | some found =>
    match select found.value with
    | some a => return ⟨a, found.key⟩
    | none => fail .noMember
  | none => if d.isContainer then build d else fail .wrongKind

/-- The registry under a number. -/
def registry (i : Nat) : Act K (Registry K) := do
  match (← get).registries[i]? with
  | some r => return r
  | none => unreadable

/-- Keeps a new registry, and gives its number. -/
def addRegistry (r : Registry K) : Act K Nat := do
  let i := (← get).registries.size
  modify fun s => { s with registries := s.registries.push r }
  return i

/-- Replaces a registry. -/
def setRegistry (i : Nat) (r : Registry K) : Act K Unit :=
  modify fun s => { s with registries := s.registries.setIfInBounds i r }

/-- Builds a registry and keeps it, and gives its number. -/
def newRegistry [Scalar K] (settings : RegistrySettings K) : Act K Nat := do
  addRegistry (← run (Registry.build settings))

/-- Has a registry add a frame. A registry that refuses to is left as it is. -/
def extendRegistry (i : Nat) (add : Registry K → Run K (Frame (Source K) × Registry K)) :
    Act K (Frame (Source K)) := do
  let (frame, r) ← run (add (← registry i))
  setRegistry i r
  return frame

end Act

end FrameKinematics
