import FrameKinematics.Scalar

/-!
# Instants

An instant on a continuous time line is a number of whole seconds since the J2000.0 epoch and
a fraction of a second. The whole part is an unbounded integer, so the resolution near an
instant does not depend on how far it is from the epoch.
-/

namespace FrameKinematics

/-- An instant: `seconds + fraction` seconds after J2000.0, where the fraction is meant to lie
in `[0, 1)`. -/
@[ext]
structure Instant (K : Type) where
  seconds : Int
  fraction : K

namespace Instant

variable {K : Type} [Scalar K]

/-- The J2000.0 epoch. -/
def j2000 : Instant K := ⟨0, 0.0⟩

/-- Two instants are equal when both parts are. -/
instance : BEq (Instant K) := ⟨fun a b => a.seconds == b.seconds && a.fraction == b.fraction⟩

/-- Whether `a` comes before `b`: by the whole seconds first, then by the fraction. -/
def before (a b : Instant K) : Bool :=
  decide (a.seconds < b.seconds) || (a.seconds == b.seconds && decide (a.fraction < b.fraction))

/-- Whether `a` does not come after `b`. -/
def notAfter (a b : Instant K) : Bool :=
  decide (a.seconds < b.seconds) || (a.seconds == b.seconds && decide (a.fraction ≤ b.fraction))

/-- Sorts entries by the instants they carry; entries of one instant keep their order. -/
def sortOn {α : Type} (key : α → Instant K) (entries : List α) : List α :=
  entries.mergeSort fun a b => !before (key b) (key a)

/-- How many different instants a list holds. -/
def distinct (instants : List (Instant K)) : Nat :=
  (instants.foldl (fun seen t => if seen.contains t then seen else t :: seen) []).length

end Instant

end FrameKinematics
