import FrameKinematics.Source
import FrameKinematics.Proofs.Source.Runs

/-!
# Sources that follow a law

A source may count its calls and number its transforms, and still give transforms that depend on
the instant alone. Such a source follows a law. What it does to memory besides concerns no slot and
no sample store, and does not change whether the journal is strict.
-/

namespace FrameKinematics.Source

variable {K : Type}

/-- A computed transform gets a number, which concerns no sample store. -/
theorem compute_computes (result : Except (Fault K) (Transform K)) :
    (Computed.transform <$> compute result).Computes result := by
  intro memory
  cases result with
  | ok t => exact ⟨rfl, rfl, rfl, rfl⟩
  | error fault => exact ⟨rfl, rfl, rfl, rfl⟩

variable [Scalar K]

/-- The transform of a source at an instant, without its number. -/
def ask (source : Source K) (date : Instant K) : Run K (Transform K) :=
  Computed.transform <$> source.serve date

/-- Asking for a transform leaves memory as computing the numbered transform does. -/
theorem after_ask (source : Source K) (date : Instant K) (memory : Memory K) :
    (source.ask date).after memory = (source.serve date).after memory :=
  Run.after_map memory _ _

/-- The transform of a source at an instant is what a law gives, whatever memory holds. -/
def Follows (source : Source K) (law : Law K) : Prop :=
  ∀ date, (source.ask date).Computes (law date)

/-- A transform that is computed from the instant alone is the same whatever memory holds. -/
theorem follows_of_serve_eq {source : Source K} {law : Law K}
    (h : ∀ date, source.serve date = compute (law date)) : source.Follows law := by
  intro date
  rw [ask, h]
  exact compute_computes (law date)

/-- A fixed source gives its transform at every instant. -/
theorem fixed_follows (t : Transform K) :
    (fixed t).Follows fun date => .ok (.dated date t.cartesian t.angular) :=
  follows_of_serve_eq fun _ => rfl

/-- The source of a ground point follows the point. -/
theorem topocentric_follows (point : GroundPoint K) :
    (topocentric point).Follows fun date => .ok (point.transform date) :=
  follows_of_serve_eq fun _ => rfl

/-- The source of a spacecraft follows its orbit. -/
theorem localOrbital_follows (orbit : Orbit K) (axes : OrbitalAxes) :
    (localOrbital orbit axes).Follows fun date => (do axes.transform date (← orbit date)) :=
  follows_of_serve_eq fun _ => rfl

/-- A source from outside follows its law, though it counts its calls. -/
theorem external_follows (name : String) (law : Law K) (calls : Nat) :
    (external name law calls).Follows law := by
  intro date memory
  let counted : Memory K :=
    { memory with calls := memory.calls.setIfInBounds calls (memory.calls.getD calls 0 + 1) }
  obtain ⟨hresult, hagrees⟩ := compute_computes (law date) counted
  exact ⟨hresult, hagrees.slots_eq, hagrees.stores_eq, hagrees.strict_eq⟩

end FrameKinematics.Source
