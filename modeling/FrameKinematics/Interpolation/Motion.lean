import FrameKinematics.Instant.Shift
import FrameKinematics.Interpolation.Hermite
import FrameKinematics.Interpolation.Selection

/-!
# Interpolation of motions

Dated motions of points are interpolated as vectors. Dated angular motions are interpolated
after removal of a model that rotates uniformly: what is left turns little, and its modified
Rodrigues parameters are interpolated as vectors.
-/

namespace FrameKinematics

variable {K : Type} [Scalar K]
variable {m : Type → Type} [Monad m] [Journal K m] [MonadExceptOf (Fault K) m]

/-- The instants of a sample in seconds from an instant. -/
def abscissaeFrom (date : Instant K) {α : Type} (sample : List (Instant K × α)) :
    Except (Fault K) (List K) :=
  sample.mapM fun entry => entry.1.since date

/-- The first of the abscissae nearest to zero, with what goes with it. -/
def nearestToZero {α : Type} : List (K × α) → Option (K × α)
  | [] => none
  | entry :: entries =>
    some (entries.foldl (fun best e => if Scalar.abs e.1 < Scalar.abs best.1 then e else best) entry)

namespace Motion

/-- The motion at an instant of the polynomial through a sample, given in any order. -/
def interpolate (date : Instant K) (selection : Selection) (sample : List (Instant K × Motion K)) :
    m (Motion K) := do
  let sorted := Instant.sortOn Prod.fst sample
  let xs ← ofExcept (abscissaeFrom date sorted)
  let values := sorted.map fun (_, motion) =>
    [motion.position, motion.velocity, motion.acceleration].take (selection.order + 1)
  let ⟨p, v, a⟩ ← Hermite.vectors selection.order xs values 0.0
  return ⟨p, v, a⟩

end Motion

namespace AngularMotion

/-- The rates between successive rotations. -/
def ratesBetween : List (K × AngularMotion K) → Except (Fault K) (List (Vec3 K))
  | (t, a) :: (u, b) :: rest => do
    return (← estimateRate a.rotation b.rotation (u - t)) :: (← ratesBetween ((u, b) :: rest))
  | _ => return []

/-- The mean rate of a sample in order: of the rates given where the selection uses them, and of
the rates between successive rotations otherwise. -/
def meanRate (selection : Selection) (sample : List (K × AngularMotion K)) :
    Except (Fault K) (Vec3 K) := do
  match selection with
  | .valueOnly => return .mean (← ratesBetween sample)
  | _ => return .mean (sample.map fun (_, a) => a.rate)

/-- An angular motion without the derivatives that a selection leaves out. -/
def selected (selection : Selection) (a : AngularMotion K) : AngularMotion K :=
  match selection with
  | .valueOnly => ⟨a.rotation, .zero, .zero⟩
  | .withFirst => ⟨a.rotation, a.rate, .zero⟩
  | .withSecond => a

/-- What is left of an angular motion, as Rodrigues parameters, after the removal of a reference
that has gone on for `dt` seconds. -/
def residual (selection : Selection) (reference : AngularMotion K) (dt : K) (a : AngularMotion K) :
    Except (Fault K) (List (Vec3 K)) := do
  let left ← compose (← reference.shift dt).revert (selected selection a)
  let ⟨p, p', p''⟩ := left.toRodrigues
  return [p, p', p''].take (selection.order + 1)

/-- The angular motion at an instant that goes through a sample, given in any order. The
reference rotates at the mean rate and meets the sample nearest to the instant. -/
def interpolate (date : Instant K) (selection : Selection)
    (sample : List (Instant K × AngularMotion K)) : m (AngularMotion K) := do
  let sorted := Instant.sortOn Prod.fst sample
  let xs ← ofExcept (abscissaeFrom date sorted)
  ofExcept (Hermite.checkAbscissae xs)
  let entries := xs.zip (sorted.map Prod.snd)
  let rate ← ofExcept (meanRate selection entries)
  match nearestToZero entries with
  | none => throw (.tooFewPoints 0 Hermite.minimumSize)
  | some (x₀, a₀) =>
    let reference : AngularMotion K := ⟨a₀.rotation, rate, .zero⟩
    let values ← ofExcept (entries.mapM fun (x, a) => residual selection reference (x - x₀) a)
    let parameters ← Hermite.vectors selection.order xs values 0.0
    let left ← ofExcept (ofRodrigues parameters)
    ofExcept do compose (← reference.shift (-x₀)) left

end AngularMotion

end FrameKinematics
