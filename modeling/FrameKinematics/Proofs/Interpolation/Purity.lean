import FrameKinematics.Interpolation.Transform
import FrameKinematics.Proofs.Source.Runs

/-!
# Interpolation as a computation

Interpolation reports samples that are too large for comfort and otherwise computes from its
sample alone. With a memory it therefore has the outcome that it has without one.
-/

namespace FrameKinematics

variable {K : Type}

/-- A warning is given or not, but nothing depends on it. -/
theorem Hermite.warn_computes (count : Nat) :
    (Hermite.warn count : Run K Unit).Computes (Hermite.warn count) := by
  rw [Hermite.warn, Hermite.warn]
  split
  · exact Run.computes_note _
  · exact Run.computes_pure ()

variable [Scalar K]

/-- The interpolation of vectors computes them coordinate by coordinate. -/
theorem Hermite.vectors_computes (order : Nat) (xs : List K) (samples : List (List (Vec3 K)))
    (x : K) : (Hermite.vectors order xs samples x : Run K _).Computes
      (Hermite.vectors order xs samples x) := by
  refine (Run.computes_ofExcept (Hermite.checkAbscissae xs)).bind fun _ => ?_
  refine (Hermite.warn_computes _).bind fun _ => ?_
  refine (Run.computes_ofExcept _).bind fun a => ?_
  refine (Run.computes_ofExcept _).bind fun b => ?_
  refine (Run.computes_ofExcept _).bind fun c => ?_
  exact Run.computes_pure _

/-- The interpolation of motions computes them from the sample. -/
theorem Motion.interpolate_computes (date : Instant K) (selection : Selection)
    (sample : List (Instant K × Motion K)) :
    (Motion.interpolate date selection sample : Run K _).Computes
      (Motion.interpolate date selection sample) := by
  refine (Run.computes_ofExcept _).bind fun xs => ?_
  refine (Hermite.vectors_computes _ _ _ _).bind fun jet => ?_
  exact Run.computes_pure _

/-- The interpolation of angular motions computes them from the sample. -/
theorem AngularMotion.interpolate_computes (date : Instant K) (selection : Selection)
    (sample : List (Instant K × AngularMotion K)) :
    (AngularMotion.interpolate date selection sample : Run K _).Computes
      (AngularMotion.interpolate date selection sample) := by
  refine (Run.computes_ofExcept _).bind fun xs => ?_
  refine (Run.computes_ofExcept (Hermite.checkAbscissae xs)).bind fun _ => ?_
  refine (Run.computes_ofExcept _).bind fun rate => ?_
  split
  · exact Run.computes_throw _
  · refine (Run.computes_ofExcept _).bind fun values => ?_
    refine (Hermite.vectors_computes _ _ _ _).bind fun parameters => ?_
    refine (Run.computes_ofExcept _).bind fun left => ?_
    exact Run.computes_ofExcept _

/-- The interpolation of transforms computes them from the sample. -/
theorem Transform.interpolate_computes (date : Instant K) (sample : List (Transform K))
    (cartesian angular : Choice) :
    (Transform.interpolate date sample cartesian angular : Run K _).Computes
      (Transform.interpolate date sample cartesian angular) := by
  refine (Run.computes_ofExcept _).bind fun selection => ?_
  refine (Motion.interpolate_computes _ _ _).bind fun c => ?_
  refine (Run.computes_ofExcept _).bind fun selection => ?_
  refine (AngularMotion.interpolate_computes _ _ _).bind fun a => ?_
  exact Run.computes_pure _

end FrameKinematics
