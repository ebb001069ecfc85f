import FrameKinematics.Calendar.TimeScale
import FrameKinematics.Journal

/-!
# Guarded requests

A source that uses another one reports the failures of the other as failures of a source, with
its name and the instant. A failure that says so already passes unchanged.
-/

namespace FrameKinematics

variable {K : Type} [Scalar K]
variable {m : Type → Type} [Monad m] [Journal K m] [MonadExceptOf (Fault K) m]

/-- Asks another source at an instant. If the instant has no label, that is the failure. -/
def guarded {α : Type} (source : String) (request : Instant K → m α) (date : Instant K) : m α :=
  tryCatch (request date) fun fault => do
    if fault.isSourceFailure then throw fault
    let label ← ofExcept date.text
    Journal.note (.sourceFailed source label fault)
    throw (.sourceFailed source date label fault)

end FrameKinematics
