import FrameKinematics.Source

/-!
# Simple laws

Laws of simple motions about the third axis and along straight lines, and a law that only fails.
Time is counted from J2000.0. The numbers of a law are taken from a document as they are, so a
wrong one is a fault of the law and not of its source.
-/

namespace FrameKinematics.Law

variable {K : Type} [Scalar K]

/-- The number that a document gives to an operation, which refuses anything else in the words
that `refusal` makes of its kind. -/
def operandOf (refusal : String → String) (d : Document K) : Except (Fault K) (Quantity K) :=
  match Quantity.ofDocument? d with
  | some q => return q
  | none => throw (.wrongKind (refusal d.kindName))

/-- How a document that is no number is refused as a factor of a scalar. -/
def factorRefusal (kind : String) : String :=
  if kind = "str" || kind = "list" then "can't multiply sequence by non-int of type 'float'"
  else "unsupported operand type(s) for *: '" ++ kind ++ "' and 'float'"

/-- A frame that spins about the third axis. The rate is looked at when it is needed. -/
def spinning (rate : Document K) : Law K := fun date => do
  let elapsed ← date.sinceJ2000
  let rate ← operandOf (fun kind => "bad operand type for unary -: '" ++ kind ++ "'") rate
  let turned ← Rotation.ofAxisAngle .unitZ ((← rate.negated.toScalar) * elapsed)
  return .ofRotation date ⟨turned, ⟨0.0, 0.0, ← rate.toScalar⟩, .zero⟩

/-- A frame whose origin goes around the unit circle and whose first axis points back to the
centre. Counted from `start`, there may be a time after which there are no transforms; it is
looked at before the rate. A finite rate whose square is not finite is a fault. -/
def circling (rate limit : Document K) (start : Instant K) : Law K := fun date => do
  let elapsed ← date.since start
  if !limit.isNull then
    let limit ← operandOf
      (fun kind => "'>' not supported between instances of 'float' and '" ++ kind ++ "'") limit
    if limit.less (.real elapsed) then throw (.reported .value "no data")
  let rate ← (← operandOf factorRefusal rate).toScalar
  let square ← Scalar.boundedPower rate 2
  let c := Scalar.cos (rate * elapsed)
  let s := Scalar.sin (rate * elapsed)
  let translation : Motion K :=
    ⟨⟨-c, -s, 0.0⟩, ⟨rate * s, -rate * c, 0.0⟩, ⟨square * c, square * s, 0.0⟩⟩
  let turned ← Rotation.ofAxisAngle .unitZ (Scalar.pi - rate * elapsed)
  Transform.compose date (.ofTranslation date translation)
    (.ofRotation date ⟨turned, ⟨0.0, 0.0, rate⟩, .zero⟩)

/-- A frame whose origin moves along a straight line. The velocity has to be a vector when it is
needed. -/
def drifting (velocity : Block K) : Law K := fun date => do
  let elapsed ← date.sinceJ2000
  let velocity ← velocity.vector
  return .ofTranslation date ⟨elapsed • velocity, velocity, .zero⟩

/-- No transform at all, but always the same failure. -/
def failing (kind : ReportKind) (words : String) : Law K := fun _ =>
  throw (.reported kind words)

end FrameKinematics.Law
