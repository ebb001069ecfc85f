import FrameKinematics.Calendar.Label
import FrameKinematics.Calendar.LeapSeconds
import FrameKinematics.Calendar.TimeScale
import FrameKinematics.Decimal.Group
import FrameKinematics.Decimal.Rounding
import FrameKinematics.Decimal.Shortest
import FrameKinematics.Description
import FrameKinematics.Document
import FrameKinematics.Document.Block
import FrameKinematics.Document.Literal
import FrameKinematics.Document.Numerals
import FrameKinematics.Document.Quantity
import FrameKinematics.Document.Reader
import FrameKinematics.Earth.Ground
import FrameKinematics.Earth.Pole
import FrameKinematics.Earth.Rotation
import FrameKinematics.Fault
import FrameKinematics.Fault.Message
import FrameKinematics.Frame
import FrameKinematics.Frame.Registry
import FrameKinematics.Instant
import FrameKinematics.Instant.Shift
import FrameKinematics.Interpolation.Hermite
import FrameKinematics.Interpolation.Motion
import FrameKinematics.Interpolation.Newton
import FrameKinematics.Interpolation.Samples
import FrameKinematics.Interpolation.Selection
import FrameKinematics.Interpolation.Transform
import FrameKinematics.Journal
import FrameKinematics.Journal.Record
import FrameKinematics.Line
import FrameKinematics.Linear.Matrix
import FrameKinematics.Linear.Vector
import FrameKinematics.Logging.Level
import FrameKinematics.Logging.Loggers
import FrameKinematics.Logging.Output
import FrameKinematics.Logging.Pattern
import FrameKinematics.Logging.Record
import FrameKinematics.Logging.Setup
import FrameKinematics.Motion
import FrameKinematics.Motion.Angular
import FrameKinematics.Motion.Rodrigues
import FrameKinematics.Operand
import FrameKinematics.Orbit
import FrameKinematics.Proofs.Calendar.CanonicalInstants
import FrameKinematics.Proofs.Calendar.ElapsedSeconds
import FrameKinematics.Proofs.Calendar.Fields
import FrameKinematics.Proofs.Calendar.LeapSecondTable
import FrameKinematics.Proofs.Calendar.NearestLabel
import FrameKinematics.Proofs.Calendar.RoundTrip
import FrameKinematics.Proofs.Calendar.UtcOffset
import FrameKinematics.Proofs.Document.Blocks
import FrameKinematics.Proofs.Document.QuantityOrder
import FrameKinematics.Proofs.Earth.GroundPoints
import FrameKinematics.Proofs.Earth.PoleMotion
import FrameKinematics.Proofs.Earth.PoleTable
import FrameKinematics.Proofs.Earth.SiderealTime
import FrameKinematics.Proofs.Frame.Ancestry
import FrameKinematics.Proofs.Frame.CommonAncestor
import FrameKinematics.Proofs.Frame.Descent
import FrameKinematics.Proofs.Frame.Forest
import FrameKinematics.Proofs.Frame.HopCalls
import FrameKinematics.Proofs.Frame.PathIndependence
import FrameKinematics.Proofs.Frame.Registration
import FrameKinematics.Proofs.Frame.RegistryHistory
import FrameKinematics.Proofs.Interpolation.ChangeOfAxes
import FrameKinematics.Proofs.Interpolation.DatedSamples
import FrameKinematics.Proofs.Interpolation.HermiteInterpolant
import FrameKinematics.Proofs.Interpolation.LinearImages
import FrameKinematics.Proofs.Interpolation.NewtonForm
import FrameKinematics.Proofs.Interpolation.NewtonValues
import FrameKinematics.Proofs.Interpolation.PolynomialSamples
import FrameKinematics.Proofs.Interpolation.Purity
import FrameKinematics.Proofs.Interpolation.SampleOrder
import FrameKinematics.Proofs.Interpolation.SteadyRotation
import FrameKinematics.Proofs.Interpolation.ThroughSamples
import FrameKinematics.Proofs.Line.NormalForm
import FrameKinematics.Proofs.Line.Projection
import FrameKinematics.Proofs.Line.Reversal
import FrameKinematics.Proofs.Linear.Derivatives
import FrameKinematics.Proofs.Linear.EntryBounds
import FrameKinematics.Proofs.Linear.MatrixAlgebra
import FrameKinematics.Proofs.Linear.ScalarProduct
import FrameKinematics.Proofs.Linear.SkewMatrices
import FrameKinematics.Proofs.Linear.VectorAlgebra
import FrameKinematics.Proofs.Logging.Configuration
import FrameKinematics.Proofs.Logging.ConfiguredLevels
import FrameKinematics.Proofs.Logging.LoggerTree
import FrameKinematics.Proofs.Logging.RefusedLevels
import FrameKinematics.Proofs.Motion.ChangeOfAxes
import FrameKinematics.Proofs.Motion.ChangeOfFrame
import FrameKinematics.Proofs.Motion.Consistency
import FrameKinematics.Proofs.Motion.ExtrapolatedRate
import FrameKinematics.Proofs.Motion.Extrapolation
import FrameKinematics.Proofs.Motion.FixedAxis
import FrameKinematics.Proofs.Motion.Jets
import FrameKinematics.Proofs.Motion.MovingAxes
import FrameKinematics.Proofs.Motion.OrbitalAxes
import FrameKinematics.Proofs.Motion.Paths
import FrameKinematics.Proofs.Motion.RateEstimation
import FrameKinematics.Proofs.Motion.Rodrigues
import FrameKinematics.Proofs.Motion.RodriguesInverse
import FrameKinematics.Proofs.Motion.SteadyRotation
import FrameKinematics.Proofs.Rotation.Composition
import FrameKinematics.Proofs.Rotation.Distance
import FrameKinematics.Proofs.Rotation.ElementaryTurns
import FrameKinematics.Proofs.Rotation.MatrixAcceptance
import FrameKinematics.Proofs.Rotation.MatrixForm
import FrameKinematics.Proofs.Rotation.MatrixReading
import FrameKinematics.Proofs.Rotation.MatrixRoundTrip
import FrameKinematics.Proofs.Rotation.Opposite
import FrameKinematics.Proofs.Rotation.ReadingError
import FrameKinematics.Proofs.Rotation.RotationVector
import FrameKinematics.Proofs.Rotation.SafeReading
import FrameKinematics.Proofs.Rotation.StoredQuaternion
import FrameKinematics.Proofs.Rotation.UnitQuaternion
import FrameKinematics.Proofs.Rotation.VectorRoundTrip
import FrameKinematics.Proofs.Scalar.Checked
import FrameKinematics.Proofs.Scalar.DoubleArithmetic
import FrameKinematics.Proofs.Scalar.DoubleRounding
import FrameKinematics.Proofs.Scalar.DoubleValues
import FrameKinematics.Proofs.Scalar.Real
import FrameKinematics.Proofs.Scalar.RoundedSums
import FrameKinematics.Proofs.Scalar.Rounding
import FrameKinematics.Proofs.Source.AcceptedSettings
import FrameKinematics.Proofs.Source.CountedCalls
import FrameKinematics.Proofs.Source.FailedRequests
import FrameKinematics.Proofs.Source.GridRequests
import FrameKinematics.Proofs.Source.GridSampling
import FrameKinematics.Proofs.Source.GridTransparency
import FrameKinematics.Proofs.Source.GridWindow
import FrameKinematics.Proofs.Source.Purity
import FrameKinematics.Proofs.Source.RecentUse
import FrameKinematics.Proofs.Source.Runs
import FrameKinematics.Proofs.Source.SampleHistory
import FrameKinematics.Proofs.Source.SampleStore
import FrameKinematics.Proofs.Source.SampleUses
import FrameKinematics.Proofs.Source.SlotHistory
import FrameKinematics.Proofs.Source.SlotRequests
import FrameKinematics.Proofs.Source.SurfacedFailures
import FrameKinematics.Proofs.Transform.Composition
import FrameKinematics.Proofs.Transform.Extrapolation
import FrameKinematics.Proofs.Transform.FixedAxis
import FrameKinematics.Proofs.Transform.Freezing
import FrameKinematics.Proofs.Transform.Jacobian
import FrameKinematics.Proofs.Transform.LineImages
import FrameKinematics.Proofs.Transform.Placement
import FrameKinematics.Proofs.Transform.Shortcuts
import FrameKinematics.Rotation
import FrameKinematics.Rotation.Quaternion
import FrameKinematics.Scalar
import FrameKinematics.Scalar.Binary64
import FrameKinematics.Session
import FrameKinematics.Session.Transforms
import FrameKinematics.Session.Values
import FrameKinematics.Source
import FrameKinematics.Source.Grid
import FrameKinematics.Source.Guard
import FrameKinematics.Source.Laws
import FrameKinematics.Source.Memory
import FrameKinematics.Source.SampleStore
import FrameKinematics.Source.Settings
import FrameKinematics.Source.Slot
import FrameKinematics.Standards
import FrameKinematics.Text.Capital
import FrameKinematics.Text.Padding
import FrameKinematics.Text.Printable
import FrameKinematics.Text.Quoted
import FrameKinematics.Text.Template
import FrameKinematics.Transform
import FrameKinematics.Proofs.Source.RecalledTransforms
