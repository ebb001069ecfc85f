import FrameKinematics.Rotation.Components
import FrameKinematics.Standards
import FrameKinematics.Transform

/-!
# Ground points

A point is given by its geodetic latitude and longitude in radians and its height in metres above
the WGS84 ellipsoid. Its local axes point east, north and up.
-/

namespace FrameKinematics

/-- A place by latitude, longitude and height. -/
structure Geodetic (K : Type) where
  latitude : K
  longitude : K
  height : K

namespace Geodetic

variable {K : Type} [Scalar K]

/-- The square of the eccentricity of the ellipsoid. -/
def eccentricitySq (K : Type) [Scalar K] : K :=
  Standards.earthFlattening K * (2.0 - Standards.earthFlattening K)

/-- The radius of curvature of the prime vertical. -/
def primeVerticalRadius (g : Geodetic K) : K :=
  let s := Scalar.sin g.latitude
  Standards.earthRadius K / Scalar.sqrt (1.0 - eccentricitySq K * (s * s))

/-- The Earth-fixed coordinates of a place. -/
def position (g : Geodetic K) : Vec3 K :=
  let n := g.primeVerticalRadius
  ⟨(n + g.height) * Scalar.cos g.latitude * Scalar.cos g.longitude,
   (n + g.height) * Scalar.cos g.latitude * Scalar.sin g.longitude,
   (n * (1.0 - eccentricitySq K) + g.height) * Scalar.sin g.latitude⟩

/-- The directions east, north and up, by rows, in Earth-fixed coordinates. -/
def axes (g : Geodetic K) : Mat3 K :=
  let sinLat := Scalar.sin g.latitude
  let cosLat := Scalar.cos g.latitude
  let sinLon := Scalar.sin g.longitude
  let cosLon := Scalar.cos g.longitude
  ⟨⟨-sinLon, cosLon, 0.0⟩,
   ⟨-sinLat * cosLon, -sinLat * sinLon, cosLat⟩,
   ⟨cosLat * cosLon, cosLat * sinLon, sinLat⟩⟩

/-- The Earth-fixed coordinates of the places of which a block holds latitudes, longitudes and
heights. -/
def positions (b : Block K) : Except (Fault K) (Block K) := do
  b.components 3 >>= Block.lift 3 fun
    | [latitude, longitude, height] => (position ⟨latitude, longitude, height⟩).toList
    | _ => []

/-- The direction, of which the height does not matter, that the first two components of a block
give. -/
def direction (b : Block K) : Except (Fault K) (Geodetic K) := do
  match ← (← b.components 2).mapM Block.number with
  | [latitude, longitude] => return ⟨latitude, longitude, 0.0⟩
  | _ => throw .missingEntry

/-- The place that the first three components of a block give. -/
def ofBlock (b : Block K) : Except (Fault K) (Geodetic K) := do
  match ← (← b.components 3).mapM Block.number with
  | [latitude, longitude, height] => return ⟨latitude, longitude, height⟩
  | _ => throw .missingEntry

/-- The place that the first three numbers of a document give. -/
def ofDocument (d : Document K) : Except (Fault K) (Geodetic K) := do ofBlock (← d.block)

end Geodetic

/-- A ground point with its position and axes worked out. -/
structure GroundPoint (K : Type) where
  origin : Vec3 K
  rotation : Rotation K

namespace GroundPoint

variable {K : Type} [Scalar K]

/-- The ground point at a place. -/
def ofGeodetic (g : Geodetic K) : Except (Fault K) (GroundPoint K) := do
  return ⟨g.position, ← Rotation.ofMatrix g.axes⟩

/-- The transform from the Earth-fixed frame to the local one, the same at every instant. -/
def transform (p : GroundPoint K) (date : Instant K) : Transform K :=
  .dated date (.atRest (-p.origin)) (.fixed p.rotation)

end GroundPoint

end FrameKinematics
