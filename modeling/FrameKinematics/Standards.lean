import FrameKinematics.Scalar

/-!
# Standards

Standard values: constants of time scales, of the WGS84 ellipsoid and of Earth rotation, and the default
settings of interpolation. Derived constants are computed over the scalars in use.
-/

namespace FrameKinematics.Standards

variable (K : Type) [Scalar K]

/-- Degrees in a radian. -/
def degreesPerRadian : K := 180.0 / Scalar.pi

/-- Radians in a degree. -/
def radiansPerDegree : K := Scalar.pi / 180.0

/-- Radians in an arc second. -/
def radiansPerArcsecond : K := radiansPerDegree K / 3600.0

/-- Seconds in a day. -/
def secondsPerDay : K := 86400.0

/-- Seconds in a Julian century. -/
def secondsPerCentury : K := 36525.0 * secondsPerDay K

/-- The Julian date of J2000.0 in TT. -/
def julianJ2000 : K := 2451545.0

/-- TT minus TAI in seconds. -/
def ttMinusTai : K := 32.184

/-- TAI minus GPS time in seconds. -/
def taiMinusGps : K := 19.0

/-- The semimajor axis of the WGS84 ellipsoid in metres. -/
def earthRadius : K := 6378137.0

/-- The flattening of the WGS84 ellipsoid. -/
def earthFlattening : K := 1.0 / 298.257223563

/-- The angular velocity of the Earth in radians per second. -/
def earthRate : K := 7.2921151467e-5

/-- The drift of the terrestrial intermediate origin, about minus forty-seven millionths of an
arc second per century, in radians per century. -/
def originDrift : K := -47e-6 * radiansPerArcsecond K

/-- The default grid step in seconds. -/
def gridStep : K := 60.0

/-- The default number of grid points of an interpolation. -/
def gridPoints : Int := 5

/-- The default number of raw samples that an interpolating source keeps. -/
def cacheSize : Int := 50

/-- TAI minus UTC at the GPS epoch in seconds. -/
def taiMinusUtcAtGpsEpoch : Int := 19

end FrameKinematics.Standards
