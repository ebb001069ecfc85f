import Mathlib.Analysis.SpecialFunctions.Pow.Real
import Mathlib.Analysis.SpecialFunctions.Trigonometric.Deriv
import FrameKinematics.Proofs.Motion.OrbitalAxes
import FrameKinematics.Proofs.Rotation.SafeReading
import FrameKinematics.Earth.Ground

/-!
# Local axes of ground points

A place at a height above the ellipsoid lies on the line from the foot of the height along the up
direction. As its latitude and longitude change, the place moves along the north and the east
direction, by the radii of curvature of the ellipsoid with the height added to them. So the axes,
which are computed without the ellipsoid, are tangent and normal to it, and they are orthonormal for
all latitudes and longitudes.
-/

namespace FrameKinematics

namespace Geodetic

section Ellipsoid

/-- The flattening is a proper fraction. -/
theorem earthFlattening_mem : Standards.earthFlattening ℝ ∈ Set.Ioo 0 1 := by
  norm_num [Standards.earthFlattening]

/-- The axes of the ellipsoid are in the ratio of the root of one minus the square of the
eccentricity. -/
theorem one_sub_eccentricitySq : 1 - eccentricitySq ℝ = (1 - Standards.earthFlattening ℝ) ^ 2 := by
  rw [eccentricitySq, Scalar.two_literal]
  ring

/-- The square of the eccentricity is a proper fraction. -/
theorem eccentricitySq_mem : eccentricitySq ℝ ∈ Set.Ioo 0 1 := by
  obtain ⟨hpos, hlt⟩ := earthFlattening_mem
  have hsquare : 0 < 1 - eccentricitySq ℝ := by
    rw [one_sub_eccentricitySq]
    exact pow_pos (sub_pos.mpr hlt) 2
  refine ⟨?_, sub_pos.mp hsquare⟩
  rw [eccentricitySq, Scalar.two_literal]
  exact mul_pos hpos (by linarith)

/-- The number whose root divides the radius of the equator. -/
noncomputable def radicand (latitude : ℝ) : ℝ :=
  1 - eccentricitySq ℝ * Real.sin latitude ^ 2

/-- The root is taken of a positive number at every latitude. -/
theorem radicand_pos (latitude : ℝ) : 0 < radicand latitude := by
  obtain ⟨hpos, hlt⟩ := eccentricitySq_mem
  have hsine := Real.sin_sq_le_one latitude
  have hproduct : eccentricitySq ℝ * Real.sin latitude ^ 2 ≤ eccentricitySq ℝ :=
    mul_le_of_le_one_right hpos.le hsine
  exact sub_pos.mpr (hproduct.trans_lt hlt)

end Ellipsoid

section Axes

variable (g : Geodetic ℝ)

/-- The first axis points east. -/
theorem axes_top : g.axes.top = ⟨-Real.sin g.longitude, Real.cos g.longitude, 0⟩ := by
  rw [axes, Scalar.zero_literal]
  rfl

/-- The second axis points north. -/
theorem axes_middle : g.axes.middle = ⟨-Real.sin g.latitude * Real.cos g.longitude,
    -Real.sin g.latitude * Real.sin g.longitude, Real.cos g.latitude⟩ := rfl

/-- The third axis points up. -/
theorem axes_bottom : g.axes.bottom = ⟨Real.cos g.latitude * Real.cos g.longitude,
    Real.cos g.latitude * Real.sin g.longitude, Real.sin g.latitude⟩ := rfl

/-- North is the vector product of up and east. -/
theorem bottom_cross_top : g.axes.bottom.cross g.axes.top = g.axes.middle := by
  have hcircle := Real.sin_sq_add_cos_sq g.longitude
  rw [axes_top, axes_middle, axes_bottom]
  ext
  · simp
  · simp
  · simp only [Vec3.cross_z]
    linear_combination Real.cos g.latitude * hcircle

/-- The axes of a place are a right-handed orthonormal system. -/
theorem isSpecialOrthogonal_axes : g.axes.IsSpecialOrthogonal := by
  have hcircle := Real.sin_sq_add_cos_sq g.longitude
  have hcircle' := Real.sin_sq_add_cos_sq g.latitude
  have heast : g.axes.top.dot g.axes.top = 1 := by
    rw [axes_top, Vec3.dot]
    linear_combination hcircle
  have hup : g.axes.bottom.dot g.axes.bottom = 1 := by
    rw [axes_bottom, Vec3.dot]
    linear_combination hcircle' + Real.cos g.latitude ^ 2 * hcircle
  have hright : g.axes.bottom.dot g.axes.top = 0 := by
    rw [axes_bottom, axes_top, Vec3.dot]
    ring
  have hrows := Mat3.isSpecialOrthogonal_of_pair heast hup hright
  rwa [bottom_cross_top] at hrows

end Axes

section Curvature

variable (g : Geodetic ℝ)

/-- The divisor in the position of a place. -/
noncomputable def divisor : ℝ := √(radicand g.latitude)

/-- The divisor is positive. -/
theorem divisor_pos : 0 < g.divisor := Real.sqrt_pos.mpr (radicand_pos g.latitude)

/-- The square of the divisor. -/
theorem divisor_sq : g.divisor ^ 2 = 1 - eccentricitySq ℝ * Real.sin g.latitude ^ 2 :=
  Real.sq_sqrt (radicand_pos g.latitude).le

/-- The radius of curvature of the prime vertical by the divisor. -/
theorem primeVerticalRadius_eq :
    g.primeVerticalRadius = Standards.earthRadius ℝ / g.divisor := by
  rw [primeVerticalRadius, divisor, radicand, Scalar.one_literal, pow_two]
  rfl

/-- The radius of curvature of the meridian. -/
noncomputable def meridianRadius : ℝ :=
  Standards.earthRadius ℝ * (1 - eccentricitySq ℝ) / radicand g.latitude ^ (1.5 : ℝ)

/-- The radius of curvature of the meridian by the divisor. -/
theorem meridianRadius_eq :
    g.meridianRadius = Standards.earthRadius ℝ * (1 - eccentricitySq ℝ) / g.divisor ^ 3 := by
  have hpower : radicand g.latitude ^ (1.5 : ℝ) = g.divisor ^ 3 := by
    rw [divisor, Real.sqrt_eq_rpow, ← Real.rpow_natCast, ← Real.rpow_mul (radicand_pos _).le]
    norm_num
  rw [meridianRadius, hpower]

end Curvature

section Meridian

variable (g : Geodetic ℝ)

/-- The distance of a place from the axis of the Earth. -/
noncomputable def axisDistance : ℝ := (g.primeVerticalRadius + g.height) * Real.cos g.latitude

/-- The distance of a place from the plane of the equator. -/
noncomputable def elevation : ℝ :=
  (g.primeVerticalRadius * (1 - eccentricitySq ℝ) + g.height) * Real.sin g.latitude

/-- The position of a place by its distances from the axis and from the equator. -/
theorem position_eq :
    g.position = ⟨g.axisDistance * Real.cos g.longitude, g.axisDistance * Real.sin g.longitude,
      g.elevation⟩ := by
  rw [position, Scalar.one_literal]
  rfl

/-- The place at another latitude. -/
def atLatitude (latitude : ℝ) : Geodetic ℝ := { g with latitude }

/-- The derivative of the divisor with respect to the latitude. -/
theorem hasDerivAt_divisor :
    HasDerivAt (fun φ => (g.atLatitude φ).divisor)
      (-(eccentricitySq ℝ * Real.sin g.latitude * Real.cos g.latitude) / g.divisor) g.latitude := by
  have hradicand : HasDerivAt radicand
      (-(eccentricitySq ℝ * (2 * Real.sin g.latitude * Real.cos g.latitude))) g.latitude := by
    have hsquare := (Real.hasDerivAt_sin g.latitude).pow 2
    exact ((hsquare.const_mul (eccentricitySq ℝ)).const_sub 1).congr_deriv (by simp)
  refine (hradicand.sqrt (radicand_pos g.latitude).ne').congr_deriv ?_
  have hdivisor := g.divisor_pos.ne'
  change _ / (2 * g.divisor) = _
  field_simp

/-- The derivative of the radius of curvature of the prime vertical with respect to the latitude. -/
theorem hasDerivAt_primeVerticalRadius :
    HasDerivAt (fun φ => (g.atLatitude φ).primeVerticalRadius)
      (Standards.earthRadius ℝ * (eccentricitySq ℝ * Real.sin g.latitude * Real.cos g.latitude) /
        g.divisor ^ 3) g.latitude := by
  have hdivisor := g.divisor_pos.ne'
  have hquotient := (hasDerivAt_const g.latitude (Standards.earthRadius ℝ)).div g.hasDerivAt_divisor
    hdivisor
  have hradius : (fun φ => (g.atLatitude φ).primeVerticalRadius) =
      fun φ => Standards.earthRadius ℝ / (g.atLatitude φ).divisor :=
    funext fun φ => primeVerticalRadius_eq _
  rw [hradius]
  refine hquotient.congr_deriv ?_
  change (0 * g.divisor - _) / g.divisor ^ 2 = _
  field_simp
  ring

/-- Toward the north a place comes nearer to the axis, as if it turned about the center of curvature
of the meridian. -/
theorem hasDerivAt_axisDistance :
    HasDerivAt (fun φ => (g.atLatitude φ).axisDistance)
      (-((g.meridianRadius + g.height) * Real.sin g.latitude)) g.latitude := by
  have hproduct := (g.hasDerivAt_primeVerticalRadius.add_const g.height).mul
    (Real.hasDerivAt_cos g.latitude)
  refine hproduct.congr_deriv ?_
  change _ * Real.cos g.latitude + (g.primeVerticalRadius + g.height) * _ = _
  have hdivisor := g.divisor_pos.ne'
  have hcircle := Real.sin_sq_add_cos_sq g.latitude
  have hsquare := g.divisor_sq
  rw [meridianRadius_eq, primeVerticalRadius_eq]
  field_simp
  linear_combination (Standards.earthRadius ℝ * Real.sin g.latitude) *
    (eccentricitySq ℝ * hcircle - hsquare)

/-- Toward the north a place rises over the equator in the same way. -/
theorem hasDerivAt_elevation :
    HasDerivAt (fun φ => (g.atLatitude φ).elevation)
      ((g.meridianRadius + g.height) * Real.cos g.latitude) g.latitude := by
  have hproduct := ((g.hasDerivAt_primeVerticalRadius.mul_const (1 - eccentricitySq ℝ)).add_const
    g.height).mul (Real.hasDerivAt_sin g.latitude)
  refine hproduct.congr_deriv ?_
  change _ * Real.sin g.latitude +
    (g.primeVerticalRadius * (1 - eccentricitySq ℝ) + g.height) * _ = _
  have hdivisor := g.divisor_pos.ne'
  have hsquare := g.divisor_sq
  rw [meridianRadius_eq, primeVerticalRadius_eq]
  field_simp
  linear_combination
    (Standards.earthRadius ℝ * (1 - eccentricitySq ℝ) * Real.cos g.latitude) * hsquare

/-- A place moves to the north as its latitude grows. -/
theorem hasDerivativeAt_latitude :
    Vec3.HasDerivativeAt (fun φ => (g.atLatitude φ).position)
      ((g.meridianRadius + g.height) • g.axes.middle) g.latitude := by
  have hpath : (fun φ => (g.atLatitude φ).position) = fun φ =>
      ⟨(g.atLatitude φ).axisDistance * Real.cos g.longitude,
        (g.atLatitude φ).axisDistance * Real.sin g.longitude, (g.atLatitude φ).elevation⟩ :=
    funext fun φ => position_eq (g.atLatitude φ)
  have hdistance := g.hasDerivAt_axisDistance
  rw [hpath, axes_middle]
  constructor
  · refine (hdistance.mul_const (Real.cos g.longitude)).congr_deriv ?_
    rw [Vec3.smul_x]
    ring
  · refine (hdistance.mul_const (Real.sin g.longitude)).congr_deriv ?_
    rw [Vec3.smul_y]
    ring
  · exact g.hasDerivAt_elevation

end Meridian

section Parallel

variable (g : Geodetic ℝ)

/-- The place at another longitude. -/
def atLongitude (longitude : ℝ) : Geodetic ℝ := { g with longitude }

/-- A place moves to the east as its longitude grows, on a circle about the axis. -/
theorem hasDerivativeAt_longitude :
    Vec3.HasDerivativeAt (fun l => (g.atLongitude l).position)
      (((g.primeVerticalRadius + g.height) * Real.cos g.latitude) • g.axes.top) g.longitude := by
  have hpath : (fun l => (g.atLongitude l).position) = fun l =>
      ⟨g.axisDistance * Real.cos l, g.axisDistance * Real.sin l, g.elevation⟩ :=
    funext fun l => position_eq (g.atLongitude l)
  rw [hpath, axes_top]
  constructor
  · exact (Real.hasDerivAt_cos g.longitude).const_mul g.axisDistance
  · exact (Real.hasDerivAt_sin g.longitude).const_mul g.axisDistance
  · exact (hasDerivAt_const g.longitude g.elevation).congr_deriv (mul_zero _).symm

end Parallel

section Height

variable (g : Geodetic ℝ)

/-- The point of the ellipsoid below or above a place. -/
noncomputable def foot : Vec3 ℝ :=
  let n := g.primeVerticalRadius
  ⟨n * Real.cos g.latitude * Real.cos g.longitude, n * Real.cos g.latitude * Real.sin g.longitude,
    n * (1 - eccentricitySq ℝ) * Real.sin g.latitude⟩

/-- A place is above its foot in the up direction. -/
theorem position_eq_foot_add : g.position = g.foot + g.height • g.axes.bottom := by
  rw [position_eq, axes_bottom, axisDistance, elevation, foot]
  ext
  · simp only [Vec3.add_x, Vec3.smul_x]
    ring
  · simp only [Vec3.add_y, Vec3.smul_y]
    ring
  · simp only [Vec3.add_z, Vec3.smul_z]
    ring

/-- The place at another height. -/
def atHeight (height : ℝ) : Geodetic ℝ := { g with height }

/-- At another height the position is that much further along the third axis. -/
theorem position_atHeight (height : ℝ) :
    (g.atHeight height).position = g.foot + height • g.axes.bottom :=
  position_eq_foot_add (g.atHeight height)

/-- A point lies on the ellipsoid. -/
def OnEllipsoid (p : Vec3 ℝ) : Prop :=
  let a := Standards.earthRadius ℝ
  let b := a * (1 - Standards.earthFlattening ℝ)
  p.x ^ 2 / a ^ 2 + p.y ^ 2 / a ^ 2 + p.z ^ 2 / b ^ 2 = 1

/-- The foot of a place lies on the ellipsoid. -/
theorem onEllipsoid_foot : OnEllipsoid g.foot := by
  have hdivisor := g.divisor_pos.ne'
  have hradius : Standards.earthRadius ℝ ≠ 0 := by norm_num [Standards.earthRadius]
  have hratio : 1 - eccentricitySq ℝ ≠ 0 := (sub_pos.mpr eccentricitySq_mem.2).ne'
  have hcircle := Real.sin_sq_add_cos_sq g.longitude
  have hcircle' := Real.sin_sq_add_cos_sq g.latitude
  have hsquare := g.divisor_sq
  rw [OnEllipsoid, mul_pow, ← one_sub_eccentricitySq, foot, primeVerticalRadius_eq]
  field_simp
  linear_combination Real.cos g.latitude ^ 2 * hcircle + hcircle' - hsquare

end Height

section Safety

open Checked

/-- Applies a function to each coordinate of a place. -/
def map {K L : Type} (f : K → L) (g : Geodetic K) : Geodetic L :=
  ⟨f g.latitude, f g.longitude, f g.height⟩

/-- The square of the eccentricity is defined without any division by zero. -/
theorem checked_eccentricitySq : eccentricitySq Checked = value (eccentricitySq ℝ) := by
  have hdivisor : (298.257223563 : ℝ) ≠ 0 := by norm_num
  have hflattening : Standards.earthFlattening Checked = value (Standards.earthFlattening ℝ) :=
    value_div 1.0 hdivisor
  rw [eccentricitySq, hflattening]
  rfl

/-- The radius divides by the root of a positive number. -/
theorem checked_primeVerticalRadius (g : Geodetic ℝ) :
    (g.map value).primeVerticalRadius = value g.primeVerticalRadius := by
  have hradicand : (1.0 - eccentricitySq ℝ * (Real.sin g.latitude * Real.sin g.latitude) : ℝ) =
      radicand g.latitude := by
    rw [radicand, Scalar.one_literal, pow_two]
  have hroot : Scalar.sqrt (1.0 - eccentricitySq Checked *
      (Scalar.sin (value g.latitude) * Scalar.sin (value g.latitude))) = value g.divisor := by
    rw [checked_eccentricitySq]
    change Scalar.sqrt (value (1.0 - eccentricitySq ℝ *
      (Real.sin g.latitude * Real.sin g.latitude))) = _
    rw [hradicand, sqrt_value (radicand_pos _), divisor]
  rw [primeVerticalRadius_eq, ← value_div _ g.divisor_pos.ne', ← hroot]
  rfl

/-- A position is computed without an undefined operation. -/
theorem checked_position (g : Geodetic ℝ) : (g.map value).position = g.position.map value := by
  rw [position, position, checked_primeVerticalRadius, checked_eccentricitySq]
  rfl

end Safety

/-- The axes take the up direction to the third one. -/
theorem axes_apply_bottom (g : Geodetic ℝ) : g.axes.apply g.axes.bottom = .unitZ :=
  congrArg Mat3.bottom g.isSpecialOrthogonal_axes.mul_transpose

/-- A ground point has the axes of a place, and what is above the place is on its third axis. -/
def StandsAt (g : Geodetic ℝ) (point : GroundPoint ℝ) : Prop :=
  point.rotation.matrix = g.axes ∧ ∀ date d,
    (point.transform date).mapPosition (g.atHeight (g.height + d)).position = ⟨0, 0, d⟩

/-- A rotation is read from the axes of every place. -/
theorem exists_groundPoint (g : Geodetic ℝ) :
    ∃ point, GroundPoint.ofGeodetic g = .ok point ∧ g.StandsAt point := by
  have haxes := g.isSpecialOrthogonal_axes
  have hrotation := Rotation.ofMatrix_of_isSpecialOrthogonal haxes
  have hunit : (⟨.ofMatrix g.axes⟩ : Rotation ℝ).HasUnitNorm :=
    Quaternion.hasUnitNorm_ofMatrix g.axes
  refine ⟨⟨g.position, _⟩, bind_eq_of_ok hrotation, haxes.matrix_ofMatrix, fun date d => ?_⟩
  have hup : (g.atHeight (g.height + d)).position + -g.position = d • g.axes.bottom := by
    rw [position_atHeight, position_eq_foot_add, add_smul]
    abel
  calc ((⟨g.position, ⟨.ofMatrix g.axes⟩⟩ : GroundPoint ℝ).transform date).mapPosition
        (g.atHeight (g.height + d)).position
      = (⟨.ofMatrix g.axes⟩ : Rotation ℝ).apply
          ((g.atHeight (g.height + d)).position + -g.position) := rfl
    _ = d • (⟨.ofMatrix g.axes⟩ : Rotation ℝ).matrix.apply g.axes.bottom := by
      rw [hup, Rotation.apply_smul, hunit.apply_eq_matrix_apply]
    _ = d • .unitZ := by
      rw [Rotation.matrix, haxes.matrix_ofMatrix, axes_apply_bottom]
    _ = ⟨0, 0, d⟩ := by
      ext <;> simp [Vec3.unitZ]

/-- The axes of a place are those of its surface, and its position is above the ellipsoid. -/
structure AxesFit (g : Geodetic ℝ) : Prop where
  isSpecialOrthogonal : g.axes.IsSpecialOrthogonal
  divisor_pos : 0 < g.divisor
  primeVerticalRadius_eq : g.primeVerticalRadius = Standards.earthRadius ℝ / g.divisor
  /-- No operation in the position is undefined. -/
  position_safe : (g.map Checked.value).position = g.position.map Checked.value
  /-- The ground point is always found. -/
  exists_groundPoint : ∃ point, GroundPoint.ofGeodetic g = .ok point ∧ g.StandsAt point
  longitude_slope : Vec3.HasDerivativeAt (fun l => (g.atLongitude l).position)
    (((g.primeVerticalRadius + g.height) * Real.cos g.latitude) • g.axes.top) g.longitude
  latitude_slope : Vec3.HasDerivativeAt (fun φ => (g.atLatitude φ).position)
    ((g.meridianRadius + g.height) • g.axes.middle) g.latitude
  onEllipsoid : OnEllipsoid (g.atHeight 0).position

/-- At every latitude, longitude and height the local axes are orthonormal and fit the ellipsoid. -/
theorem axesFit (g : Geodetic ℝ) : g.AxesFit where
  isSpecialOrthogonal := g.isSpecialOrthogonal_axes
  divisor_pos := g.divisor_pos
  primeVerticalRadius_eq := g.primeVerticalRadius_eq
  position_safe := g.checked_position
  exists_groundPoint := g.exists_groundPoint
  longitude_slope := g.hasDerivativeAt_longitude
  latitude_slope := g.hasDerivativeAt_latitude
  onEllipsoid := by
    rw [position_atHeight, zero_smul, add_zero]
    exact g.onEllipsoid_foot

end Geodetic

end FrameKinematics
