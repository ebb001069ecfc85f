import FrameKinematics.Session.Values
import FrameKinematics.Source.Laws

/-!
# Documents of transforms

How documents describe rotations, angular motions, transforms and the sources of transforms.
Each kind may contain the others, so they are read together; a document is only as deep as it
is nested.
-/

namespace FrameKinematics.Act

/-- The kind of failure of a name. -/
def reportKind (d : Document Float) : Act Float ReportKind :=
  match d with
  | .text "ValueError" => return .value
  | .text "ArithmeticError" => return .arithmetic
  | .text "KeyError" => return .key
  | .text "RuntimeError" => return .runtime
  | .text "ProviderComputationError" => return .computation
  | .text "DegenerateGeometryError" => return .geometry
  | .text "FrameTreeError" => return .tree
  | _ => unreadable

/-- What the angle of a rotation turns: the vector, unless it is said to be the frame. -/
def rotationConvention (d : Document Float) : RotationConvention :=
  match d with
  | .text "FRAME_TRANSFORM" => .frameTransform
  | _ => .vectorOperator

/-- A source that no other source is part of. -/
def simpleSource (d : Document Float) : Act Float (Source Float) := do
  match d.get "type" with
  | .text "earth" => run Source.newEarthRotation
  | .text "pole" =>
    let pole ← poleData (d.get "table")
    run (Source.newPoleMotion pole)
  | .text "topocentric" =>
    let place ← ok (Geodetic.ofDocument (← numerals (← required "llh" d)))
    return .topocentric (← ok (GroundPoint.ofGeodetic place))
  | .text "lof" =>
    let orbit ← orbit (← required "orbit" d)
    return .localOrbital orbit (← orbitalAxes (d.get? "lof"))
  | .text "spinning" =>
    run (Source.newExternal "SpinningProvider" (Law.spinning (← required "rate" d)))
  | .text "circling" =>
    let rate ← required "omega" d
    let start ← optional date (d.get "t0")
    let law := Law.circling rate (d.get "limit") (start.getD .j2000)
    run (Source.newExternal "CirclingProvider" law)
  | .text "drifting" =>
    let law := Law.drifting (← block (← required "velocity" d))
    run (Source.newExternal "DriftingProvider" law)
  | .text "failing" =>
    let law := Law.failing (← reportKind (d.get "kind")) (← text (d.get "message"))
    run (Source.newExternal "FailingProvider" law)
  | _ => unreadable

mutual

/-- A rotation. -/
def rotationWithin : Nat → Document Float → Act Float (Keyed (Rotation Float))
  | 0, _ => unreadable
  | _, .text "IDENTITY" => return ⟨.identity, .constant "rotation IDENTITY"⟩
  | depth + 1, d =>
    let select : Value Float → Option (Rotation Float)
      | .rotation r => some r
      | _ => none
    referenceOr select (fun d => do
      if let some q := d.get? "q" then
        let q ← quaternion q
        if ((d.get? "normalize").getD (.flag true)).isYes then
          created (← ok (Rotation.normalized q))
        else created ⟨q⟩
      else if let some m := d.get? "matrix" then
        let m ← numerals m
        let threshold? ← (d.get? "threshold").mapM numerals
        let m ← matrix m
        match threshold? with
        | some t => created (← ok (do Rotation.ofMatrix m (← t.soleFactor)))
        | none => created (← ok (Rotation.ofMatrix m))
      else if let some v := d.get? "rv" then created (← ok (Rotation.ofVector (← vector v)))
      else if let some axis := d.get? "axis" then
        let axis ← numerals axis
        let angle ← numerals (d.get "angle")
        let axis ← vector axis
        -- An axis of no length is the fault, whatever the angle.
        let angle ← if axis.norm == 0.0 then pure 0.0 else scalar angle
        created (← ok (Rotation.ofAxisAngle axis angle (rotationConvention (d.get "convention"))))
      else if let some t := d.get? "of" then
        created (← transformWithin depth t).value.angular.rotation
      else unreadable) d

/-- An angular motion. -/
def angularWithin : Nat → Document Float → Act Float (Keyed (AngularMotion Float))
  | 0, _ => unreadable
  | _, .text "IDENTITY" => return ⟨.identity, .constant "angular IDENTITY"⟩
  | depth + 1, d =>
    let select : Value Float → Option (AngularMotion Float)
      | .angular a => some a
      | _ => none
    referenceOr select (fun d => do
      if let some given := d.get? "axes" then
        match ← (← items given).mapM motion with
        | [x, y, z] => created (← ok (AngularMotion.ofAxes x.value y.value z.value))
        | _ => fail .wrongKind
      else
        let r ← optional (rotationWithin depth) (d.get "r")
        let w ← numerals (d.get "w")
        let a ← numerals (d.get "wd")
        created ⟨(r.map Keyed.value).getD .identity, ← vectorOrZero w, ← vectorOrZero a⟩) d

/-- A transform. -/
def transformWithin : Nat → Document Float → Act Float (Keyed (Transform Float))
  | 0, _ => unreadable
  | _, .text "IDENTITY" => return ⟨.neutral, .constant "transform IDENTITY"⟩
  | depth + 1, d =>
    let select : Value Float → Option (Transform Float)
      | .transform t => some t
      | _ => none
    referenceOr select (fun d => do
      let t ← date (← required "date" d)
      if let some s := d.get? "provider" then
        let s ← sourceWithin depth s
        let c ← run (s.value.serve t)
        return ⟨c.transform, .computed c.serial⟩
      else if let some parts := d.get? "compose" then
        match ← (← items parts).mapM (transformWithin depth) with
        | [first, second] => created (← ok (Transform.compose t first.value second.value))
        | _ => fail .wrongKind
      else if let some p := d.get? "translation" then
        let p ← numerals p
        let v ← numerals (d.get "velocity")
        let a ← numerals (d.get "acceleration")
        created (.ofTranslation t ⟨← vector p, ← vectorOrZero v, ← vectorOrZero a⟩)
      else if let some r := d.get? "rotation" then
        let r ← rotationWithin depth r
        let w ← numerals (d.get "rate")
        let a ← numerals (d.get "racc")
        created (.ofRotation t ⟨r.value, ← vectorOrZero w, ← vectorOrZero a⟩)
      else
        let c ← optional motion (d.get "cartesian")
        let a ← optional (angularWithin depth) (d.get "angular")
        created (.dated t ((c.map Keyed.value).getD .zero) ((a.map Keyed.value).getD .identity))) d

/-- A source of transforms. -/
def sourceWithin : Nat → Document Float → Act Float (Keyed (Source Float))
  | 0, _ => unreadable
  | depth + 1, d =>
    let select : Value Float → Option (Source Float)
      | .source s => some s
      | _ => none
    referenceOr select (fun d => do
      match d.get "type" with
      | .text "fixed" => created (.fixed (← transformWithin depth (d.get "transform")).value)
      | .text "cached" =>
        let raw ← sourceWithin depth (d.get "raw")
        created (← run (Source.newCached raw.value))
      | .text "interpolating" =>
        let raw ← sourceWithin depth (d.get "raw")
        let settings ← gridSettings d
        created (← run (Source.newInterpolating raw.value settings))
      | _ => created (← simpleSource d)) d

end

/-- The rotation that a document describes. -/
def rotation (d : Document Float) : Act Float (Keyed (Rotation Float)) := rotationWithin d.depth d

/-- The angular motion that a document describes. -/
def angular (d : Document Float) : Act Float (Keyed (AngularMotion Float)) := angularWithin d.depth d

/-- The transform that a document describes. -/
def transform (d : Document Float) : Act Float (Keyed (Transform Float)) := transformWithin d.depth d

/-- The source that a document describes. -/
def source (d : Document Float) : Act Float (Keyed (Source Float)) := sourceWithin d.depth d

end FrameKinematics.Act
