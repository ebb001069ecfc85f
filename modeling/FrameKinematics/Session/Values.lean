import FrameKinematics.Document.Literal
import FrameKinematics.Operand
import FrameKinematics.Session

/-!
# Documents of values

How documents describe numbers, vectors, instants, motions, lines, orbits and pole tables. A table
with the entry `ref` refers to a value of the session by its name.

Most numbers may be written as numerals, which are read before anything is built of them. Those
that a description calls for as they are, such as the fields of a calendar, are not.
-/

namespace FrameKinematics.Act

/-- A document of numbers. -/
def numerals (d : Document Float) : Act Float (Document Float) := ok d.numerals

/-- A number as it is. -/
def quantity (d : Document Float) : Act Float (Quantity Float) :=
  match Quantity.ofDocument? d with
  | some q => return q
  | none => fail .wrongKind

/-- A scalar. -/
def scalar (d : Document Float) : Act Float Float := do ok (← quantity (← numerals d)).toScalar

/-- A whole number. -/
def whole (d : Document Float) : Act Float Int :=
  match (Quantity.ofDocument? d).bind Quantity.whole? with
  | some n => return n
  | none => fail .wrongKind

/-- A text. -/
def text (d : Document Float) : Act Float String :=
  match d with
  | .text s => return s
  | _ => fail .wrongKind

/-- The items of a list. -/
def items (d : Document Float) : Act Float (List (Document Float)) :=
  match d with
  | .list ds => return ds
  | _ => fail .wrongKind

/-- Something that may be left out. -/
def optional {α : Type} (read : Document Float → Act Float α) (d : Document Float) :
    Act Float (Option α) :=
  if d.isNull then return none else some <$> read d

/-- A block of numbers. -/
def block (d : Document Float) : Act Float (Block Float) := do ok (← numerals d).block

/-- A vector. -/
def vector (d : Document Float) : Act Float (Vec3 Float) := do ok (← numerals d).vector

/-- A vector that is zero if it is left out. -/
def vectorOrZero (d : Document Float) : Act Float (Vec3 Float) :=
  if d.isNull then return .zero else vector d

/-- The entry of a table under a key that it needs to have. -/
def required (key : String) (d : Document Float) : Act Float (Document Float) :=
  match d, d.get? key with
  | _, some entry => return entry
  | .table _, none => fail .unknownKey
  | _, none => fail .wrongKind

/-- A quaternion. -/
def quaternion (d : Document Float) : Act Float (Quaternion Float) := do
  ok (← numerals d).quaternion

/-- A matrix. -/
def matrix (d : Document Float) : Act Float (Mat3 Float) := do ok (← numerals d).matrix

/-- A time scale that may be left out. Nested documents name none. -/
def timeScale (fallback : TimeScale) (d? : Option (Document Float)) : Act Float TimeScale :=
  match d? with
  | none => return fallback
  | some (.list _) => fail .wrongKind
  | some (.table _) => fail .wrongKind
  | some d => return .ofName d.plainText

/-- A calendar field, a whole number of no more than 32 bits. -/
def calendarField (d : Document Float) : Act Float Int := do
  let n ← whole d
  if n < -2147483648 || 2147483647 < n then fail .outsideCalendar else return n

/-- The microseconds of some minutes. -/
def minutes (d : Document Float) : Act Float Int := do
  match ← quantity d with
  | .real x => ok (Scalar.microsecondsOf 60000000 x)
  | q => return q.whole?.getD 0 * 60000000

/-- A calendar label from its fields, and the minutes that it is east of UTC. The day has to be
given, and after the microseconds there may be nothing. -/
def label (fields : Document Float) (east? : Option (Document Float)) : Act Float Label := do
  let ds ← items fields
  if 8 < ds.length then fail .wrongKind
  let ns ← (ds.take 7).mapM calendarField
  if ns.length < 3 then fail .wrongKind
  let field (i : Nat) := ns.getD i 0
  let l ← ok (Label.make (field 0) (field 1) (field 2) (field 3) (field 4) (field 5) (field 6))
  if !(ds.getD 7 .null).isNull then fail .wrongKind
  match east? with
  | none => return l
  | some east => ok (l.westward (← minutes east))

/-- The instant of calendar fields with seconds that need not be whole. -/
def instantOfFields (fields : Document Float) (scale : TimeScale) : Act Float (Instant Float) := do
  let ds ← items fields
  let second ← numerals (ds.getD 5 (.real 0.0))
  if ds.length < 3 || 6 < ds.length then fail .wrongKind
  let second ← scalar second
  let _ ← ok (Instant.split second)
  let ns ← (ds.take 5).mapM calendarField
  let field (i : Nat) := ns.getD i 0
  ok (Instant.ofFields (field 0) (field 1) (field 2) (field 3) (field 4) second scale)

/-- Whole seconds, which a text may write. Of a scalar only the whole part counts. -/
def wholeSeconds (d : Document Float) : Act Float Int := do
  match d with
  | .text s =>
    match Text.whole? s with
    | some n => return n
    | none => fail .wrongShape
  | .real x => ok (Scalar.truncated x)
  | _ => whole d

/-- The instant of whole seconds and an offset from J2000.0, both of which may be left out. -/
def instantOfParts (parts : List (Document Float)) : Act Float (Instant Float) := do
  let offset ← numerals (parts.getD 1 (.real 0.0))
  if 2 < parts.length then fail .wrongKind
  let offset ← scalar offset
  let _ ← ok (Instant.make 0 offset)
  ok (Instant.make (← wholeSeconds (parts.getD 0 (.whole 0))) offset)

/-- The epoch of a name. -/
def epoch (name : String) : Act Float (Instant Float) :=
  match name with
  | "J2000_EPOCH" => return .j2000
  | "GPS_EPOCH" => ok Instant.gpsEpoch
  | "GALILEO_EPOCH" => ok Instant.galileoEpoch
  | _ => fail .noMember

/-- An instant before it is shifted. -/
def unshiftedInstant (d : Document Float) : Act Float (Keyed (Instant Float)) := do
  if let .list parts := d then created (← instantOfParts parts)
  else if let some fields := d.get? "cal" then
    created (← instantOfFields fields (← timeScale .utc (d.get? "scale")))
  else if let some fields := d.get? "dt" then
    let scale ← timeScale .utc (d.get? "scale")
    created (← ok (Instant.ofLabel (← label fields (d.get? "tz")) scale))
  else if let some name := d.get? "const" then
    let name ← text name
    return ⟨← epoch name, .constant name⟩
  else return ⟨.j2000, .constant "J2000_EPOCH"⟩

/-- An instant: a list of whole seconds and an offset, calendar fields, the name of an epoch or
of a value. It may be shifted. -/
def instant (d : Document Float) : Act Float (Keyed (Instant Float)) := do
  let select : Value Float → Option (Instant Float)
    | .instant t => some t
    | _ => none
  let t ← referenceOr select unshiftedInstant d
  match d.get? "shift" with
  | none => return t
  | some duration => created (← ok (t.value.shift (← scalar duration)))

/-- The instant that a document describes. -/
def date (d : Document Float) : Act Float (Instant Float) := Keyed.value <$> instant d

/-- A motion. -/
def motion (d : Document Float) : Act Float (Keyed (Motion Float)) :=
  match d with
  | .text "ZERO" => return ⟨.zero, .constant "ZERO"⟩
  | _ =>
    let select : Value Float → Option (Motion Float)
      | .motion m => some m
      | _ => none
    referenceOr select (fun d => do
      let p ← numerals (← required "p" d)
      let v ← numerals (d.get "v")
      let a ← numerals (d.get "a")
      created ⟨← vector p, ← vectorOrZero v, ← vectorOrZero a⟩) d

/-- A line through two points. -/
def line : Document Float → Act Float (Keyed (Line Float)) :=
  let select : Value Float → Option (Line Float)
    | .line l => some l
    | _ => none
  referenceOr select fun d => do
    let p ← numerals (← required "p1" d)
    let q ← numerals (← required "p2" d)
    let tolerance ← numerals ((d.get? "tolerance").getD (.real Line.defaultTolerance))
    let p ← vector p
    let q ← vector q
    created (← ok (Line.through p q (← scalar tolerance)))

/-- The selection of derivatives of a name as it is written. -/
def selection (part : Part) (d : Document Float) : Act Float Selection :=
  match d with
  | .list _ => fail .wrongKind
  | .table _ => fail .wrongKind
  | .text s =>
    match Selection.ofExactName? part s with
    | some selection => return selection
    | none => fail .unknownKey
  | _ => fail .unknownKey

/-- A choice of derivatives; all of them if there is none. -/
def choice (part : Part) (d? : Option (Document Float)) : Act Float Choice :=
  match d? with
  | none => return .of .withSecond
  | some (.list _) => fail .wrongKind
  | some (.table _) => fail .wrongKind
  | some (.text s) => return (Selection.ofExactName? part s).elim (.other "str") .of
  | some d => return .other d.kindName

/-- The axes that go along with a spacecraft. -/
def orbitalAxes (d? : Option (Document Float)) : Act Float OrbitalAxes :=
  match d? with
  | none => return .qsw
  | some (.text "QSW") => return .qsw
  | some (.text "TNW") => return .tnw
  | some (.list _) => fail .wrongKind
  | some (.table _) => fail .wrongKind
  | some _ => fail .unknownKey

/-- The motion of a spacecraft. -/
def orbit (d : Document Float) : Act Float (Orbit Float) := do
  if (d.get? "mu").isSome then
    let element (key : String) : Act Float Float := do ok (← quantity (d.get key)).toScalar
    ok (Orbit.circular (← element "mu") (← element "radius") (← element "inclination")
      (← element "node"))
  else return Orbit.drifting (← motion d).value

/-- A record of a pole table in arc seconds. -/
def poleRecord (d : Document Float) :
    Act Float (Instant Float × Document Float × Document Float) := do
  match ← items d with
  | [t, x, y] => return (← date t, ← numerals x, ← numerals y)
  | _ => fail .wrongShape

/-- A pole table by records in arc seconds or by columns in radians. -/
def poleTable (d : Document Float) : Act Float (Option (PoleTable Float)) := do
  if let some records := d.get? "records" then
    let records ← (← items records).mapM poleRecord
    let records ← records.mapM fun (t, x, y) => do return (t, ← scalar x, ← scalar y)
    some <$> ok (PoleTable.ofArcseconds records)
  else if let some dates := d.get? "dates" then
    let dates ← (← items dates).mapM date
    let xp ← numerals (← required "xp" d)
    let yp ← numerals (← required "yp" d)
    let _ ← ok (dates.mapM Instant.sinceJ2000)
    some <$> ok (do PoleTable.ofBlocks dates (← xp.block) (← yp.block))
  else return none

/-- Pole coordinates from a table, if there is one. -/
def poleData (d : Document Float) : Act Float (PoleData Float) := do
  return (← poleTable d).elim .none .table

/-- The right-hand side of an operation. -/
def operand (d : Document Float) : Act Float (Operand Float) := do
  if let some t := d.get? "date" then return .instant (← date t)
  else if let some m := d.get? "pv" then return .motion (← motion m).value
  else return (Quantity.ofDocument? (← numerals d)).elim .other .number

/-- A frame of the session. -/
def frame (d : Document Float) : Act Float (Frame (Source Float)) := do
  match ← reference? d with
  | some ⟨.frame f, _⟩ => return f
  | _ => fail .noMember

/-- The number of a registry of the session. -/
def registryNumber (d : Document Float) : Act Float Nat := do
  match ← reference? d with
  | some ⟨.registry i, _⟩ => return i
  | _ => fail .noMember

/-- The slot of a cache of the session. -/
def cacheSlot (d : Document Float) : Act Float Nat := do
  match ← reference? d with
  | some ⟨.cache slot, _⟩ => return slot
  | _ => fail .noMember

/-- The settings of a registry, with its pole table given apart. -/
def registrySettings (config pole : Document Float) : Act Float (RegistrySettings Float) := do
  let config ← ok config.configuration
  let pole ← poleTable pole
  ok (RegistrySettings.ofDocument config pole)

/-- The settings of an interpolating source. -/
def gridSettings (d : Document Float) : Act Float (GridSettings Float) := do
  if let some config := d.get? "config" then ok (config.configuration >>= GridSettings.ofDocument)
  else
    let number (key : String) : Act Float (Option (Document Float)) :=
      (d.get? key).mapM fun q => ok q.configuration
    let cartesian ← choice .cartesian (d.get? "cartesian_filter")
    let angular ← choice .angular (d.get? "angular_filter")
    ok (GridSettings.ofNumbers (← number "grid_points") (← number "step") (← number "cache_size")
      cartesian angular)

end FrameKinematics.Act
