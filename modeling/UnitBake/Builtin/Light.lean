/-
# Lights

The `light` encoder of the specification (section 4.5).

A light has a kind, known by name in data and by number in records, a range, an intensity, the angle
of its cone and a colour.
-/
import UnitBake.Builtin.Vector
import UnitBake.Component.Encoder

namespace UnitBake

/-- How a light shines. -/
inductive LightKind where
  | directional
  | omni
  | spot
deriving DecidableEq, Repr

namespace LightKind

/-- The kind with a name. -/
def ofName (name : String) : Except Fault LightKind :=
  if name = "directional" then .ok .directional
  else if name = "omni" then .ok .omni
  else if name = "spot" then .ok .spot
  else .error (.unknownVariant "light" name)

/-- The number of a kind. -/
def number : LightKind → UInt32
  | .directional => 0
  | .omni => 1
  | .spot => 2

end LightKind

/-- A light as data gives it. -/
structure LightData where
  kind : String
  range : Binary32
  intensity : Binary32
  spotAngle : Binary32
  color : Vector Binary32 3

/-- A light. -/
structure Light where
  kind : LightKind
  range : Binary32
  intensity : Binary32
  spotAngle : Binary32
  color : Vector Binary32 3

namespace Light

/-- The fields in declaration order. -/
def fields : List Shape.Field :=
  [Shape.required "type" Shape.text,
   Shape.required "range" Shape.single,
   Shape.required "intensity" Shape.single,
   Shape.required "spot_angle" Shape.single,
   Shape.required "color" (Shape.singles 3)]

/-- Reads the data of a light. -/
def readData (v : Json) : Except ShapeError LightData :=
  match Shape.values "LightSource" fields v with
  | .ok (kind, range, intensity, spotAngle, color, _) =>
    .ok ⟨kind, range, intensity, spotAngle, color⟩
  | .error e => .error e

/-- The record: kind, range, intensity, angle, colour. -/
def bytes (l : Light) : List UInt8 :=
  LittleEndian.bytesOfWords [l.kind.number, l.range.bits, l.intensity.bits, l.spotAngle.bits] ++
    vectorBytes l.color

/-- The size of the record. -/
def recordSize : Nat := 28

theorem length_bytes (l : Light) : l.bytes.length = recordSize := by
  simp [bytes, recordSize]

/-- Encodes a light. -/
def encode : Encoder := fun ctx data => do
  let d ← ctx.parse readData data
  let kind ← LightKind.ofName d.kind
  return (Light.mk kind d.range d.intensity d.spotAngle d.color).bytes

end Light

end UnitBake
