/-
# Transforms

The `transform` encoder of the specification (section 4.5).

A transform places a unit: position, rotation as a quaternion `x, y, z, w`, and scale.
-/
import UnitBake.Builtin.Vector
import UnitBake.Component.Encoder

namespace UnitBake

/-- Where a unit is. -/
structure Transform where
  position : Vector Binary32 3
  rotation : Vector Binary32 4
  scale : Vector Binary32 3

namespace Transform

/-- The fields in declaration order. -/
def fields : List Shape.Field :=
  [Shape.required "position" (Shape.singles 3),
   Shape.required "rotation" (Shape.singles 4),
   Shape.required "scale" (Shape.singles 3)]

/-- Reads a transform. -/
def read (v : Json) : Except ShapeError Transform :=
  match Shape.values "TransformSource" fields v with
  | .ok (position, rotation, scale, _) => .ok ⟨position, rotation, scale⟩
  | .error e => .error e

/-- The record: position, rotation, scale. -/
def bytes (t : Transform) : List UInt8 :=
  vectorBytes t.position ++ vectorBytes t.rotation ++ vectorBytes t.scale

/-- The size of the record. -/
def recordSize : Nat := 40

theorem length_bytes (t : Transform) : t.bytes.length = recordSize := by
  simp [bytes, recordSize]

/-- Encodes a transform. -/
def encode : Encoder := fun ctx data => do
  let t ← ctx.parse read data
  return t.bytes

end Transform

end UnitBake
