/-
# Cameras

The `camera` encoder of the specification (section 4.5).

A camera has a projection, known by name in data and by number in records, a field of view, and the
range of distances that it sees.
-/
import UnitBake.Builtin.Vector
import UnitBake.Component.Encoder

namespace UnitBake

/-- How a camera projects. -/
inductive Projection where
  | perspective
  | orthographic
deriving DecidableEq, Repr

namespace Projection

/-- The projection with a name. -/
def ofName (name : String) : Except Fault Projection :=
  if name = "perspective" then .ok .perspective
  else if name = "orthographic" then .ok .orthographic
  else .error (.unknownVariant "projection" name)

/-- The number of a projection. -/
def number : Projection → UInt32
  | .perspective => 0
  | .orthographic => 1

end Projection

/-- A camera as data gives it. -/
structure CameraData where
  projection : String
  fov : Binary32
  near : Binary32
  far : Binary32

/-- A camera. -/
structure Camera where
  projection : Projection
  fov : Binary32
  near : Binary32
  far : Binary32

namespace Camera

/-- The fields in declaration order. -/
def fields : List Shape.Field :=
  [Shape.required "projection" Shape.text,
   Shape.required "fov" Shape.single,
   Shape.required "near_range" Shape.single,
   Shape.required "far_range" Shape.single]

/-- Reads the data of a camera. -/
def readData (v : Json) : Except ShapeError CameraData :=
  match Shape.values "CameraSource" fields v with
  | .ok (projection, fov, near, far, _) => .ok ⟨projection, fov, near, far⟩
  | .error e => .error e

/-- The record: projection, field of view, near and far end of the range. -/
def bytes (c : Camera) : List UInt8 :=
  LittleEndian.bytesOfWords [c.projection.number, c.fov.bits, c.near.bits, c.far.bits]

/-- The size of the record. -/
def recordSize : Nat := 16

theorem length_bytes (c : Camera) : c.bytes.length = recordSize := by
  simp [bytes, recordSize]

/-- Encodes a camera. -/
def encode : Encoder := fun ctx data => do
  let d ← ctx.parse readData data
  let projection ← Projection.ofName d.projection
  return (Camera.mk projection d.fov d.near d.far).bytes

end Camera

end UnitBake
