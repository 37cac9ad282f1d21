/-
# References

The `script` and `animation_state_machine` encoders of the specification (section 4.5).

A script and an animation state machine are each a reference to one resource, which must exist.
-/
import UnitBake.Bytes.LittleEndian
import UnitBake.Component.Encoder
import UnitBake.Component.TypeId
import UnitBake.Shape.Record

namespace UnitBake

/-- How components of a type refer to their one resource. -/
structure Reference where
  /-- The name of the record in messages. -/
  record : String
  /-- The field that holds the name of the resource. -/
  field : String
  /-- The kind of the resource. -/
  kind : String

namespace Reference

/-- References to scripts. -/
def script : Reference := ⟨"ScriptSource", "script_resource", "lua"⟩

/-- References to state machines of animations. -/
def stateMachine : Reference :=
  ⟨"AnimationStateMachineSource", "state_machine_resource", "state_machine"⟩

/-- The only field. -/
def fields (r : Reference) : List Shape.Field := [Shape.required r.field Shape.text]

/-- Reads the name of the resource. -/
def read (r : Reference) (v : Json) : Except ShapeError String :=
  match Shape.values r.record r.fields v with
  | .ok (name, _) => .ok name
  | .error e => .error e

/-- The size of the record. -/
def recordSize : Nat := 8

/-- The record: the resource. -/
def bytes (name : String) : List UInt8 := LittleEndian.bytes64 (resourceId name)

theorem length_bytes (name : String) : (bytes name).length = recordSize := by
  simp [bytes, recordSize]

/-- Encodes a reference. -/
def encode (r : Reference) : Encoder := fun ctx data => do
  let name ← ctx.parse r.read data
  ctx.require r.kind name
  return bytes name

end Reference

end UnitBake
