/-
# The built-in component types

`register_builtin_components` of the specification (section 4.2), with its spawn orders.

Transforms spawn first, because every other component attaches to them.
-/
import UnitBake.Builtin.Camera
import UnitBake.Builtin.Light
import UnitBake.Builtin.Reference
import UnitBake.Builtin.Renderer
import UnitBake.Builtin.Transform
import UnitBake.Component.Registry

namespace UnitBake.Builtin

/-- Names, encoders and spawn orders of the built-in types, in order of registration. -/
def types : List (String × Encoder × UInt32) :=
  [("transform", Transform.encode, 0),
   ("camera", Camera.encode, 1),
   ("mesh_renderer", MeshRenderer.encode, 1),
   ("sprite_renderer", SpriteRenderer.encode, 1),
   ("light", Light.encode, 1),
   ("script", Reference.script.encode, 1),
   ("animation_state_machine", Reference.stateMachine.encode, 1)]

/-- Registers types in order.  If one of them collides, those before it stay registered. -/
def registerAll (r : Registry) : List (String × Encoder × UInt32) →
    Traced (Registry × Option NameCollision)
  | [] => ⟨(r, none), []⟩
  | (name, encoder, order) :: rest =>
    match r.register name encoder order with
    | .error e => ⟨(r, some e), []⟩
    | .ok t =>
      let further := registerAll t.result rest
      ⟨further.result, t.events ++ further.events⟩

/-- Registers the built-in types. -/
def register (r : Registry) : Traced (Registry × Option NameCollision) := registerAll r types

/-- The registry of the built-in types. -/
def registry : Registry := (register .empty).result.1

end UnitBake.Builtin
