/-
# Renderers

The `mesh_renderer` and `sprite_renderer` encoders of the specification (section 4.5).

Mesh and sprite renderers refer to resources by the hashes of their names.  The mesh or sprite must
exist; materials are not looked for.
-/
import UnitBake.Bytes.LittleEndian
import UnitBake.Component.Encoder
import UnitBake.Component.TypeId
import UnitBake.Shape.Record

namespace UnitBake

/-- A truth value as a word. -/
def truthWord (b : Bool) : UInt32 := if b then 1 else 0

/-! ## 1. Meshes -/

/-- Draws a geometry of a mesh with a material. -/
structure MeshRenderer where
  mesh : String
  geometry : String
  material : String
  visible : Bool

namespace MeshRenderer

/-- The fields in declaration order. -/
def fields : List Shape.Field :=
  [Shape.required "mesh_resource" Shape.text,
   Shape.required "geometry_name" Shape.text,
   Shape.required "material" Shape.text,
   Shape.required "visible" Shape.bool]

/-- Reads a mesh renderer. -/
def read (v : Json) : Except ShapeError MeshRenderer :=
  match Shape.values "MeshRendererSource" fields v with
  | .ok (mesh, geometry, material, visible, _) => .ok ⟨mesh, geometry, material, visible⟩
  | .error e => .error e

/-- The record: mesh, material, geometry, visibility. -/
def bytes (m : MeshRenderer) : List UInt8 :=
  LittleEndian.bytes64 (resourceId m.mesh) ++ LittleEndian.bytes64 (resourceId m.material) ++
    LittleEndian.bytesOfWords [nameHash m.geometry, truthWord m.visible]

/-- The size of the record. -/
def recordSize : Nat := 24

theorem length_bytes (m : MeshRenderer) : m.bytes.length = recordSize := by
  simp [bytes, recordSize]

/-- Encodes a mesh renderer. -/
def encode : Encoder := fun ctx data => do
  let m ← ctx.parse read data
  ctx.require "mesh" m.mesh
  return m.bytes

end MeshRenderer

/-! ## 2. Sprites -/

/-- Draws a sprite with a material, at a depth within a layer. -/
structure SpriteRenderer where
  sprite : String
  material : String
  layer : UInt32
  depth : UInt32
  visible : Bool

namespace SpriteRenderer

/-- The fields in declaration order. -/
def fields : List Shape.Field :=
  [Shape.required "sprite_resource" Shape.text,
   Shape.required "material" Shape.text,
   Shape.required "layer" Shape.word,
   Shape.required "depth" Shape.word,
   Shape.required "visible" Shape.bool]

/-- Reads a sprite renderer. -/
def read (v : Json) : Except ShapeError SpriteRenderer :=
  match Shape.values "SpriteRendererSource" fields v with
  | .ok (sprite, material, layer, depth, visible, _) =>
    .ok ⟨sprite, material, layer, depth, visible⟩
  | .error e => .error e

/-- The record: sprite, material, layer, depth, visibility, and a word of padding. -/
def bytes (s : SpriteRenderer) : List UInt8 :=
  LittleEndian.bytes64 (resourceId s.sprite) ++ LittleEndian.bytes64 (resourceId s.material) ++
    LittleEndian.bytesOfWords [s.layer, s.depth, truthWord s.visible, 0]

/-- The size of the record. -/
def recordSize : Nat := 32

theorem length_bytes (s : SpriteRenderer) : s.bytes.length = recordSize := by
  simp [bytes, recordSize]

/-- Encodes a sprite renderer. -/
def encode : Encoder := fun ctx data => do
  let s ← ctx.parse read data
  ctx.require "sprite" s.sprite
  return s.bytes

end SpriteRenderer

end UnitBake
