/-
# Built-in records hold the data they were made of

For every built-in component type this says what its records hold, without its encoder: which field of
the data stands at which offset, and in which form.  `Camera.Recorded data record`, and the same for
the other types, relates a record to the tree of the data field by field.  Names of fields are looked
up in the tree, and words are read at their little-endian offsets from the record.

`Builtin.Kind` lists the seven types, and `Builtin.recorded_of_registered` speaks of the registry of
all of them: whatever the encoder that is found for a type returns has the size of the type's records
and holds the data it was given.

The two halves of each proof know nothing of each other.  `Shape.reads_of_values` tells which fields
the values come from, and section 1 tells where words end up when parts of a record are written one
after the other.
-/
import UnitBake.Builtin.Types
import UnitBake.Proofs.Component.Enrolment
import UnitBake.Proofs.Result
import UnitBake.Proofs.Shape.Fields

namespace UnitBake

/-! ## 1. Words at offsets -/

namespace LittleEndian

/-- So many bytes at an offset. -/
def slice (bytes : List UInt8) (offset size : Nat) : List UInt8 := (bytes.drop offset).take size

/-- The 32-bit word at an offset. -/
def wordAt (bytes : List UInt8) (offset : Nat) : UInt32 := word32 (slice bytes offset 4)

/-- The 64-bit word at an offset. -/
def longAt (bytes : List UInt8) (offset : Nat) : UInt64 := word64 (slice bytes offset 8)

variable {front rest : List UInt8} {offset size : Nat}

/-- A slice behind the first part is one of the rest. -/
theorem slice_append_right (h : front.length ≤ offset) :
    slice (front ++ rest) offset size = slice rest (offset - front.length) size := by
  rw [slice, slice, List.drop_append, List.drop_of_length_le h, List.nil_append]

/-- A slice that ends with the first part is one of it. -/
theorem slice_append_left (h : offset + size ≤ front.length) :
    slice (front ++ rest) offset size = slice front offset size := by
  have hroom : size ≤ (front.drop offset).length := by
    rw [List.length_drop]
    omega
  rw [slice, slice, List.drop_append_of_le_length (by omega),
    List.take_append_of_le_length hroom]

/-- The bytes of a word are the slice at four times its place. -/
theorem slice_bytesOfWords : ∀ {ws : List UInt32} {i : Nat} {w : UInt32}, ws[i]? = some w →
    slice (bytesOfWords ws) (4 * i) 4 = bytes32 w
  | [], _, _, h => by cases h
  | v :: ws, 0, w, h => by
    obtain rfl := Option.some.inj h
    rw [bytesOfWords, List.flatMap_cons, slice_append_left (by simp)]
    exact List.take_of_length_le (Nat.le_of_eq (length_bytes32 v))
  | v :: ws, i + 1, w, h => by
    have hskip : 4 * (i + 1) - (bytes32 v).length = 4 * i := by
      rw [length_bytes32]
      omega
    rw [bytesOfWords, List.flatMap_cons, slice_append_right (by rw [length_bytes32]; omega),
      hskip]
    exact slice_bytesOfWords h

/-- Among words written one after the other, each is read at four times its place. -/
theorem wordAt_bytesOfWords {ws : List UInt32} {i : Nat} {w : UInt32} (h : ws[i]? = some w) :
    wordAt (bytesOfWords ws) (4 * i) = w := by
  have hw : word32 (bytes32 w) = w := by simpa using word32_bytes32_append w []
  rw [wordAt, slice_bytesOfWords h, hw]

theorem wordAt_append_right (h : front.length ≤ offset) :
    wordAt (front ++ rest) offset = wordAt rest (offset - front.length) := by
  rw [wordAt, wordAt, slice_append_right h]

theorem wordAt_append_left (h : offset + 4 ≤ front.length) :
    wordAt (front ++ rest) offset = wordAt front offset := by
  rw [wordAt, wordAt, slice_append_left h]

/-- A 64-bit word is read where it was written. -/
theorem longAt_bytes64_append (w : UInt64) (rest : List UInt8) :
    longAt (bytes64 w ++ rest) 0 = w := by
  have hw : word64 (bytes64 w) = w := by simpa using word64_bytes64_append w []
  rw [longAt, slice_append_left (by simp), slice, List.drop_zero,
    List.take_of_length_le (Nat.le_of_eq (length_bytes64 w)), hw]

theorem longAt_append_right (h : front.length ≤ offset) :
    longAt (front ++ rest) offset = longAt rest (offset - front.length) := by
  rw [longAt, longAt, slice_append_right h]

/-- Two 64-bit words and, behind them, words. -/
theorem longAt_two_longs (a b : UInt64) (rest : List UInt8) :
    longAt (bytes64 a ++ bytes64 b ++ rest) 0 = a ∧
      longAt (bytes64 a ++ bytes64 b ++ rest) 8 = b := by
  rw [List.append_assoc]
  refine ⟨longAt_bytes64_append a _, ?_⟩
  rw [longAt_append_right (by simp), length_bytes64]
  exact longAt_bytes64_append b _

theorem wordAt_two_longs (a b : UInt64) {ws : List UInt32} {i : Nat} {w : UInt32}
    (h : ws[i]? = some w) :
    wordAt (bytes64 a ++ bytes64 b ++ bytesOfWords ws) (16 + 4 * i) = w := by
  have hlength : (bytes64 a ++ bytes64 b).length = 16 := by simp
  rw [wordAt_append_right (by omega), hlength, Nat.add_sub_cancel_left]
  exact wordAt_bytesOfWords h

end LittleEndian

/-- The floating-point number at an offset. -/
def floatAt (bytes : List UInt8) (offset : Nat) : Binary32 := ⟨LittleEndian.wordAt bytes offset⟩

/-- The vector at an offset, first component first. -/
def vectorAt (n : Nat) (bytes : List UInt8) (offset : Nat) : Vector Binary32 n :=
  Vector.ofFn fun i => floatAt bytes (offset + 4 * i)

/-- A vector is read where it was written. -/
theorem vectorAt_vectorBytes_append {n : Nat} (v : Vector Binary32 n) (rest : List UInt8) :
    vectorAt n (vectorBytes v ++ rest) 0 = v := by
  ext i hi
  have hword : (v.toList.map Binary32.bits)[i]? = some v[i].bits := by simp [hi]
  rw [vectorAt, Vector.getElem_ofFn, floatAt, Nat.zero_add,
    LittleEndian.wordAt_append_left (by rw [length_vectorBytes]; omega), vectorBytes,
    LittleEndian.wordAt_bytesOfWords hword]

theorem vectorAt_append_right {n : Nat} {front rest : List UInt8} {offset : Nat}
    (h : front.length ≤ offset) :
    vectorAt n (front ++ rest) offset = vectorAt n rest (offset - front.length) := by
  ext i hi
  have hskip : offset + 4 * i - front.length = offset - front.length + 4 * i := by omega
  rw [vectorAt, vectorAt, Vector.getElem_ofFn, Vector.getElem_ofFn, floatAt, floatAt,
    LittleEndian.wordAt_append_right (by omega), hskip]

/-- Reading data for an encoder succeeds where reading it does. -/
theorem EncodeContext.of_parse_eq_ok {ctx : EncodeContext} {α : Type}
    {read : Json → Except ShapeError α} {data : Json} {x : α} (h : ctx.parse read data = .ok x) :
    read data = .ok x :=
  mapError_eq_ok.mp h

/-! ## 2. Transforms -/

namespace Transform

/-- What the record of a transform holds: the components of the rotation stand in the order of the data,
`x, y, z, w`. -/
structure Recorded (data : Json) (record : List UInt8) : Prop where
  position : Shape.Gives data 0 "position" (Shape.singles 3) (vectorAt 3 record 0)
  rotation : Shape.Gives data 1 "rotation" (Shape.singles 4) (vectorAt 4 record 12)
  scale : Shape.Gives data 2 "scale" (Shape.singles 3) (vectorAt 3 record 28)

theorem gives_of_read {v : Json} {t : Transform} (h : read v = .ok t) :
    Shape.Gives v 0 "position" (Shape.singles 3) t.position ∧
      Shape.Gives v 1 "rotation" (Shape.singles 4) t.rotation ∧
      Shape.Gives v 2 "scale" (Shape.singles 3) t.scale := by
  unfold read at h
  split at h
  · next hvalues =>
    obtain rfl := Except.ok.inj h
    obtain ⟨hposition, hrest⟩ := (Shape.reads_of_values (by decide) hvalues).required
    obtain ⟨hrotation, hrest⟩ := hrest.required
    obtain ⟨hscale, -⟩ := hrest.required
    exact ⟨hposition, hrotation, hscale⟩
  · cases h

theorem position_bytes (t : Transform) : vectorAt 3 t.bytes 0 = t.position := by
  rw [bytes, List.append_assoc]
  exact vectorAt_vectorBytes_append t.position _

theorem rotation_bytes (t : Transform) : vectorAt 4 t.bytes 12 = t.rotation := by
  rw [bytes, List.append_assoc, vectorAt_append_right (by simp), length_vectorBytes]
  exact vectorAt_vectorBytes_append t.rotation _

theorem scale_bytes (t : Transform) : vectorAt 3 t.bytes 28 = t.scale := by
  have hscale := vectorAt_vectorBytes_append t.scale []
  rw [List.append_nil] at hscale
  rw [bytes, vectorAt_append_right (by simp), List.length_append, length_vectorBytes,
    length_vectorBytes]
  exact hscale

theorem recorded_of_encode {ctx : EncodeContext} {data : Json} {record : List UInt8}
    (h : encode ctx data = .ok record) : record.length = recordSize ∧ Recorded data record := by
  obtain ⟨t, hparse, h⟩ := bind_eq_ok.mp h
  obtain rfl := Except.ok.inj h
  obtain ⟨hposition, hrotation, hscale⟩ := gives_of_read (EncodeContext.of_parse_eq_ok hparse)
  refine ⟨t.length_bytes, ?_, ?_, ?_⟩
  · rwa [position_bytes]
  · rwa [rotation_bytes]
  · rwa [scale_bytes]

end Transform

/-! ## 3. Cameras -/

namespace Camera

/-- What the record of a camera holds: its projection by number. -/
structure Recorded (data : Json) (record : List UInt8) : Prop where
  projection : ∃ name projection, Shape.Gives data 0 "projection" Shape.text name ∧
    Projection.ofName name = .ok projection ∧
    LittleEndian.wordAt record 0 = projection.number
  fov : Shape.Gives data 1 "fov" Shape.single (floatAt record 4)
  near : Shape.Gives data 2 "near_range" Shape.single (floatAt record 8)
  far : Shape.Gives data 3 "far_range" Shape.single (floatAt record 12)

theorem gives_of_readData {v : Json} {d : CameraData} (h : readData v = .ok d) :
    Shape.Gives v 0 "projection" Shape.text d.projection ∧
      Shape.Gives v 1 "fov" Shape.single d.fov ∧
      Shape.Gives v 2 "near_range" Shape.single d.near ∧
      Shape.Gives v 3 "far_range" Shape.single d.far := by
  unfold readData at h
  split at h
  · next hvalues =>
    obtain rfl := Except.ok.inj h
    obtain ⟨hprojection, hrest⟩ := (Shape.reads_of_values (by decide) hvalues).required
    obtain ⟨hfov, hrest⟩ := hrest.required
    obtain ⟨hnear, hrest⟩ := hrest.required
    obtain ⟨hfar, -⟩ := hrest.required
    exact ⟨hprojection, hfov, hnear, hfar⟩
  · cases h

/-- The words of the record, one after the other. -/
theorem wordAt_bytes (c : Camera) {i : Nat} {w : UInt32}
    (h : [c.projection.number, c.fov.bits, c.near.bits, c.far.bits][i]? = some w) :
    LittleEndian.wordAt c.bytes (4 * i) = w :=
  LittleEndian.wordAt_bytesOfWords h

theorem recorded_of_encode {ctx : EncodeContext} {data : Json} {record : List UInt8}
    (h : encode ctx data = .ok record) : record.length = recordSize ∧ Recorded data record := by
  obtain ⟨d, hparse, h⟩ := bind_eq_ok.mp h
  obtain ⟨projection, hname, h⟩ := bind_eq_ok.mp h
  obtain rfl := Except.ok.inj h
  obtain ⟨hprojection, hfov, hnear, hfar⟩ :=
    gives_of_readData (EncodeContext.of_parse_eq_ok hparse)
  refine ⟨length_bytes _, ⟨d.projection, projection, hprojection, hname, ?_⟩, ?_, ?_, ?_⟩
  · exact wordAt_bytes _ (i := 0) rfl
  · rwa [floatAt, wordAt_bytes _ (i := 1) rfl]
  · rwa [floatAt, wordAt_bytes _ (i := 2) rfl]
  · rwa [floatAt, wordAt_bytes _ (i := 3) rfl]

end Camera

/-! ## 4. Lights -/

namespace Light

/-- What the record of a light holds: its kind by number. -/
structure Recorded (data : Json) (record : List UInt8) : Prop where
  kind : ∃ name kind, Shape.Gives data 0 "type" Shape.text name ∧
    LightKind.ofName name = .ok kind ∧ LittleEndian.wordAt record 0 = kind.number
  range : Shape.Gives data 1 "range" Shape.single (floatAt record 4)
  intensity : Shape.Gives data 2 "intensity" Shape.single (floatAt record 8)
  spotAngle : Shape.Gives data 3 "spot_angle" Shape.single (floatAt record 12)
  color : Shape.Gives data 4 "color" (Shape.singles 3) (vectorAt 3 record 16)

theorem gives_of_readData {v : Json} {d : LightData} (h : readData v = .ok d) :
    Shape.Gives v 0 "type" Shape.text d.kind ∧
      Shape.Gives v 1 "range" Shape.single d.range ∧
      Shape.Gives v 2 "intensity" Shape.single d.intensity ∧
      Shape.Gives v 3 "spot_angle" Shape.single d.spotAngle ∧
      Shape.Gives v 4 "color" (Shape.singles 3) d.color := by
  unfold readData at h
  split at h
  · next hvalues =>
    obtain rfl := Except.ok.inj h
    obtain ⟨hkind, hrest⟩ := (Shape.reads_of_values (by decide) hvalues).required
    obtain ⟨hrange, hrest⟩ := hrest.required
    obtain ⟨hintensity, hrest⟩ := hrest.required
    obtain ⟨hspotAngle, hrest⟩ := hrest.required
    obtain ⟨hcolor, -⟩ := hrest.required
    exact ⟨hkind, hrange, hintensity, hspotAngle, hcolor⟩
  · cases h

/-- The words before the colour, one after the other. -/
theorem wordAt_bytes (l : Light) {i : Nat} {w : UInt32}
    (h : [l.kind.number, l.range.bits, l.intensity.bits, l.spotAngle.bits][i]? = some w) :
    LittleEndian.wordAt l.bytes (4 * i) = w := by
  have hi : i < 4 := (List.getElem?_eq_some_iff.mp h).1
  rw [bytes, LittleEndian.wordAt_append_left (by simp; omega)]
  exact LittleEndian.wordAt_bytesOfWords h

theorem color_bytes (l : Light) : vectorAt 3 l.bytes 16 = l.color := by
  have hcolor := vectorAt_vectorBytes_append l.color []
  rw [List.append_nil] at hcolor
  rw [bytes, vectorAt_append_right (by simp), LittleEndian.length_bytesOfWords]
  exact hcolor

theorem recorded_of_encode {ctx : EncodeContext} {data : Json} {record : List UInt8}
    (h : encode ctx data = .ok record) : record.length = recordSize ∧ Recorded data record := by
  obtain ⟨d, hparse, h⟩ := bind_eq_ok.mp h
  obtain ⟨kind, hname, h⟩ := bind_eq_ok.mp h
  obtain rfl := Except.ok.inj h
  obtain ⟨hkind, hrange, hintensity, hspotAngle, hcolor⟩ :=
    gives_of_readData (EncodeContext.of_parse_eq_ok hparse)
  refine ⟨length_bytes _, ⟨d.kind, kind, hkind, hname, ?_⟩, ?_, ?_, ?_, ?_⟩
  · exact wordAt_bytes _ (i := 0) rfl
  · rwa [floatAt, wordAt_bytes _ (i := 1) rfl]
  · rwa [floatAt, wordAt_bytes _ (i := 2) rfl]
  · rwa [floatAt, wordAt_bytes _ (i := 3) rfl]
  · rwa [color_bytes]

end Light

/-! ## 5. Renderers -/

namespace MeshRenderer

/-- What the record of a mesh renderer holds: both resources first, by their ids, then the geometry by
its hash. -/
structure Recorded (data : Json) (record : List UInt8) : Prop where
  mesh : ∃ name, Shape.Gives data 0 "mesh_resource" Shape.text name ∧
    LittleEndian.longAt record 0 = resourceId name
  material : ∃ name, Shape.Gives data 2 "material" Shape.text name ∧
    LittleEndian.longAt record 8 = resourceId name
  geometry : ∃ name, Shape.Gives data 1 "geometry_name" Shape.text name ∧
    LittleEndian.wordAt record 16 = nameHash name
  visible : ∃ visible, Shape.Gives data 3 "visible" Shape.bool visible ∧
    LittleEndian.wordAt record 20 = truthWord visible

theorem gives_of_read {v : Json} {m : MeshRenderer} (h : read v = .ok m) :
    Shape.Gives v 0 "mesh_resource" Shape.text m.mesh ∧
      Shape.Gives v 1 "geometry_name" Shape.text m.geometry ∧
      Shape.Gives v 2 "material" Shape.text m.material ∧
      Shape.Gives v 3 "visible" Shape.bool m.visible := by
  unfold read at h
  split at h
  · next hvalues =>
    obtain rfl := Except.ok.inj h
    obtain ⟨hmesh, hrest⟩ := (Shape.reads_of_values (by decide) hvalues).required
    obtain ⟨hgeometry, hrest⟩ := hrest.required
    obtain ⟨hmaterial, hrest⟩ := hrest.required
    obtain ⟨hvisible, -⟩ := hrest.required
    exact ⟨hmesh, hgeometry, hmaterial, hvisible⟩
  · cases h

theorem recorded_of_encode {ctx : EncodeContext} {data : Json} {record : List UInt8}
    (h : encode ctx data = .ok record) : record.length = recordSize ∧ Recorded data record := by
  obtain ⟨m, hparse, h⟩ := bind_eq_ok.mp h
  obtain ⟨-, -, h⟩ := bind_eq_ok.mp h
  obtain rfl := Except.ok.inj h
  obtain ⟨hmesh, hgeometry, hmaterial, hvisible⟩ :=
    gives_of_read (EncodeContext.of_parse_eq_ok hparse)
  obtain ⟨hmeshId, hmaterialId⟩ :=
    LittleEndian.longAt_two_longs (resourceId m.mesh) (resourceId m.material)
      (LittleEndian.bytesOfWords [nameHash m.geometry, truthWord m.visible])
  refine ⟨m.length_bytes, ⟨m.mesh, hmesh, hmeshId⟩, ⟨m.material, hmaterial, hmaterialId⟩,
    ⟨m.geometry, hgeometry, ?_⟩, ⟨m.visible, hvisible, ?_⟩⟩
  · exact LittleEndian.wordAt_two_longs _ _ (i := 0) rfl
  · exact LittleEndian.wordAt_two_longs _ _ (i := 1) rfl

end MeshRenderer

namespace SpriteRenderer

/-- What the record of a sprite renderer holds: both resources by their ids, layer, depth and
visibility, and zero in the word of padding. -/
structure Recorded (data : Json) (record : List UInt8) : Prop where
  sprite : ∃ name, Shape.Gives data 0 "sprite_resource" Shape.text name ∧
    LittleEndian.longAt record 0 = resourceId name
  material : ∃ name, Shape.Gives data 1 "material" Shape.text name ∧
    LittleEndian.longAt record 8 = resourceId name
  layer : Shape.Gives data 2 "layer" Shape.word (LittleEndian.wordAt record 16)
  depth : Shape.Gives data 3 "depth" Shape.word (LittleEndian.wordAt record 20)
  visible : ∃ visible, Shape.Gives data 4 "visible" Shape.bool visible ∧
    LittleEndian.wordAt record 24 = truthWord visible
  padding : LittleEndian.wordAt record 28 = 0

theorem gives_of_read {v : Json} {s : SpriteRenderer} (h : read v = .ok s) :
    Shape.Gives v 0 "sprite_resource" Shape.text s.sprite ∧
      Shape.Gives v 1 "material" Shape.text s.material ∧
      Shape.Gives v 2 "layer" Shape.word s.layer ∧
      Shape.Gives v 3 "depth" Shape.word s.depth ∧
      Shape.Gives v 4 "visible" Shape.bool s.visible := by
  unfold read at h
  split at h
  · next hvalues =>
    obtain rfl := Except.ok.inj h
    obtain ⟨hsprite, hrest⟩ := (Shape.reads_of_values (by decide) hvalues).required
    obtain ⟨hmaterial, hrest⟩ := hrest.required
    obtain ⟨hlayer, hrest⟩ := hrest.required
    obtain ⟨hdepth, hrest⟩ := hrest.required
    obtain ⟨hvisible, -⟩ := hrest.required
    exact ⟨hsprite, hmaterial, hlayer, hdepth, hvisible⟩
  · cases h

/-- The words behind the ids, one after the other. -/
theorem wordAt_bytes (s : SpriteRenderer) {i : Nat} {w : UInt32}
    (h : [s.layer, s.depth, truthWord s.visible, 0][i]? = some w) :
    LittleEndian.wordAt s.bytes (16 + 4 * i) = w :=
  LittleEndian.wordAt_two_longs _ _ h

theorem recorded_of_encode {ctx : EncodeContext} {data : Json} {record : List UInt8}
    (h : encode ctx data = .ok record) : record.length = recordSize ∧ Recorded data record := by
  obtain ⟨s, hparse, h⟩ := bind_eq_ok.mp h
  obtain ⟨-, -, h⟩ := bind_eq_ok.mp h
  obtain rfl := Except.ok.inj h
  obtain ⟨hsprite, hmaterial, hlayer, hdepth, hvisible⟩ :=
    gives_of_read (EncodeContext.of_parse_eq_ok hparse)
  obtain ⟨hspriteId, hmaterialId⟩ :=
    LittleEndian.longAt_two_longs (resourceId s.sprite) (resourceId s.material)
      (LittleEndian.bytesOfWords [s.layer, s.depth, truthWord s.visible, 0])
  refine ⟨s.length_bytes, ⟨s.sprite, hsprite, hspriteId⟩, ⟨s.material, hmaterial, hmaterialId⟩,
    ?_, ?_, ⟨s.visible, hvisible, ?_⟩, ?_⟩
  · rwa [wordAt_bytes _ (i := 0) rfl]
  · rwa [wordAt_bytes _ (i := 1) rfl]
  · exact wordAt_bytes _ (i := 2) rfl
  · exact wordAt_bytes _ (i := 3) rfl

end SpriteRenderer

/-! ## 6. References -/

namespace Reference

/-- What the record of a reference holds: the id of the one resource. -/
def Recorded (r : Reference) (data : Json) (record : List UInt8) : Prop :=
  ∃ name, Shape.Gives data 0 r.field Shape.text name ∧
    LittleEndian.longAt record 0 = resourceId name

theorem gives_of_read {r : Reference} {v : Json} {name : String} (h : r.read v = .ok name) :
    Shape.Gives v 0 r.field Shape.text name := by
  have hnodup : (r.fields.map Shape.Field.name).Nodup := List.nodup_cons.mpr ⟨by simp, .nil⟩
  unfold read at h
  split at h
  · next hvalues =>
    obtain rfl := Except.ok.inj h
    exact (Shape.reads_of_values hnodup hvalues).required.1
  · cases h

theorem recorded_of_encode {r : Reference} {ctx : EncodeContext} {data : Json}
    {record : List UInt8} (h : r.encode ctx data = .ok record) :
    record.length = recordSize ∧ r.Recorded data record := by
  obtain ⟨name, hparse, h⟩ := bind_eq_ok.mp h
  obtain ⟨-, -, h⟩ := bind_eq_ok.mp h
  obtain rfl := Except.ok.inj h
  have hid := LittleEndian.longAt_bytes64_append (resourceId name) []
  rw [List.append_nil] at hid
  exact ⟨length_bytes name, name, gives_of_read (EncodeContext.of_parse_eq_ok hparse), hid⟩

end Reference

/-! ## 7. All types -/

namespace Builtin

/-- The built-in component types. -/
inductive Kind where
  | transform
  | camera
  | meshRenderer
  | spriteRenderer
  | light
  | script
  | stateMachine
deriving DecidableEq, Repr

namespace Kind

/-- The name a type is registered under. -/
def name : Kind → String
  | transform => "transform"
  | camera => "camera"
  | meshRenderer => "mesh_renderer"
  | spriteRenderer => "sprite_renderer"
  | light => "light"
  | script => "script"
  | stateMachine => "animation_state_machine"

/-- The id components of a type have. -/
def typeId (k : Kind) : TypeId := .ofName k.name

/-- The size of the records of a type. -/
def recordSize : Kind → Nat
  | transform => 40
  | camera => 16
  | meshRenderer => 24
  | spriteRenderer => 32
  | light => 28
  | script => 8
  | stateMachine => 8

/-- What the record of a component holds. -/
def Recorded : Kind → Json → List UInt8 → Prop
  | transform => Transform.Recorded
  | camera => Camera.Recorded
  | meshRenderer => MeshRenderer.Recorded
  | spriteRenderer => SpriteRenderer.Recorded
  | light => Light.Recorded
  | script => Reference.script.Recorded
  | stateMachine => Reference.stateMachine.Recorded

/-- **Whatever an encoder is registered for under a type's name returns records of the type.** -/
theorem recorded_of_encode {entry : String × Encoder × UInt32} (hentry : entry ∈ types)
    {ctx : EncodeContext} {data : Json} {record : List UInt8}
    (h : entry.2.1 ctx data = .ok record) :
    ∃ k : Kind, k.name = entry.1 ∧ record.length = k.recordSize ∧ k.Recorded data record := by
  simp only [types, List.mem_cons, List.not_mem_nil, or_false] at hentry
  rcases hentry with rfl | rfl | rfl | rfl | rfl | rfl | rfl
  · exact ⟨transform, rfl, Transform.recorded_of_encode h⟩
  · exact ⟨camera, rfl, Camera.recorded_of_encode h⟩
  · exact ⟨meshRenderer, rfl, MeshRenderer.recorded_of_encode h⟩
  · exact ⟨spriteRenderer, rfl, SpriteRenderer.recorded_of_encode h⟩
  · exact ⟨light, rfl, Light.recorded_of_encode h⟩
  · exact ⟨script, rfl, Reference.recorded_of_encode h⟩
  · exact ⟨stateMachine, rfl, Reference.recorded_of_encode h⟩

end Kind

/-- What is found after types are registered was found before or is one of them. -/
theorem get?_registerAll {t : TypeId} {x : Registration} :
    ∀ {entries : List (String × Encoder × UInt32)} {r : Registry},
      (registerAll r entries).result.1.types.get? t = some x →
        r.types.get? t = some x ∨
          ∃ e ∈ entries, TypeId.ofName e.1 = t ∧ x = ⟨e.1, e.2.2, e.2.1⟩
  | [], _, h => Or.inl h
  | (name, encoder, order) :: rest, r, h => by
    rw [registerAll] at h
    cases hadd : r.register name encoder order with
    | error collision =>
      rw [hadd] at h
      exact Or.inl h
    | ok added =>
      rw [hadd] at h
      rcases get?_registerAll h with hfound | ⟨e, he, htype, rfl⟩
      · rw [Registry.get?_of_register hadd] at hfound
        split at hfound
        · next htype =>
          obtain rfl := Option.some.inj hfound
          exact Or.inr ⟨_, List.mem_cons_self, htype.symm, rfl⟩
        · exact Or.inl hfound
      · exact Or.inr ⟨e, List.mem_cons_of_mem _ he, htype, rfl⟩

/-- **Whatever the built-in encoders return for a type is a record of the type.** -/
theorem recorded_of_registered {t : TypeId} {x : Registration}
    (hx : registry.types.get? t = some x) {ctx : EncodeContext} {data : Json}
    {record : List UInt8} (h : x.encoder ctx data = .ok record) :
    ∃ k : Kind, k.typeId = t ∧ record.length = k.recordSize ∧ k.Recorded data record := by
  rcases get?_registerAll hx with hempty | ⟨e, he, htype, rfl⟩
  · cases hempty
  · obtain ⟨k, hname, hsize, hrecorded⟩ := Kind.recorded_of_encode he h
    refine ⟨k, ?_, hsize, hrecorded⟩
    rw [Kind.typeId, hname]
    exact htype

end Builtin

end UnitBake
