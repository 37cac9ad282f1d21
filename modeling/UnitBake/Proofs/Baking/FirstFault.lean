/-
# The fault of a unit is that of the first step that fails

The steps of baking a unit are to resolve it (`Prefab.Refused` is the order of those) and then to encode
the resolved components one after the other, each with the encoder that is registered for its type.
Components of the root that are overridden are not among them, so nothing is asked of them.

`Baker.FirstFault` says which fault is met first on this way, and `Baker.first_fault` that it is the one
that baking tells, wrapped with the name of the unit.  With the built-in types all references of a
unit that bakes are grounded (`Builtin.Kind.Grounded`): the resources are there, and projections and
lights are of the known kinds.
-/
import UnitBake.Proofs.Baking.Queries
import UnitBake.Proofs.Prefab.Refusal

namespace UnitBake

/-! ## 1. Components -/

namespace Baker

/-- Why a component is not encoded: its type is not registered, or the encoder of its type refuses. -/
inductive Rejects (b : Baker) (c : Component) : Fault → Prop where
  | unknownType (hget : b.registry.get? (.ofName c.typeName) = none) :
      Rejects b c (.unknownType c.typeName)
  | encoder {encoder : Encoder} {fault : Fault}
      (hget : b.registry.get? (.ofName c.typeName) = some encoder)
      (hencode : encoder ⟨c.typeName, b.source⟩ c.data = .error fault) : Rejects b c fault

/-- A component is encoded. -/
def Encodes (b : Baker) (c : Component) : Prop := ∃ i, b.encodeComponent c = .ok i

variable {b : Baker}

theorem encodes_of_encoded? {c : Component} {e : Encoded} (h : b.encoded? c = some e) :
    b.Encodes c := by
  refine ⟨e.toInstance, eq_ok_of_toOption ?_⟩
  rw [toOption_encodeComponent, h]
  rfl

theorem encodeComponent_eq_error_iff {c : Component} {fault : Fault} :
    b.encodeComponent c = .error fault ↔ b.Rejects c fault := by
  rw [encodeComponent]
  constructor
  · intro h
    cases hget : b.registry.get? (.ofName c.typeName) with
    | none =>
      simp only [hget] at h
      obtain rfl := Except.error.inj h
      exact .unknownType hget
    | some encoder =>
      simp only [hget] at h
      exact .encoder hget (map_eq_error.mp h)
  · rintro (hget | ⟨hget, hencode⟩)
    · simp only [hget]
    · simp only [hget]
      exact map_eq_error.mpr hencode

/-- Components are encoded in order, up to the first that is rejected. -/
theorem encodeAll_eq_error_iff {fault : Fault} : ∀ {components : List Component},
    b.encodeAll components = .error fault ↔ First b.Encodes (b.Rejects · fault) components
  | [] => by simp [encodeAll]
  | c :: rest => by
    have hrest : ∀ i : Instance, (b.encodeAll rest >>= fun is => pure (i :: is)) = .error fault ↔
        First b.Encodes (b.Rejects · fault) rest := by
      intro i
      rw [bind_eq_error, encodeAll_eq_error_iff]
      simp [pure, Except.pure]
    rw [encodeAll, bind_eq_error, First.cons_iff, encodeComponent_eq_error_iff]
    simp only [hrest, exists_and_right]
    rfl

theorem exists_encodeAll_iff : ∀ {components : List Component},
    (∃ instances, b.encodeAll components = .ok instances) ↔ ∀ c ∈ components, b.Encodes c
  | [] => by simp [encodeAll]
  | c :: rest => by
    rw [List.forall_mem_cons, ← exists_encodeAll_iff]
    constructor
    · rintro ⟨instances, h⟩
      obtain ⟨i, hi, h⟩ := bind_eq_ok.mp h
      obtain ⟨is, his, -⟩ := bind_eq_ok.mp h
      exact ⟨⟨i, hi⟩, is, his⟩
    · rintro ⟨⟨i, hi⟩, is, his⟩
      exact ⟨i :: is, bind_eq_ok.mpr ⟨i, hi, bind_eq_ok.mpr ⟨is, his, rfl⟩⟩⟩

/-! ## 2. Units -/

/-- What is wrong with a unit: what it is refused for when it is resolved, or else what the first of its
resolved components that is not encoded is rejected for. -/
inductive FirstFault (b : Baker) (tree : Json) (name : String) : Fault → Prop where
  | refused {fault : Fault} (hrefused : Prefab.Refused b.source b.prefabDepth tree name fault) :
      FirstFault b tree name fault
  | rejected {leaf : Document} {above : List Document} {resolved : List Component} {fault : Fault}
      (hloads : Prefab.Loads b.source b.prefabDepth tree leaf above)
      (hresolved : (Prefab.resolveChain name (leaf :: above)).result = .ok resolved)
      (hrejected : First b.Encodes (b.Rejects · fault) resolved) : FirstFault b tree name fault

/-- Nothing is wrong with a unit: its documents load, the keys of its overrides are read if they count,
and all its resolved components are encoded. -/
def Sound (b : Baker) (tree : Json) (name : String) : Prop :=
  ∃ leaf above resolved, Prefab.Loads b.source b.prefabDepth tree leaf above ∧
    (above ≠ [] → ∀ d ∈ leaf :: above, d.KeysRead) ∧
    (Prefab.resolveChain name (leaf :: above)).result = .ok resolved ∧ ∀ c ∈ resolved, b.Encodes c

variable {tree : Json} {name : String}

theorem result_encodeUnit_eq_error_iff {fault : Fault} :
    (b.encodeUnit tree name).result = .error fault ↔ b.FirstFault tree name fault := by
  rw [encodeUnit]
  constructor
  · intro h
    rcases bind_eq_error.mp h with h | ⟨resolved, hresolved, h⟩
    · exact .refused (Prefab.result_resolve_eq_error_iff.mp h)
    · obtain ⟨leaf, above, hloads, hresolved⟩ := Prefab.result_resolve_eq_ok_iff.mp hresolved
      exact .rejected hloads hresolved (encodeAll_eq_error_iff.mp h)
  · rintro (hrefused | ⟨hloads, hresolved, hrejected⟩)
    · exact bind_eq_error.mpr (.inl (Prefab.result_resolve_eq_error_iff.mpr hrefused))
    · exact bind_eq_error.mpr (.inr ⟨_,
        Prefab.result_resolve_eq_ok_iff.mpr ⟨_, _, hloads, hresolved⟩,
        encodeAll_eq_error_iff.mpr hrejected⟩)

theorem exists_encodeUnit_iff :
    (∃ instances, (b.encodeUnit tree name).result = .ok instances) ↔ b.Sound tree name := by
  rw [encodeUnit]
  constructor
  · rintro ⟨instances, h⟩
    obtain ⟨resolved, hresolved, h⟩ := bind_eq_ok.mp h
    obtain ⟨leaf, above, hloads, hresolved⟩ := Prefab.result_resolve_eq_ok_iff.mp hresolved
    exact ⟨leaf, above, resolved, hloads, Prefab.exists_resolveChain_iff.mp ⟨resolved, hresolved⟩,
      hresolved, exists_encodeAll_iff.mp ⟨instances, h⟩⟩
  · rintro ⟨leaf, above, resolved, hloads, -, hresolved, hencodes⟩
    obtain ⟨instances, h⟩ := exists_encodeAll_iff.mpr hencodes
    exact ⟨instances, bind_eq_ok.mpr ⟨resolved,
      Prefab.result_resolve_eq_ok_iff.mpr ⟨leaf, above, hloads, hresolved⟩, h⟩⟩

/-- The fault of a unit is wrapped with its name. -/
theorem failure_bakeNamed_eq_some_iff {batch : Batch} {fault : Fault} :
    (b.bakeNamed batch tree name).failure = some fault ↔
      ∃ inner, (b.encodeUnit tree name).result = .error inner ∧ fault = inner.within name := by
  rw [bakeNamed]
  cases (b.encodeUnit tree name).result with
  | error inner => simp [eq_comm]
  | ok instances => simp

theorem failure_bakeNamed_eq_none_iff {batch : Batch} :
    (b.bakeNamed batch tree name).failure = none ↔
      ∃ instances, (b.encodeUnit tree name).result = .ok instances := by
  rw [bakeNamed]
  cases (b.encodeUnit tree name).result with
  | error inner => simp
  | ok instances => simp

end Baker

/-! ## 3. References of the built-in types -/

/-- A field of the data is a text, which is such a name. -/
def Names (data : Json) (field : String) (Known : String → Prop) : Prop :=
  ∃ name, Shape.Gives data 0 field Shape.text name ∧ Known name

theorem Projection.known_of_ofName {name : String} {p : Projection} (h : ofName name = .ok p) :
    name ∈ ["perspective", "orthographic"] := by
  unfold ofName at h
  split at h
  · simp [*]
  · split at h
    · simp [*]
    · cases h

theorem LightKind.known_of_ofName {name : String} {l : LightKind} (h : ofName name = .ok l) :
    name ∈ ["directional", "omni", "spot"] := by
  unfold ofName at h
  split at h
  · simp [*]
  · split at h
    · simp [*]
    · split at h
      · simp [*]
      · cases h

namespace Builtin

/-- An encoder that requires one resource and returns a record has found it. -/
theorem exists_of_encode_referring {α : Type} {read : Json → Except ShapeError α} {kind : String}
    {name : α → String} {bytes : α → List UInt8} {ctx : EncodeContext} {data : Json}
    {record : List UInt8}
    (h : (do
      let x ← ctx.parse read data
      ctx.require kind (name x)
      return bytes x) = .ok record) :
    ∃ x, read data = .ok x ∧ ctx.source.resourceExists kind (name x) = true := by
  obtain ⟨x, hparse, -⟩ := bind_eq_ok.mp h
  have hread := EncodeContext.of_parse_eq_ok hparse
  exact ⟨x, hread, found_of_encode_referring (.of_ok h) hread⟩

namespace Kind

/-- What the data of a component refers to is there: the resource exists, the projection or the kind of
light is known. -/
def Grounded (s : Source) : Kind → Json → Prop
  | transform, _ => True
  | camera, data => Names data "projection" (· ∈ ["perspective", "orthographic"])
  | light, data => Names data "type" (· ∈ ["directional", "omni", "spot"])
  | meshRenderer, data => Names data "mesh_resource" (s.resourceExists "mesh" · = true)
  | spriteRenderer, data => Names data "sprite_resource" (s.resourceExists "sprite" · = true)
  | script, data => Names data "script_resource" (s.resourceExists "lua" · = true)
  | stateMachine, data =>
    Names data "state_machine_resource" (s.resourceExists "state_machine" · = true)

theorem grounded_of_encode {k : Kind} {ctx : EncodeContext} {data : Json} {record : List UInt8}
    (h : k.encode ctx data = .ok record) : k.Grounded ctx.source data := by
  cases k with
  | transform => trivial
  | camera =>
    obtain ⟨d, hparse, h⟩ := bind_eq_ok.mp h
    obtain ⟨p, hname, -⟩ := bind_eq_ok.mp h
    obtain ⟨hprojection, -⟩ := Camera.gives_of_readData (EncodeContext.of_parse_eq_ok hparse)
    exact ⟨d.projection, hprojection, Projection.known_of_ofName hname⟩
  | light =>
    obtain ⟨d, hparse, h⟩ := bind_eq_ok.mp h
    obtain ⟨l, hname, -⟩ := bind_eq_ok.mp h
    obtain ⟨hkind, -⟩ := Light.gives_of_readData (EncodeContext.of_parse_eq_ok hparse)
    exact ⟨d.kind, hkind, LightKind.known_of_ofName hname⟩
  | meshRenderer =>
    obtain ⟨m, hread, hexists⟩ := exists_of_encode_referring h
    exact ⟨m.mesh, (MeshRenderer.gives_of_read hread).1, hexists⟩
  | spriteRenderer =>
    obtain ⟨r, hread, hexists⟩ := exists_of_encode_referring h
    exact ⟨r.sprite, (SpriteRenderer.gives_of_read hread).1, hexists⟩
  | script | stateMachine =>
    obtain ⟨name, hread, hexists⟩ := exists_of_encode_referring h
    exact ⟨name, Reference.gives_of_read hread, hexists⟩

end Kind

/-- A component that is encoded by a built-in encoder is of a built-in type, and grounded. -/
theorem grounded_of_encodes {b : Baker} (hb : b.registry = registry) {c : Component}
    (h : b.Encodes c) : ∃ k : Kind, k.typeId = .ofName c.typeName ∧ k.Grounded b.source c.data := by
  obtain ⟨i, h⟩ := h
  rw [Baker.encodeComponent, hb] at h
  cases hget : registry.get? (.ofName c.typeName) with
  | none => simp [hget] at h
  | some encoder =>
    obtain ⟨k, htype, rfl⟩ := exists_kind_of_get? hget
    simp only [hget] at h
    obtain ⟨record, hencode, -⟩ := map_eq_ok.mp h
    exact ⟨k, htype, Kind.grounded_of_encode hencode⟩

end Builtin

/-! ## 4. The first fault is told -/

/-- The name of a unit that is given by its tree: the number of units before it. -/
def unitName (n : Nat) : String := "#" ++ toString n

namespace Baker

/-- **Baking fails exactly for the first step that fails.**  The fault is that of the step, wrapped with
the name of the unit, which leaves its root as it is.  With the built-in types a unit that bakes refers
to nothing that is not there. -/
theorem first_fault (b : Baker) (batch : Batch) (tree : Json) :
    (∀ fault, (b.bakeTree batch tree).failure = some fault ↔
      ∃ inner, b.FirstFault tree (unitName batch.units.toNat) inner ∧
        fault = inner.within (unitName batch.units.toNat)) ∧
      (∀ fault inner, (b.bakeTree batch tree).failure = some fault →
        b.FirstFault tree (unitName batch.units.toNat) inner → fault.root = inner.root) ∧
      ((b.bakeTree batch tree).failure = none ↔ b.Sound tree (unitName batch.units.toNat)) ∧
      (b.registry = Builtin.registry → (b.bakeTree batch tree).failure = none →
        ∃ resolved, (Prefab.resolve b.source b.prefabDepth tree
            (unitName batch.units.toNat)).result = .ok resolved ∧
          ∀ c ∈ resolved, ∃ k : Builtin.Kind, k.typeId = .ofName c.typeName ∧
            k.Grounded b.source c.data) := by
  have hsome : ∀ fault, (b.bakeTree batch tree).failure = some fault ↔
      ∃ inner, b.FirstFault tree (unitName batch.units.toNat) inner ∧
        fault = inner.within (unitName batch.units.toNat) := by
    intro fault
    simp only [← result_encodeUnit_eq_error_iff]
    exact failure_bakeNamed_eq_some_iff
  have hnone : (b.bakeTree batch tree).failure = none ↔
      b.Sound tree (unitName batch.units.toNat) :=
    failure_bakeNamed_eq_none_iff.trans exists_encodeUnit_iff
  refine ⟨hsome, ?_, hnone, ?_⟩
  · intro fault inner hfailure hinner
    obtain ⟨inner', hinner', rfl⟩ := (hsome fault).mp hfailure
    -- only one fault is the first
    obtain rfl : inner' = inner := Except.error.inj
      ((result_encodeUnit_eq_error_iff.mpr hinner').symm.trans
        (result_encodeUnit_eq_error_iff.mpr hinner))
    exact inner'.root_within _
  · intro hb hfailure
    obtain ⟨leaf, above, resolved, hloads, -, hresolved, hencodes⟩ := hnone.mp hfailure
    exact ⟨resolved, Prefab.result_resolve_eq_ok_iff.mpr ⟨leaf, above, hloads, hresolved⟩,
      fun c hc => Builtin.grounded_of_encodes hb (hencodes c hc)⟩

/-- A unit with a part that no encoder takes, and a script. -/
def lensSource : Source :=
  ((MemorySource.empty.insertUnit "lens" (.object [
    ("components", .list [.object [
      ("data", .object [("far_range", .ofNat 9), ("fov", .ofNat 1), ("near_range", .ofNat 1),
        ("projection", .text "fisheye")]),
      ("id", .text "00000000-0000-0000-0000-00000000000a"),
      ("type", .text "camera")]])])).insertResource "lua" "zoom").source

/-- A unit that inherits the part and has the script in its place, under such keys. -/
def refitted (keys : List String) : Json :=
  .object [
    ("modified_components", .object (keys.map fun key => (key, .object [
      ("data", .object [("script_resource", .text "zoom")]),
      ("type", .text "script")]))),
    ("prefab", .text "lens")]

/-- The part is refused unless it is overridden, and then nothing is asked of it; but a key is refused
before that, which no part has. -/
theorem first_fault_refitted :
    let b := Builtin.baker lensSource 2
    let key := "#0000000000000000000000000000000a"
    (∃ inner, b.FirstFault (refitted []) "#0" inner ∧
        inner.root = .unknownVariant "projection" "fisheye") ∧
      (∃ inner, b.FirstFault (refitted [key, "?"]) "#0" inner ∧
        inner.root = .malformedKey "?" (.length 0)) ∧
      b.Sound (refitted [key]) "#0" ∧
      ∃ resolved, (Prefab.resolve lensSource 2 (refitted [key]) "#0").result = .ok resolved ∧
        ∀ c ∈ resolved, ∃ k : Builtin.Kind, k.typeId = .ofName c.typeName ∧
          k.Grounded lensSource c.data := by
  intro b key
  have hroot : ∀ {tree : Json} {fault : Fault}, (b.bakeTree .empty tree).failure = some fault →
      ∃ inner, b.FirstFault tree "#0" inner ∧ inner.root = fault.root := by
    intro tree fault hfailure
    obtain ⟨hsome, hsame, -⟩ := first_fault b .empty tree
    obtain ⟨inner, hfirst, -⟩ := (hsome fault).mp hfailure
    exact ⟨inner, hfirst, (hsame fault inner hfailure hfirst).symm⟩
  have hprojection : (b.bakeTree .empty (refitted [])).failure =
      some (.inUnit "#0" (.unknownVariant "projection" "fisheye")) := by
    decide +kernel
  have hkey : (b.bakeTree .empty (refitted [key, "?"])).failure =
      some (.inUnit "#0" (.malformedKey "?" (.length 0))) := by
    decide +kernel
  have hbakes : (b.bakeTree .empty (refitted [key])).failure = none := by
    decide +kernel
  obtain ⟨-, -, hnone, hgrounded⟩ := first_fault b .empty (refitted [key])
  exact ⟨hroot hprojection, hroot hkey, hnone.mp hbakes, hgrounded rfl hbakes⟩

end Baker

end UnitBake
