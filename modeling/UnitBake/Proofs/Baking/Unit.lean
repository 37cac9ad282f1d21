/-
# What a document comes to

`Baker.unit?` says what a document contributes to a blob: its resolved components, each with the
bytes of its encoder, or nothing if anything on the way fails.  It is a function of the baker and the
tree alone.  Baking is described by it:

* the name of a unit shows in faults and events, but never in what is encoded
  (`toOption_encodeUnit`);
* so one unit either adds exactly `unit?` to the batch or fails and leaves the batch alone
  (`bakeNamed_of_some`, `bakeNamed_of_none`);
* and a run over several documents adds the units of those that come to something
  (`batch_bakeMany`, `batch_bakeAll`).
-/
import UnitBake.Baker
import UnitBake.Proofs.Prefab.Chain
import UnitBake.Source.Memory

namespace UnitBake

/-! ## 1. Units -/

/-- A resolved component with the bytes of its encoder. -/
structure Encoded where
  component : Component
  bytes : List UInt8

namespace Encoded

/-- The type a component is encoded for: the one its type name hashes to. -/
def typeId (e : Encoded) : TypeId := .ofName e.component.typeName

/-- The instance that is added for an encoded component. -/
def toInstance (e : Encoded) : Instance := ⟨e.typeId, e.bytes⟩

@[simp] theorem typeId_toInstance (e : Encoded) : e.toInstance.typeId = e.typeId := rfl

end Encoded

namespace Baker

/-- A component with the bytes of the encoder found under its type name, unless there is none or it
refuses. -/
def encoded? (b : Baker) (c : Component) : Option Encoded :=
  (b.registry.lookup? c.typeName).bind fun encoder =>
    (encoder ⟨c.typeName, b.source⟩ c.data).toOption.map (Encoded.mk c)

/-- The resolved components of a document, if it has any resolution. -/
def components? (b : Baker) (tree : Json) : Option (List Component) :=
  (Prefab.resolve b.source b.prefabDepth tree "").result.toOption

/-- What a document comes to: all its resolved components, encoded. -/
def unit? (b : Baker) (tree : Json) : Option (List Encoded) :=
  (b.components? tree).bind (List.mapM b.encoded?)

/-- Whether a document comes to anything. -/
def bakes (b : Baker) (tree : Json) : Bool := (b.unit? tree).isSome

theorem toOption_encodeComponent (b : Baker) (c : Component) :
    (b.encodeComponent c).toOption = (b.encoded? c).map Encoded.toInstance := by
  simp only [encodeComponent, encoded?, Registry.lookup?]
  cases b.registry.get? (.ofName c.typeName) with
  | none => rfl
  | some encoder =>
    simp only [toOption_map, Option.bind_some, Option.map_map]
    rfl

theorem toOption_encodeAll (b : Baker) : ∀ components : List Component,
    (b.encodeAll components).toOption =
      (components.mapM b.encoded?).map (List.map Encoded.toInstance)
  | [] => rfl
  | c :: rest => by
    rw [encodeAll, List.mapM_cons]
    simp only [toOption_bind, toOption_encodeComponent b c, toOption_encodeAll b rest]
    cases b.encoded? c with
    | none => rfl
    | some e => cases rest.mapM b.encoded? <;> rfl

/-- **Encoding does not see the name of the unit.** -/
theorem toOption_encodeUnit (b : Baker) (tree : Json) (name : String) :
    (b.encodeUnit tree name).result.toOption =
      (b.unit? tree).map (List.map Encoded.toInstance) := by
  have hname := Prefab.toOption_resolve b.source b.prefabDepth tree name ""
  simp only [encodeUnit, toOption_bind, hname, unit?, components?]
  cases (Prefab.resolve b.source b.prefabDepth tree "").result.toOption with
  | none => rfl
  | some components => exact toOption_encodeAll b components

/-- A component that is encoded has its type registered. -/
theorem encoded?_eq_some {b : Baker} {c : Component} {e : Encoded} (h : b.encoded? c = some e) :
    e.component = c ∧ ∃ r, b.registry.types.get? (.ofName c.typeName) = some r ∧
      r.encoder ⟨c.typeName, b.source⟩ c.data = .ok e.bytes := by
  simp only [encoded?, Registry.lookup?, Registry.get?, Option.bind_eq_some_iff,
    Option.map_eq_some_iff] at h
  obtain ⟨encoder, ⟨r, hr, rfl⟩, bytes, hbytes, rfl⟩ := h
  exact ⟨rfl, r, hr, eq_ok_of_toOption hbytes⟩

/-- What stands in an encoded list comes from a component of the list that was encoded. -/
theorem exists_of_mem_mapM_encoded? {b : Baker} {e : Encoded} :
    ∀ {components : List Component} {unit : List Encoded},
      components.mapM b.encoded? = some unit → e ∈ unit →
        ∃ c ∈ components, b.encoded? c = some e
  | [], unit, h, he => by
    cases Option.some.inj h
    cases he
  | c :: rest, unit, h, he => by
    rw [List.mapM_cons] at h
    simp only [Option.bind_eq_bind, Option.bind_eq_some_iff, Option.pure_def,
      Option.some.injEq] at h
    obtain ⟨first, hfirst, others, hothers, rfl⟩ := h
    rcases List.mem_cons.mp he with rfl | he
    · exact ⟨c, List.mem_cons_self, hfirst⟩
    · obtain ⟨c', hmem, hc'⟩ := exists_of_mem_mapM_encoded? hothers he
      exact ⟨c', List.mem_cons_of_mem _ hmem, hc'⟩

/-- One component that cannot be encoded is enough to fail. -/
theorem mapM_encoded?_eq_none {b : Baker} {c : Component} (hc : b.encoded? c = none) :
    ∀ {components : List Component}, c ∈ components → components.mapM b.encoded? = none
  | first :: rest, hmem => by
    rw [List.mapM_cons]
    rcases List.mem_cons.mp hmem with rfl | hmem
    · rw [hc]
      rfl
    · rw [mapM_encoded?_eq_none hc hmem]
      cases b.encoded? first <;> rfl

end Baker

/-! ## 2. Batches of units -/

namespace Batch

/-- Adds a unit. -/
def addUnit (batch : Batch) (unit : List Encoded) : Batch := batch.add (unit.map Encoded.toInstance)

/-- Adds units in order. -/
def addUnits (batch : Batch) (units : List (List Encoded)) : Batch := units.foldl addUnit batch

@[simp] theorem addUnits_nil (batch : Batch) : batch.addUnits [] = batch := rfl

@[simp] theorem addUnits_cons (batch : Batch) (unit : List Encoded)
    (units : List (List Encoded)) :
    batch.addUnits (unit :: units) = (batch.addUnit unit).addUnits units := rfl

theorem units_addUnit (batch : Batch) (unit : List Encoded) :
    (batch.addUnit unit).units = batch.units + 1 := rfl

/-- Units are counted as they are added. -/
theorem units_addUnits : ∀ (units : List (List Encoded)) (batch : Batch),
    (batch.addUnits units).units = batch.units + UInt32.ofNat units.length
  | [], batch => (UInt32.add_zero batch.units).symm
  | unit :: rest, batch => by
    rw [addUnits_cons, units_addUnits rest, units_addUnit, List.length_cons, UInt32.add_assoc,
      Nat.add_comm, UInt32.ofNat_add]
    rfl

theorem addUnits_append (batch : Batch) (units more : List (List Encoded)) :
    batch.addUnits (units ++ more) = (batch.addUnits units).addUnits more :=
  List.foldl_append

end Batch

namespace Baker

variable {b : Baker} {tree : Json}

/-- A document that comes to something is added. -/
theorem bakeNamed_of_some (batch : Batch) {unit : List Encoded} (h : b.unit? tree = some unit)
    (name : String) :
    (b.bakeNamed batch tree name).failure = none ∧
      (b.bakeNamed batch tree name).batch = batch.addUnit unit := by
  have hresult : (b.encodeUnit tree name).result = .ok (unit.map Encoded.toInstance) := by
    apply eq_ok_of_toOption
    rw [toOption_encodeUnit, h]
    rfl
  rw [bakeNamed, hresult]
  exact ⟨rfl, rfl⟩

/-- **A document that comes to nothing fails and leaves the batch alone.** -/
theorem bakeNamed_of_none (batch : Batch) (h : b.unit? tree = none) (name : String) :
    (∃ fault, (b.bakeNamed batch tree name).failure = some fault) ∧
      (b.bakeNamed batch tree name).batch = batch := by
  obtain ⟨fault, hresult⟩ : ∃ fault, (b.encodeUnit tree name).result = .error fault := by
    apply eq_error_of_toOption
    rw [toOption_encodeUnit, h]
    rfl
  rw [bakeNamed, hresult]
  exact ⟨⟨fault.within name, rfl⟩, rfl⟩

theorem bakes_iff : b.bakes tree = true ↔ ∃ unit, b.unit? tree = some unit :=
  Option.isSome_iff_exists

theorem not_bakes_iff : b.bakes tree = false ↔ b.unit? tree = none :=
  Option.isSome_eq_false_iff.trans Option.isNone_iff_eq_none

/-- Baking fails exactly on the documents that come to nothing. -/
theorem failure_bakeNamed (batch : Batch) (name : String) :
    (b.bakeNamed batch tree name).failure = none ↔ b.bakes tree = true := by
  cases h : b.unit? tree with
  | none =>
    obtain ⟨⟨fault, hfault⟩, -⟩ := bakeNamed_of_none batch h name
    simp [hfault, bakes, h]
  | some unit => simp [(bakeNamed_of_some batch h name).1, bakes, h]

/-- The batch after one document. -/
theorem batch_bakeNamed (batch : Batch) (name : String) :
    (b.bakeNamed batch tree name).batch = batch.addUnits (b.unit? tree).toList := by
  cases h : b.unit? tree with
  | none => exact (bakeNamed_of_none batch h name).2
  | some unit => exact (bakeNamed_of_some batch h name).2

/-- The batch after the documents up to the first that fails. -/
theorem batch_bakeMany (b : Baker) : ∀ (trees : List Json) (batch : Batch),
    (b.bakeMany batch trees).batch =
      batch.addUnits ((trees.takeWhile b.bakes).filterMap b.unit?)
  | [], _ => rfl
  | tree :: rest, batch => by
    have hbatch : (b.bakeTree batch tree).batch = batch.addUnits (b.unit? tree).toList :=
      batch_bakeNamed batch _
    have hfailure : (b.bakeTree batch tree).failure = none ↔ b.bakes tree = true :=
      failure_bakeNamed batch _
    cases h : b.unit? tree with
    | none =>
      have hbakes : b.bakes tree = false := not_bakes_iff.mpr h
      obtain ⟨fault, hfault⟩ : ∃ fault, (b.bakeTree batch tree).failure = some fault :=
        (bakeNamed_of_none batch h _).1
      rw [List.takeWhile_cons_of_neg (by simp [hbakes])]
      simp only [bakeMany, hfault, hbatch, h]
      rfl
    | some unit =>
      have hbakes : b.bakes tree = true := bakes_iff.mpr ⟨unit, h⟩
      rw [List.takeWhile_cons_of_pos hbakes, List.filterMap_cons_some h]
      simp only [bakeMany, hfailure.mpr hbakes, hbatch, h, batch_bakeMany b rest]
      rfl

/-- The batch after all documents, those that fail passed over. -/
theorem batch_bakeAll (b : Baker) : ∀ (trees : List Json) (batch : Batch),
    (b.bakeAll batch trees).batch = batch.addUnits (trees.filterMap b.unit?)
  | [], _ => rfl
  | tree :: rest, batch => by
    rw [bakeAll, bakeTree]
    simp only [batch_bakeAll b rest, batch_bakeNamed, List.filterMap_cons]
    cases b.unit? tree <;> rfl

end Baker

/-! ## 3. A small baker

Two types whose encoder writes a number as one byte, and one unit of content. -/

/-- Writes a number as one byte. -/
def byteEncoder : Encoder := fun ctx data =>
  (ctx.parse Shape.word data).map fun w => [w.toUInt8]

/-- A document with components of the given types and numbers. -/
def byteUnit (components : List (String × Nat)) : Json :=
  .object [("components", .list (components.map fun c =>
    .object [("data", .ofNat c.2), ("type", .text c.1)]))]

/-- Knows the types `a` and `b`, of which `b` spawns first, and the unit `base`. -/
def byteBaker : Baker where
  registry := .ofTypes ((Table.empty.insert (.ofName "a") ⟨"a", 1, byteEncoder⟩).insert
    (.ofName "b") ⟨"b", 0, byteEncoder⟩)
  source := (MemorySource.empty.insertUnit "base" (byteUnit [("a", 9)])).source
  prefabDepth := defaultPrefabDepth

end UnitBake
