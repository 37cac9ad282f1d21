/-
# Baking units

The `BlobAssembler` of the specification (section 4.4): `compile_unit`, `compile_unit_path`,
`compile_many`, `compile_all`, `num_units` and `finalize`, with the `max_prefab_depth` of its
configuration (section 9).

A `Baker` is what stays the same during a job: the registry, the content and the limit on inheritance.
A `Batch` is what has been baked so far: how many units, and for every component type a column of
owners and bytes.

A unit is resolved and encoded in full before anything of it is added to the batch, so a unit that
fails leaves no trace (`Baker.bakeNamed`).  `Baker.finalize` writes the columns in spawn order.
-/
import UnitBake.Blob.Layout
import UnitBake.Component.Registry
import UnitBake.Prefab

namespace UnitBake

/-! ## 1. Batches -/

/-- The instances of one component type: their owners, and their bytes one after the other. -/
structure Column where
  owners : Array UInt32
  payload : Array UInt8

/-- One instance that waits to be added: its type and its bytes. -/
structure Instance where
  typeId : TypeId
  bytes : List UInt8
deriving DecidableEq, Repr

/-- What has been baked so far. -/
structure Batch where
  units : UInt32
  columns : Table TypeId Column

namespace Batch

/-- Nothing yet. -/
def empty : Batch := ⟨0, .empty⟩

/-- Adds an instance that belongs to a unit to the column of its type. -/
def addInstance (owner : UInt32) (columns : Table TypeId Column) (i : Instance) :
    Table TypeId Column :=
  let column := (columns.get? i.typeId).getD ⟨#[], #[]⟩
  columns.insert i.typeId ⟨column.owners.push owner, column.payload ++ i.bytes⟩

/-- Adds a unit with its instances. -/
def add (b : Batch) (instances : List Instance) : Batch :=
  ⟨b.units + 1, instances.foldl (addInstance b.units) b.columns⟩

/-- How many instances of a type there are. -/
def instanceCount (b : Batch) (t : TypeId) : Nat :=
  match b.columns.get? t with
  | some column => column.owners.size
  | none => 0

end Batch

/-! ## 2. Bakers -/

/-- How many documents a chain of inheritance may hold unless told otherwise. -/
def defaultPrefabDepth : Nat := 4

/-- The limit that a request for a limit leads to: at least the unit itself must be allowed. -/
def allowedPrefabDepth (requested : Nat) : Nat := max requested 1

/-- What stays the same while units are baked. -/
structure Baker where
  registry : Registry
  source : Source
  prefabDepth : Nat

namespace Baker

/-- Encodes one component with the encoder registered for its type. -/
def encodeComponent (b : Baker) (c : Component) : Except Fault Instance :=
  let id := TypeId.ofName c.typeName
  match b.registry.get? id with
  | none => .error (.unknownType c.typeName)
  | some encoder => (encoder ⟨c.typeName, b.source⟩ c.data).map (Instance.mk id)

/-- Encodes components in order, up to the first that fails. -/
def encodeAll (b : Baker) : List Component → Except Fault (List Instance)
  | [] => .ok []
  | c :: rest => do
    let i ← b.encodeComponent c
    let is ← b.encodeAll rest
    return i :: is

/-- Resolves and encodes a unit. -/
def encodeUnit (b : Baker) (tree : Json) (name : String) :
    Traced (Except Fault (List Instance)) :=
  let resolved := Prefab.resolve b.source b.prefabDepth tree name
  ⟨resolved.result >>= b.encodeAll, resolved.events⟩

/-- The outcome of a request: whether it failed, and the batch after it. -/
structure Outcome (ε : Type) where
  failure : ε
  batch : Batch
  events : List Event

/-- Bakes a unit under a name.  Of a unit that fails nothing is added. -/
def bakeNamed (b : Baker) (batch : Batch) (tree : Json) (name : String) :
    Outcome (Option Fault) :=
  let encoded := b.encodeUnit tree name
  match encoded.result with
  | .error fault => ⟨some (fault.within name), batch, encoded.events⟩
  | .ok instances =>
    ⟨none, batch.add instances, encoded.events ++ [.unitCompiled name batch.units]⟩

/-- Bakes a unit given by its tree.  It is named by the number of units before it. -/
def bakeTree (b : Baker) (batch : Batch) (tree : Json) : Outcome (Option Fault) :=
  b.bakeNamed batch tree ("#" ++ toString batch.units.toNat)

/-- Bakes a unit of the content. -/
def bakePath (b : Baker) (batch : Batch) (name : String) : Outcome (Option Fault) :=
  match b.source.readUnit name with
  | .error fault => ⟨some (fault.within name), batch, []⟩
  | .ok tree => b.bakeNamed batch tree name

/-- Bakes units in order, up to the first that fails. -/
def bakeMany (b : Baker) (batch : Batch) : List Json → Outcome (Option Fault)
  | [] => ⟨none, batch, []⟩
  | tree :: rest =>
    let first := b.bakeTree batch tree
    match first.failure with
    | some fault => ⟨some fault, first.batch, first.events⟩
    | none =>
      let further := b.bakeMany first.batch rest
      ⟨further.failure, further.batch, first.events ++ further.events⟩

/-- Bakes the units that do not fail, and returns the faults of the others in order. -/
def bakeAll (b : Baker) (batch : Batch) : List Json → Outcome (List Fault)
  | [] => ⟨[], batch, []⟩
  | tree :: rest =>
    let first := b.bakeTree batch tree
    let further := b.bakeAll first.batch rest
    ⟨first.failure.toList ++ further.failure, further.batch, first.events ++ further.events⟩

/-! ## 3. The blob -/

/-- The sections to be written: the columns that have instances, in spawn order. -/
def contents (b : Baker) (batch : Batch) : List Blob.Content :=
  b.registry.spawnOrder.filterMap fun slot =>
    match batch.columns.get? slot.typeId with
    | some column =>
      if column.owners.size = 0 then none
      else some ⟨slot.typeId, column.owners.toList, column.payload.toList⟩
    | none => none

/-- Writes the blob of a batch. -/
def finalize (b : Baker) (batch : Batch) : Traced (List UInt8) :=
  let contents := b.contents batch
  ⟨Blob.write batch.units contents,
    contents.map fun c =>
      .sectionWritten ((b.registry.name? c.typeId).getD "?") c.owners.length c.payload.length⟩

end Baker

end UnitBake
