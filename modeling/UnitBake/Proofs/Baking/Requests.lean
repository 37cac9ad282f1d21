/-
# Requests to a baker

A job is a list of requests.  `Baker.unitsOf` says which units a request adds, read off the documents
alone, and `placed` lists the components of all units with the number of units before their own.

The batch after a job is these components, sorted by type (`tallies_serveAll`): for every type the
column holds, in the order of the units and within a unit in the order of its components, the owner
and the bytes of each component of the type, and a type without components has no column.  The
invariant `Batch.Tallies` says so for a batch and the units so far, and one instance preserves it
(`tally_addInstance`).
-/
import UnitBake.Proofs.Baking.Unit

namespace UnitBake

/-! ## 1. Requests -/

/-- What a baker is asked for: a unit given by its tree, a unit of the content, units up to the first
that fails, or units with those that fail passed over. -/
inductive Request where
  | tree (tree : Json)
  | path (name : String)
  | many (trees : List Json)
  | all (trees : List Json)

namespace Baker

/-- The faults, if any, of a request that stops at the first. -/
def Outcome.faults (o : Outcome (Option Fault)) : Outcome (List Fault) :=
  ⟨o.failure.toList, o.batch, o.events⟩

/-- Serves a request. -/
def serve (b : Baker) (batch : Batch) : Request → Outcome (List Fault)
  | .tree tree => (b.bakeTree batch tree).faults
  | .path name => (b.bakePath batch name).faults
  | .many trees => (b.bakeMany batch trees).faults
  | .all trees => b.bakeAll batch trees

/-- Serves requests in order, and returns the faults of each. -/
def serveAll (b : Baker) (batch : Batch) : List Request → Outcome (List (List Fault))
  | [] => ⟨[], batch, []⟩
  | request :: rest =>
    let first := b.serve batch request
    let further := b.serveAll first.batch rest
    ⟨first.failure :: further.failure, further.batch, first.events ++ further.events⟩

/-- The units a request adds. -/
def unitsOf (b : Baker) : Request → List (List Encoded)
  | .tree tree => (b.unit? tree).toList
  | .path name => ((b.source.readUnit name).toOption.bind b.unit?).toList
  | .many trees => (trees.takeWhile b.bakes).filterMap b.unit?
  | .all trees => trees.filterMap b.unit?

/-- The units a job adds. -/
def unitsOfAll (b : Baker) (requests : List Request) : List (List Encoded) :=
  requests.flatMap b.unitsOf

theorem batch_bakePath (b : Baker) (batch : Batch) (name : String) :
    (b.bakePath batch name).batch = batch.addUnits (b.unitsOf (.path name)) := by
  rw [bakePath, unitsOf]
  cases b.source.readUnit name with
  | error fault => rfl
  | ok tree => exact batch_bakeNamed batch name

/-- A request adds its units. -/
theorem batch_serve (b : Baker) (batch : Batch) (request : Request) :
    (b.serve batch request).batch = batch.addUnits (b.unitsOf request) := by
  cases request with
  | tree tree => exact batch_bakeNamed batch _
  | path name => exact batch_bakePath b batch name
  | many trees => exact batch_bakeMany b trees batch
  | all trees => exact batch_bakeAll b trees batch

/-- A job adds the units of its requests in order. -/
theorem batch_serveAll (b : Baker) : ∀ (requests : List Request) (batch : Batch),
    (b.serveAll batch requests).batch = batch.addUnits (b.unitsOfAll requests)
  | [], _ => rfl
  | request :: rest, batch => by
    simp only [serveAll, batch_serveAll b rest, batch_serve, unitsOfAll, List.flatMap_cons,
      Batch.addUnits_append]

/-- A unit that is added is what some document comes to. -/
theorem exists_unit?_of_mem {b : Baker} {requests : List Request} {unit : List Encoded}
    (h : unit ∈ b.unitsOfAll requests) : ∃ tree, b.unit? tree = some unit := by
  obtain ⟨request, -, h⟩ := List.mem_flatMap.mp h
  cases request with
  | tree tree => exact ⟨tree, Option.mem_toList.mp h⟩
  | path name =>
    obtain ⟨tree, -, htree⟩ := Option.bind_eq_some_iff.mp (Option.mem_toList.mp h)
    exact ⟨tree, htree⟩
  | many trees =>
    obtain ⟨tree, -, htree⟩ := List.mem_filterMap.mp h
    exact ⟨tree, htree⟩
  | all trees =>
    obtain ⟨tree, -, htree⟩ := List.mem_filterMap.mp h
    exact ⟨tree, htree⟩

/-- **Whatever is added has its type registered**, so no column is left out when a blob is
written. -/
theorem registered_of_mem {b : Baker} {requests : List Request} {unit : List Encoded}
    (h : unit ∈ b.unitsOfAll requests) {e : Encoded} (he : e ∈ unit) :
    ∃ r, b.registry.types.get? e.typeId = some r := by
  obtain ⟨tree, htree⟩ := exists_unit?_of_mem h
  obtain ⟨components, -, hencoded⟩ := Option.bind_eq_some_iff.mp htree
  obtain ⟨c, -, hc⟩ := exists_of_mem_mapM_encoded? hencoded he
  obtain ⟨rfl, r, hr, -⟩ := encoded?_eq_some hc
  exact ⟨r, hr⟩

end Baker

/-! ## 2. Components in their places -/

/-- A component of some unit; `owner` is the number of units before that unit. -/
structure Placed where
  owner : Nat
  encoded : Encoded

/-- The components of units in order. -/
def placed (units : List (List Encoded)) : List Placed :=
  units.zipIdx.flatMap fun u => u.1.map (Placed.mk u.2)

/-- The components of a type, in the order of all. -/
def placedOf (t : TypeId) (ps : List Placed) : List Placed :=
  ps.filter fun p => p.encoded.typeId == t

/-- The components of one more unit come behind all others. -/
theorem placed_concat (units : List (List Encoded)) (unit : List Encoded) :
    placed (units ++ [unit]) = placed units ++ unit.map (Placed.mk units.length) := by
  simp [placed, List.zipIdx_append]

theorem mem_placed {units : List (List Encoded)} {p : Placed} (h : p ∈ placed units) :
    ∃ unit ∈ units, p.encoded ∈ unit := by
  obtain ⟨⟨unit, k⟩, hunit, hp⟩ := List.mem_flatMap.mp h
  obtain ⟨e, he, rfl⟩ := List.mem_map.mp hp
  exact ⟨unit, List.fst_mem_of_mem_zipIdx hunit, he⟩

/-! ## 3. Columns -/

namespace Column

/-- The column of some components, if there are any. -/
def ofPlaced (ps : List Placed) : Option Column :=
  if ps.isEmpty then none
  else some ⟨(ps.map fun p => UInt32.ofNat p.owner).toArray,
    (ps.flatMap fun p => p.encoded.bytes).toArray⟩

/-- The parts of a column, which are empty without components. -/
theorem getD_ofPlaced (ps : List Placed) :
    (ofPlaced ps).getD ⟨#[], #[]⟩ =
      ⟨(ps.map fun p => UInt32.ofNat p.owner).toArray,
        (ps.flatMap fun p => p.encoded.bytes).toArray⟩ := by
  cases ps <;> rfl

/-- One component more. -/
theorem ofPlaced_concat (ps : List Placed) (p : Placed) :
    ofPlaced (ps ++ [p]) =
      some ⟨((ofPlaced ps).getD ⟨#[], #[]⟩).owners.push (UInt32.ofNat p.owner),
        ((ofPlaced ps).getD ⟨#[], #[]⟩).payload ++ p.encoded.bytes⟩ := by
  rw [getD_ofPlaced, ofPlaced, if_neg (by simp)]
  simp

end Column

namespace Batch

/-- The columns are those of the components. -/
def Tally (columns : Table TypeId Column) (ps : List Placed) : Prop :=
  ∀ t, columns.get? t = Column.ofPlaced (placedOf t ps)

/-- **An instance goes behind the others of its type**, and no other column changes. -/
theorem tally_addInstance {columns : Table TypeId Column} {ps : List Placed}
    (h : Tally columns ps) (owner : Nat) (e : Encoded) :
    Tally (addInstance (UInt32.ofNat owner) columns e.toInstance) (ps ++ [⟨owner, e⟩]) := by
  intro t
  rw [addInstance, Table.get?_insert, Encoded.typeId_toInstance, placedOf, List.filter_append]
  by_cases ht : t = e.typeId
  · have hone : [Placed.mk owner e].filter (fun p => p.encoded.typeId == t) = [⟨owner, e⟩] := by
      simp [ht]
    rw [if_pos ht, hone, Column.ofPlaced_concat, ← ht, ← placedOf, ← h t]
    rfl
  · have hnone : [Placed.mk owner e].filter (fun p => p.encoded.typeId == t) = [] := by
      simp [Ne.symm ht]
    rw [if_neg ht, hnone, List.append_nil]
    exact h t

theorem tally_foldl_addInstance (owner : Nat) : ∀ (unit : List Encoded)
    {columns : Table TypeId Column} {ps : List Placed}, Tally columns ps →
    Tally ((unit.map Encoded.toInstance).foldl (addInstance (UInt32.ofNat owner)) columns)
      (ps ++ unit.map (Placed.mk owner))
  | [], columns, ps, h => by simpa using h
  | e :: rest, columns, ps, h => by
    have hrest := tally_foldl_addInstance owner rest (tally_addInstance h owner e)
    simpa using hrest

/-- The batch holds just these units. -/
def Tallies (batch : Batch) (units : List (List Encoded)) : Prop :=
  batch.units = UInt32.ofNat units.length ∧ Tally batch.columns (placed units)

theorem tallies_empty : empty.Tallies [] := ⟨rfl, fun _ => rfl⟩

/-- A unit is added behind the others. -/
theorem Tallies.addUnit {batch : Batch} {units : List (List Encoded)} (h : batch.Tallies units)
    (unit : List Encoded) : (batch.addUnit unit).Tallies (units ++ [unit]) := by
  obtain ⟨hunits, hcolumns⟩ := h
  refine ⟨?_, ?_⟩
  · rw [units_addUnit, hunits, List.length_append, List.length_singleton, UInt32.ofNat_add]
    rfl
  · rw [placed_concat, Batch.addUnit, add, hunits]
    exact tally_foldl_addInstance units.length unit hcolumns

theorem Tallies.addUnits : ∀ (more : List (List Encoded))
    {batch : Batch} {units : List (List Encoded)}, batch.Tallies units →
    (batch.addUnits more).Tallies (units ++ more)
  | [], batch, units, h => by simpa using h
  | unit :: more, batch, units, h => by
    have hmore := Tallies.addUnits more (h.addUnit unit)
    simpa using hmore

end Batch

/-- **After a job the batch holds the units of the job.** -/
theorem tallies_serveAll (b : Baker) (requests : List Request) :
    (b.serveAll .empty requests).batch.Tallies (b.unitsOfAll requests) := by
  rw [Baker.batch_serveAll]
  exact Batch.Tallies.addUnits _ Batch.tallies_empty

end UnitBake
