/-
# Unit ids

`EntityId` of the specification (section 3), with `from_raw`, `to_raw` and its display (section
4.1).

The id of a unit in a running world packs a slot *index* of 24 bits with a *generation* of 8 bits
above it.  The generation tells the units apart that used one slot one after the other.
-/
namespace UnitBake

/-- A packed unit id. -/
structure EntityId where
  raw : UInt32
deriving DecidableEq, Repr, Inhabited

namespace EntityId

/-- How many indices there are. -/
def indexCount : Nat := 0x1000000

/-- The slot index, the low 24 bits. -/
def index (id : EntityId) : UInt32 := id.raw % 0x1000000

/-- The generation, the high 8 bits. -/
def generation (id : EntityId) : UInt8 := (id.raw / 0x1000000).toUInt8

/-- The id of an index below `indexCount` with a generation. -/
def pack (index : UInt32) (generation : UInt8) : EntityId :=
  ⟨index + generation.toUInt32 * 0x1000000⟩

/-- An index that is packed comes out again. -/
theorem index_pack {index : UInt32} (h : index.toNat < indexCount) (generation : UInt8) :
    (pack index generation).index = index := by
  have hg := generation.toNat_lt
  unfold indexCount at h
  apply UInt32.toNat_inj.mp
  simp only [EntityId.index, pack, UInt32.toNat_mod, UInt32.toNat_add, UInt32.toNat_mul,
    UInt8.toNat_toUInt32, UInt32.reduceToNat]
  omega

/-- A generation that is packed comes out again. -/
theorem generation_pack {index : UInt32} (h : index.toNat < indexCount) (generation : UInt8) :
    (pack index generation).generation = generation := by
  have hg := generation.toNat_lt
  unfold indexCount at h
  apply UInt8.toNat_inj.mp
  simp only [EntityId.generation, pack, UInt32.toNat_toUInt8, UInt32.toNat_div, UInt32.toNat_add,
    UInt32.toNat_mul, UInt8.toNat_toUInt32, UInt32.reduceToNat]
  omega

/-- An id is packed from its index and generation. -/
theorem pack_index_generation (id : EntityId) : pack id.index id.generation = id := by
  have hr := id.raw.toNat_lt
  cases id with
  | mk raw =>
    refine congrArg EntityId.mk (UInt32.toNat_inj.mp ?_)
    simp only [EntityId.index, EntityId.generation, UInt32.toNat_mod, UInt32.toNat_add,
      UInt32.toNat_mul, UInt8.toNat_toUInt32, UInt32.toNat_toUInt8, UInt32.toNat_div,
      UInt32.reduceToNat] at hr ⊢
    omega

/-- Ids are ordered by their packed form. -/
instance : Ord EntityId := ⟨fun a b => compare a.raw b.raw⟩

/-- Index and generation, joined by a `v`. -/
def display (id : EntityId) : String :=
  toString id.index.toNat ++ "v" ++ toString id.generation.toNat

/-- The id as it is shown to a developer. -/
def debug (id : EntityId) : String := "EntityId(" ++ id.display ++ ")"

end EntityId

end UnitBake
