/-
# Component types and resources by hash

`ComponentTypeId` (section 3) and `ResourceId` (section 4.5) of the specification.

A component type is known by the 32-bit hash of the UTF-8 bytes of its name, a resource by the 64-bit
hash of its.  Type ids are ordered by their hash; the registry breaks ties of the spawn order by it.
-/
import UnitBake.Bytes.Fnv
import UnitBake.Bytes.Utf8
import UnitBake.Text.Hex

namespace UnitBake

/-- The id of a component type: the hash of its name. -/
structure TypeId where
  hash : UInt32
deriving DecidableEq, Repr, Inhabited

namespace TypeId

/-- The id of the type called `name`. -/
def ofName (name : String) : TypeId := ⟨Fnv.hash32 (utf8 name)⟩

/-- The hash in eight hexadecimal digits after `0x`. -/
def display (t : TypeId) : String := "0x" ++ Hex.padded 8 t.hash.toNat

instance : LT TypeId := ⟨fun a b => a.hash < b.hash⟩
instance : LE TypeId := ⟨fun a b => a.hash ≤ b.hash⟩
instance : DecidableLT TypeId := fun a b => inferInstanceAs (Decidable (a.hash < b.hash))
instance : DecidableLE TypeId := fun a b => inferInstanceAs (Decidable (a.hash ≤ b.hash))

theorem lt_iff {a b : TypeId} : a < b ↔ a.hash < b.hash := Iff.rfl

theorem le_iff {a b : TypeId} : a ≤ b ↔ a.hash ≤ b.hash := Iff.rfl

instance : Std.IsLinearOrder TypeId where
  le_refl a := UInt32.le_refl a.hash
  le_trans _ _ _ := UInt32.le_trans
  le_antisymm a b h h' := by
    cases a; cases b
    exact congrArg TypeId.mk (UInt32.le_antisymm h h')
  le_total a b := UInt32.le_total a.hash b.hash

instance : Std.LawfulOrderLT TypeId where
  lt_iff a b := by
    simp only [lt_iff, le_iff]
    exact Std.LawfulOrderLT.lt_iff a.hash b.hash

end TypeId

/-- The hash of a name that is neither of a type nor of a resource. -/
def nameHash (name : String) : UInt32 := Fnv.hash32 (utf8 name)

/-- The id of a resource: the 64-bit hash of its name. -/
def resourceId (name : String) : UInt64 := Fnv.hash64 (utf8 name)

end UnitBake
