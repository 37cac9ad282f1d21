/-
# Hashes of byte strings

The hashes behind `ComponentTypeId` and `ResourceId` of the specification (sections 3 and 4.5).

The FNV-1a hashes: for every byte, exclusive or with the byte, then multiplication by an odd prime,
both modulo the width.
-/
namespace UnitBake.Fnv

/-- One step of the 32-bit hash. -/
def step32 (h : UInt32) (b : UInt8) : UInt32 := (h ^^^ b.toUInt32) * 0x01000193

/-- One step of the 64-bit hash. -/
def step64 (h : UInt64) (b : UInt8) : UInt64 := (h ^^^ b.toUInt64) * 0x00000100000001b3

/-- The 32-bit hash of a byte string. -/
def hash32 (bytes : List UInt8) : UInt32 := bytes.foldl step32 0x811c9dc5

/-- The 64-bit hash of a byte string. -/
def hash64 (bytes : List UInt8) : UInt64 := bytes.foldl step64 0xcbf29ce484222325

end UnitBake.Fnv
