/-
# Vectors in records

The vec3 and quat fields of the records of the specification (section 4.5).

Vectors and quaternions are lists of floating-point numbers in data and consecutive words in records.
-/
import UnitBake.Bytes.LittleEndian
import UnitBake.Shape.Record

namespace UnitBake

/-- The words of a vector, first component first. -/
def vectorBytes {n : Nat} (v : Vector Binary32 n) : List UInt8 :=
  LittleEndian.bytesOfWords (v.toList.map Binary32.bits)

@[simp] theorem length_vectorBytes {n : Nat} (v : Vector Binary32 n) :
    (vectorBytes v).length = 4 * n := by
  simp [vectorBytes]

end UnitBake
