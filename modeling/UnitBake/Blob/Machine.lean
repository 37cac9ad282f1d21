/-
# The reader of blobs on a machine

The resource reader of the specification (section 4.6) as a machine runs it: `take` and `read` on bytes
and an offset, and `parse`.

`Blob.read` counts with natural numbers and asks for nothing.  A machine counts with words: a difference
below zero, a sum or a product beyond the last word and a slice beyond the end have no result there.  And
it has to be given the memory that it asks for.  `Machine.read` is the reader with words of 64 bits on a
machine that grants some requests for memory and not others; each of these failures stops the run
(`Machine.Halt`).
-/
import UnitBake.Blob.Reader

namespace UnitBake.Blob

namespace Machine

/-! ## 1. Words -/

/-- What ends a run before its result: the blob is refused, an operation has no result, or a request for
so many bytes of memory is not granted. -/
inductive Halt where
  | refused (e : Error)
  | overflow
  | outOfRange
  | outOfMemory (size : Nat)
deriving DecidableEq, Repr

/-- A computation with machine words. -/
abbrev Run (α : Type) : Type := Except Halt α

/-- The sum of two words, if it is one. -/
def add (a b : UInt64) : Run UInt64 :=
  if a.toNat + b.toNat < 0x10000000000000000 then .ok (a + b) else .error .overflow

/-- The difference of two words, if it is one. -/
def sub (a b : UInt64) : Run UInt64 := if b ≤ a then .ok (a - b) else .error .overflow

/-- The product of two words, if it is one. -/
def mul (a b : UInt64) : Run UInt64 :=
  if a.toNat * b.toNat < 0x10000000000000000 then .ok (a * b) else .error .overflow

/-- The bytes between two offsets, if they are in order and within the bytes. -/
def slice (bytes : List UInt8) (start stop : UInt64) : Run (List UInt8) :=
  if start ≤ stop ∧ stop.toNat ≤ bytes.length then
    .ok ((bytes.drop start.toNat).take (stop - start).toNat)
  else .error .outOfRange

/-! ## 2. Memory -/

/-- The size in memory of a section that has been read: its header, and two references to bytes of
sixteen each, up to a place divisible by eight. -/
def sectionSize : Nat := 48

/-- Asks for memory for so many sections at once, on a machine that grants requests of some sizes.  No
machine grants `2 ^ 63` bytes or more, and nothing is asked for if there are no sections. -/
def reserve (grants : Nat → Bool) (count : UInt64) : Run Unit := do
  let size ← mul count (UInt64.ofNat sectionSize)
  if 0x8000000000000000 ≤ size.toNat then .error .overflow
  else if size = 0 ∨ grants size.toNat then .ok ()
  else .error (.outOfMemory size.toNat)

/-- A machine with so much memory grants what it has at most. -/
def withMemory (size : Nat) : Nat → Bool := fun asked => asked ≤ size

/-! ## 3. The reader -/

section

variable (bytes : List UInt8)

/-- Takes the next bytes at an offset, and moves the offset on. -/
def take (offset n : UInt64) : Run (List UInt8 × UInt64) := do
  let remaining ← sub (UInt64.ofNat bytes.length) offset
  if remaining < n then
    let needed ← sub n remaining
    .error (.refused (.truncated offset.toNat needed.toNat))
  else
    let stop ← add offset n
    let front ← slice bytes offset stop
    let offset ← add offset n
    return (front, offset)

/-- Reads a header of either kind from its bytes, which must be twelve. -/
def header {α : Type} (ofBytes : List UInt8 → α) (front : List UInt8) : Run α :=
  if front.length = headerSize then .ok (ofBytes front) else .error .outOfRange

/-- The bytes from an offset to the next one divisible by four. -/
def padding (offset : UInt64) : Run UInt64 := do
  let gap ← sub 4 (offset % 4)
  return gap % 4

/-- `Blob.readSection` with words. -/
def readSection (offset : UInt64) : Run (Section × UInt64) := do
  let (front, offset) ← take bytes offset 12
  let header ← header SectionHeader.ofBytes front
  let ownersSize ← mul header.instances.toUInt64 4
  if header.size.toUInt64 < ownersSize then
    .error (.refused (.sectionSize header.typeId header.size))
  else
    let (ownerBytes, offset) ← take bytes offset ownersSize
    let payloadSize ← sub header.size.toUInt64 ownersSize
    let (payload, offset) ← take bytes offset payloadSize
    let pad ← padding offset
    let (_, offset) ← take bytes offset pad
    return (⟨header, ownerBytes, payload⟩, offset)

/-- `Blob.readSections` with words. -/
def readSections : Nat → UInt64 → Run (List Section × UInt64)
  | 0, offset => .ok ([], offset)
  | n + 1, offset => do
    let (s, offset) ← readSection bytes offset
    let (rest, offset) ← readSections n offset
    return (s :: rest, offset)

/-- `Blob.read` with words and memory, which is asked for before any section is read. -/
def read (grants : Nat → Bool) : Run Parsed := do
  let (front, offset) ← take bytes 0 12
  let header ← header Header.ofBytes front
  if header.version ≠ currentVersion then
    .error (.refused (.version currentVersion header.version))
  else
    reserve grants header.sections.toUInt64
    let (sections, _) ← readSections bytes header.sections.toNat offset
    return ⟨header, sections⟩

end

end Machine

end UnitBake.Blob
