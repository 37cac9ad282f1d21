/-
# Reading a blob

The resource reader of the specification (section 4.6): `parse`, `section`, `owner_indices` and
`instances`, with the three kinds of `ResourceError`.

A blob is read from the front by a cursor that never passes its end.  Reading refuses a blob of
another version, one that ends too early, and a section whose size does not even hold its owners.
That a machine must be given the memory for the sections first is left to `Machine.read`.
-/
import UnitBake.Blob.Layout

namespace UnitBake.Blob

/-- Why a blob is refused. -/
inductive Error where
  | truncated (offset needed : Nat)
  | version (expected found : UInt32)
  | sectionSize (typeId : TypeId) (size : UInt32)
deriving DecidableEq, Repr

/-- The text of the error. -/
def Error.message : Error → String
  | .truncated offset needed =>
    "unit resource truncated at offset " ++ toString offset ++ ": need " ++ toString needed ++
      " more bytes"
  | .version expected found =>
    "unit resource version mismatch: expected " ++ toString expected.toNat ++ ", found " ++
      toString found.toNat
  | .sectionSize typeId size =>
    "invalid section size for component type " ++ typeId.display ++ ": " ++
      toString size.toNat ++ " bytes"

/-! ## 1. The cursor -/

/-- A place in a byte string: how many bytes lie before it, and the bytes behind it. -/
structure Cursor where
  offset : Nat
  rest : List UInt8

/-- Takes the next `n` bytes. -/
def Cursor.take (c : Cursor) (n : Nat) : Except Error (List UInt8 × Cursor) :=
  if c.rest.length < n then .error (.truncated c.offset (n - c.rest.length))
  else .ok (c.rest.take n, ⟨c.offset + n, c.rest.drop n⟩)

/-! ## 2. Sections -/

/-- A section as it stands in a blob. -/
structure Section where
  header : SectionHeader
  ownerBytes : List UInt8
  payload : List UInt8
deriving DecidableEq, Repr

/-- A blob that has been read. -/
structure Parsed where
  header : Header
  sections : List Section
deriving DecidableEq, Repr

/-- The header of a blob in its twelve bytes. -/
def Header.ofBytes (bytes : List UInt8) : Header :=
  ⟨LittleEndian.word32 bytes, LittleEndian.word32 (bytes.drop 4),
    LittleEndian.word32 (bytes.drop 8)⟩

/-- The header of a section in its twelve bytes. -/
def SectionHeader.ofBytes (bytes : List UInt8) : SectionHeader :=
  ⟨⟨LittleEndian.word32 bytes⟩, LittleEndian.word32 (bytes.drop 4),
    LittleEndian.word32 (bytes.drop 8)⟩

/-- Reads a section with the padding behind it. -/
def readSection (c : Cursor) : Except Error (Section × Cursor) := do
  let (bytes, c) ← c.take headerSize
  let header := SectionHeader.ofBytes bytes
  let ownersSize := 4 * header.instances.toNat
  if header.size.toNat < ownersSize then .error (.sectionSize header.typeId header.size)
  else
    let (ownerBytes, c) ← c.take ownersSize
    let (payload, c) ← c.take (header.size.toNat - ownersSize)
    let (_, c) ← c.take (padding c.offset)
    return (⟨header, ownerBytes, payload⟩, c)

/-- Reads so many sections. -/
def readSections : Nat → Cursor → Except Error (List Section × Cursor)
  | 0, c => .ok ([], c)
  | n + 1, c => do
    let (s, c) ← readSection c
    let (rest, c) ← readSections n c
    return (s :: rest, c)

/-- Reads a blob.  Bytes behind the last section are not looked at. -/
def read (bytes : List UInt8) : Except Error Parsed := do
  let (headerBytes, c) ← (Cursor.mk 0 bytes).take headerSize
  let header := Header.ofBytes headerBytes
  if header.version ≠ currentVersion then .error (.version currentVersion header.version)
  else
    let (sections, _) ← readSections header.sections.toNat c
    return ⟨header, sections⟩

/-- The first section of a type. -/
def Parsed.section? (b : Parsed) (t : TypeId) : Option Section :=
  b.sections.find? fun s => s.header.typeId == t

/-! ## 3. Instances -/

/-- The unit that owns each instance. -/
def Section.owners (s : Section) : List UInt32 := LittleEndian.words32 s.ownerBytes

/-- What a section holds. -/
def Section.content (s : Section) : Content := ⟨s.header.typeId, s.owners, s.payload⟩

/-- Cuts so many pieces of one size from the front of a byte string. -/
def pieces (size : Nat) : Nat → List UInt8 → List (List UInt8)
  | 0, _ => []
  | n + 1, bytes => bytes.take size :: pieces size n (bytes.drop size)

/-- Pairs every owner with the bytes of its instance, for instances of one size.  The product of size
and number is checked in 64 bits. -/
def Section.instances (s : Section) (itemSize : UInt64) :
    Except Error (List (UInt32 × List UInt8)) :=
  let total := itemSize.toNat * s.header.instances.toNat
  if itemSize = 0 ∨ 0x10000000000000000 ≤ total ∨ total ≠ s.payload.length then
    .error (.sectionSize s.header.typeId s.header.size)
  else
    .ok (s.owners.zip (pieces itemSize.toNat (s.payload.length / itemSize.toNat) s.payload))

end UnitBake.Blob
