/-
# The layout of a blob

The resource format of the specification (section 6), as `finalize` writes it.

A blob holds the compiled components of many units, one section for each component type:

* a header of three words: version, number of units, number of sections;
* for each section a header of three words (type id, number of instances, size), the owners of the
  instances as words, and the payload; `size` counts owners and payload;
* after each section zero bytes up to the next offset that is divisible by four.

All words are little-endian.  `write` threads the running offset through the sections, because the
padding of each depends on it.
-/
import UnitBake.Bytes.LittleEndian
import UnitBake.Component.TypeId

namespace UnitBake.Blob

/-! ## 1. Parts -/

/-- The version of the layout. -/
def currentVersion : UInt32 := 1

/-- The header of a blob. -/
structure Header where
  version : UInt32
  units : UInt32
  sections : UInt32
deriving DecidableEq, Repr

/-- The header of a section. -/
structure SectionHeader where
  typeId : TypeId
  instances : UInt32
  size : UInt32
deriving DecidableEq, Repr

/-- What a section holds: the unit that owns each instance, and the bytes of all instances. -/
structure Content where
  typeId : TypeId
  owners : List UInt32
  payload : List UInt8
deriving DecidableEq, Repr

/-- The bytes of a header of either kind. -/
def headerSize : Nat := 12

/-- How many bytes lead from an offset to the next one divisible by four. -/
def padding (offset : Nat) : Nat := (4 - offset % 4) % 4

theorem padding_lt (offset : Nat) : padding offset < 4 := Nat.mod_lt _ (by decide)

/-- Padding leads to an offset divisible by four. -/
theorem add_padding_mod (offset : Nat) : (offset + padding offset) % 4 = 0 := by
  unfold padding
  omega

/-! ## 2. Writing -/

/-- The bytes of the header of a blob. -/
def Header.bytes (h : Header) : List UInt8 :=
  LittleEndian.bytesOfWords [h.version, h.units, h.sections]

/-- The bytes of the header of a section. -/
def SectionHeader.bytes (h : SectionHeader) : List UInt8 :=
  LittleEndian.bytesOfWords [h.typeId.hash, h.instances, h.size]

@[simp] theorem Header.length_bytes (h : Header) : h.bytes.length = headerSize := by
  simp [Header.bytes, headerSize]

@[simp] theorem SectionHeader.length_bytes (h : SectionHeader) :
    h.bytes.length = headerSize := by
  simp [SectionHeader.bytes, headerSize]

namespace Content

/-- The bytes of owners and payload. -/
def size (c : Content) : Nat := 4 * c.owners.length + c.payload.length

/-- Whether number of instances and size fit their words. -/
def Fits (c : Content) : Prop := c.size < 0x100000000

/-- The header of the section that holds the content. -/
def header (c : Content) : SectionHeader :=
  ⟨c.typeId, UInt32.ofNat c.owners.length, UInt32.ofNat c.size⟩

/-- Header, owners and payload. -/
def body (c : Content) : List UInt8 :=
  c.header.bytes ++ LittleEndian.bytesOfWords c.owners ++ c.payload

theorem length_body (c : Content) : c.body.length = headerSize + c.size := by
  simp only [body, List.length_append, SectionHeader.length_bytes,
    LittleEndian.length_bytesOfWords, size]
  omega

/-- The section with its padding, as it is written at an offset. -/
def write (offset : Nat) (c : Content) : List UInt8 :=
  c.body ++ List.replicate (padding (offset + c.body.length)) 0

end Content

/-- Sections one after the other, the first at the given offset. -/
def writeSections (offset : Nat) : List Content → List UInt8
  | [] => []
  | c :: rest =>
    let bytes := c.write offset
    bytes ++ writeSections (offset + bytes.length) rest

/-- The blob of so many units with the given sections. -/
def write (units : UInt32) (contents : List Content) : List UInt8 :=
  (Header.mk currentVersion units (UInt32.ofNat contents.length)).bytes ++
    writeSections headerSize contents

end UnitBake.Blob
