/-
# Writing what was read

Any byte string that is read as a blob, whoever wrote it, is written again by its own sections up to
two things that the reader passes over: the bytes between a section and the next word boundary, and
what stands behind the last section (`rewrite_read`).

What the reader accepts is laid out as the writer would have it, with any bytes for padding
(`LaidOut`).  A section takes just what its content is written to (`readSection_eq_ok`), because its
header tells the number of its owners and its size, and the reader goes by both (`Section.Told`).  So
the cursor stays in step with the writer's offset from section to section
(`laidOut_of_readSections`).  Contents that are laid out agree with written ones wherever there is no
padding (`LaidOut.getElem?_eq`), and the written ones read back by `read_write`.
-/
import UnitBake.Proofs.Blob.RoundTrip
import UnitBake.Proofs.Result

namespace UnitBake.Blob

open LittleEndian

/-! ## 1. Contents and their padding -/

/-- What a blob holds. -/
def Parsed.contents (r : Parsed) : List Content := r.sections.map Section.content

/-- The blob written again: its header, and its sections in order. -/
def Parsed.bytes (r : Parsed) : List UInt8 := r.header.bytes ++ writeSections headerSize r.contents

/-- Whether a place lies in the padding behind one of the contents, the first of which is written at
the given offset. -/
def InPadding (offset : Nat) : List Content → Nat → Prop
  | [], _ => False
  | c :: rest, i =>
    (offset + c.body.length ≤ i ∧ i < offset + (c.write offset).length) ∨
      InPadding (offset + (c.write offset).length) rest i

instance decidableInPadding : ∀ (offset : Nat) (contents : List Content) (i : Nat),
    Decidable (InPadding offset contents i)
  | _, [], _ => isFalse id
  | offset, c :: rest, i =>
    have := decidableInPadding (offset + (c.write offset).length) rest i
    inferInstanceAs (Decidable (_ ∨ _))

theorem Content.length_write (c : Content) (offset : Nat) :
    (c.write offset).length = c.body.length + padding (offset + c.body.length) := by
  rw [Content.write, List.length_append, List.length_replicate]

/-- The contents stand in the bytes one after the other, the first at the given offset, each
followed by any bytes up to the next word boundary. -/
inductive LaidOut : Nat → List Content → List UInt8 → Prop where
  | nil (offset : Nat) (trailing : List UInt8) : LaidOut offset [] trailing
  | cons {offset : Nat} {c : Content} {contents : List Content} {pad rest : List UInt8}
      (hpad : pad.length = padding (offset + c.body.length))
      (hrest : LaidOut (offset + (c.write offset).length) contents rest) :
      LaidOut offset (c :: contents) (c.body ++ (pad ++ rest))

namespace LaidOut

variable {offset : Nat} {contents : List Content} {bytes : List UInt8}

/-- Writing the contents takes no more bytes. -/
theorem length_le (h : LaidOut offset contents bytes) :
    (writeSections offset contents).length ≤ bytes.length := by
  induction h with
  | nil offset trailing => exact Nat.zero_le _
  | @cons offset c contents pad rest hpad hrest ih =>
    have hlength := c.length_write offset
    simp only [writeSections, List.length_append]
    omega

/-- **Outside the padding the bytes are those that are written for the contents.** -/
theorem getElem?_eq (h : LaidOut offset contents bytes) {i : Nat}
    (hi : i < (writeSections offset contents).length)
    (hplace : ¬ InPadding offset contents (offset + i)) :
    (writeSections offset contents)[i]? = bytes[i]? := by
  induction h generalizing i with
  | nil offset trailing => exact absurd hi (Nat.not_lt_zero i)
  | @cons offset c contents pad rest hpad hrest ih =>
    have hlength := c.length_write offset
    obtain ⟨hhere, hthere⟩ := not_or.mp hplace
    rw [writeSections, List.length_append] at hi
    rw [writeSections]
    rcases Nat.lt_or_ge i c.body.length with hbody | hbody
    · rw [List.getElem?_append_left (by omega), Content.write, List.getElem?_append_left hbody,
        List.getElem?_append_left hbody]
    · -- behind the body and not in the padding, so behind the padding
      have hbehind : (c.write offset).length ≤ i := by omega
      have hfront : (c.body ++ pad).length = (c.write offset).length := by
        rw [List.length_append, hpad, hlength]
      have hnext : offset + (c.write offset).length + (i - (c.write offset).length) =
          offset + i := by omega
      rw [List.getElem?_append_right hbehind, ← List.append_assoc,
        List.getElem?_append_right (by omega), hfront]
      refine ih (by omega) ?_
      rw [hnext]
      exact hthere

end LaidOut

/-! ## 2. Sections -/

/-- The header of a section tells the number of its owners and its size. -/
structure Section.Told (s : Section) : Prop where
  owners : s.ownerBytes.length = 4 * s.header.instances.toNat
  size : s.ownerBytes.length + s.payload.length = s.header.size.toNat

/-- A section that is written has such a header. -/
theorem Content.Fits.told_section {c : Content} (h : c.Fits) : c.section.Told where
  owners := by
    rw [Content.section, length_bytesOfWords, h.toNat_instances]
  size := by
    rw [Content.section, length_bytesOfWords, h.toNat_size, Content.size]

namespace Section.Told

variable {s : Section}

/-- The owner bytes are those of the owners. -/
theorem bytesOfWords_owners (h : s.Told) : bytesOfWords s.owners = s.ownerBytes :=
  bytesOfWords_words32 (by rw [h.owners, Nat.mul_mod_right])

theorem length_owners (h : s.Told) : s.owners.length = s.header.instances.toNat := by
  have hlength := length_bytesOfWords s.owners
  rw [h.bytesOfWords_owners, h.owners] at hlength
  omega

theorem size_content (h : s.Told) : s.content.size = s.header.size.toNat := by
  rw [Content.size, ← length_bytesOfWords, ← h.size]
  exact congrArg (·.length + s.payload.length) h.bytesOfWords_owners

theorem fits_content (h : s.Told) : s.content.Fits := by
  rw [Content.Fits, h.size_content]
  exact s.header.size.toNat_lt

/-- The content is written with the header that was read. -/
theorem header_content (h : s.Told) : s.content.header = s.header := by
  have howners : UInt32.ofNat s.content.owners.length = s.header.instances := by
    have hcontent : s.content.owners = s.owners := rfl
    rw [hcontent, h.length_owners, UInt32.ofNat_toNat]
  have hsize : UInt32.ofNat s.content.size = s.header.size := by
    rw [h.size_content, UInt32.ofNat_toNat]
  rw [Content.header, howners, hsize]
  rfl

/-- **The content is written to the section that was read.** -/
theorem section_content (h : s.Told) : s.content.section = s := by
  rw [Content.section, h.header_content]
  exact congrArg (Section.mk s.header · s.payload) h.bytesOfWords_owners

theorem body_content (h : s.Told) :
    s.content.body = s.header.bytes ++ s.ownerBytes ++ s.payload := by
  rw [Content.body, h.header_content]
  exact congrArg (s.header.bytes ++ · ++ s.payload) h.bytesOfWords_owners

end Section.Told

/-- What is taken stands in front of what is left. -/
theorem Cursor.take_eq_ok {c c' : Cursor} {n : Nat} {front : List UInt8}
    (h : c.take n = .ok (front, c')) :
    c.rest = front ++ c'.rest ∧ front.length = n ∧ c'.offset = c.offset + n := by
  rw [Cursor.take] at h
  split at h
  · cases h
  · next hlength =>
    obtain ⟨rfl, rfl⟩ := Prod.mk.inj (Except.ok.inj h)
    exact ⟨(List.take_append_drop n c.rest).symm,
      List.length_take_of_le (Nat.le_of_not_lt hlength), rfl⟩

/-- **A section that is read** has a header that tells its parts, and stands at the cursor as its
content is written, followed by its padding. -/
theorem readSection_eq_ok {c c' : Cursor} {s : Section} (h : readSection c = .ok (s, c')) :
    s.Told ∧ c'.offset = c.offset + (s.content.write c.offset).length ∧
      ∃ pad, pad.length = padding (c.offset + s.content.body.length) ∧
        c.rest = s.content.body ++ (pad ++ c'.rest) := by
  rw [readSection] at h
  obtain ⟨⟨headerBytes, c₁⟩, hheader, h⟩ := bind_eq_ok.mp h
  simp only at h
  split at h
  · cases h
  next hroom =>
  obtain ⟨⟨ownerBytes, c₂⟩, howners, h⟩ := bind_eq_ok.mp h
  obtain ⟨⟨payload, c₃⟩, hpayload, h⟩ := bind_eq_ok.mp h
  obtain ⟨⟨pad, c₄⟩, hpad, h⟩ := bind_eq_ok.mp h
  obtain ⟨hs, rfl⟩ := Prod.mk.inj (Except.ok.inj h)
  simp only at hpayload hpad hs
  obtain ⟨hrest₁, hlength₁, hoffset₁⟩ := Cursor.take_eq_ok hheader
  obtain ⟨hrest₂, hlength₂, hoffset₂⟩ := Cursor.take_eq_ok howners
  obtain ⟨hrest₃, hlength₃, hoffset₃⟩ := Cursor.take_eq_ok hpayload
  obtain ⟨hrest₄, hlength₄, hoffset₄⟩ := Cursor.take_eq_ok hpad
  have htold : s.Told := by
    rw [← hs]
    exact ⟨hlength₂, by simp only; omega⟩
  have hbody : s.content.body = headerBytes ++ ownerBytes ++ payload := by
    rw [htold.body_content, ← hs]
    simp only [SectionHeader.bytes_ofBytes hlength₁]
  have hend : c₃.offset = c.offset + s.content.body.length := by
    rw [hbody, List.length_append, List.length_append]
    omega
  have hwritten : c₄.offset = c.offset + (s.content.write c.offset).length := by
    rw [hoffset₄, hend, Content.length_write, Nat.add_assoc]
  refine ⟨htold, hwritten, pad, ?_, ?_⟩
  · rw [hlength₄, hend]
  · rw [hbody, hrest₁, hrest₂, hrest₃, hrest₄]
    simp

/-- **Sections that are read one after the other** are laid out. -/
theorem laidOut_of_readSections : ∀ {n : Nat} {c c' : Cursor} {sections : List Section},
    readSections n c = .ok (sections, c') →
      sections.length = n ∧ (∀ s ∈ sections, s.Told) ∧
        LaidOut c.offset (sections.map Section.content) c.rest
  | 0, c, c', sections, h => by
    obtain ⟨rfl, rfl⟩ := Prod.mk.inj (Except.ok.inj h)
    exact ⟨rfl, by simp, .nil _ _⟩
  | n + 1, c, c', sections, h => by
    rw [readSections] at h
    obtain ⟨⟨s, c₁⟩, hs, h⟩ := bind_eq_ok.mp h
    obtain ⟨⟨rest, c₂⟩, hrest, h⟩ := bind_eq_ok.mp h
    obtain ⟨rfl, rfl⟩ := Prod.mk.inj (Except.ok.inj h)
    obtain ⟨htold, hoffset, pad, hpad, hbytes⟩ := readSection_eq_ok hs
    obtain ⟨hlength, htoldRest, hlaid⟩ := laidOut_of_readSections hrest
    refine ⟨by rw [List.length_cons, hlength], ?_, ?_⟩
    · intro t ht
      rcases List.mem_cons.mp ht with rfl | ht
      · exact htold
      · exact htoldRest t ht
    · rw [hbytes, List.map_cons]
      rw [hoffset] at hlaid
      exact .cons hpad hlaid

/-! ## 3. Blobs -/

/-- A blob that is read stands in its bytes as the writer lays it out. -/
structure Parsed.ReadFrom (r : Parsed) (b : List UInt8) : Prop where
  version : r.header.version = currentVersion
  count : r.sections.length = r.header.sections.toNat
  told : ∀ s ∈ r.sections, s.Told
  laidOut : ∃ rest, b = r.header.bytes ++ rest ∧ LaidOut headerSize r.contents rest

theorem readFrom_of_read {b : List UInt8} {r : Parsed} (h : read b = .ok r) : r.ReadFrom b := by
  rw [read] at h
  obtain ⟨⟨headerBytes, c₁⟩, hheader, h⟩ := bind_eq_ok.mp h
  simp only at h
  split at h
  · cases h
  next hversion =>
  obtain ⟨⟨sections, c₂⟩, hsections, h⟩ := bind_eq_ok.mp h
  obtain rfl := Except.ok.inj h
  obtain ⟨hrest, hlength, hoffset⟩ := Cursor.take_eq_ok hheader
  obtain ⟨hcount, htold, hlaid⟩ := laidOut_of_readSections hsections
  have hstart : c₁.offset = headerSize := by rw [hoffset, Nat.zero_add]
  rw [hstart] at hlaid
  refine ⟨Decidable.not_not.mp hversion, hcount, htold, c₁.rest, ?_, hlaid⟩
  rw [Header.bytes_ofBytes hlength]
  exact hrest

namespace Parsed.ReadFrom

variable {r : Parsed} {b : List UInt8}

/-- Every content can be written. -/
theorem fits (h : r.ReadFrom b) : ∀ c ∈ r.contents, c.Fits := by
  intro c hc
  obtain ⟨s, hs, rfl⟩ := List.mem_map.mp hc
  exact (h.told s hs).fits_content

/-- The header is the one that is written for the contents. -/
theorem header_eq (h : r.ReadFrom b) : writtenHeader r.header.units r.contents = r.header := by
  have hcount : UInt32.ofNat r.contents.length = r.header.sections := by
    rw [contents, List.length_map, h.count, UInt32.ofNat_toNat]
  rw [writtenHeader, hcount, ← h.version]

/-- The sections are those that the contents are written to. -/
theorem sections_eq (h : r.ReadFrom b) : r.contents.map Content.section = r.sections := by
  have hid : r.sections.map (Content.section ∘ Section.content) = r.sections.map id :=
    List.map_congr_left fun s hs => (h.told s hs).section_content
  rw [contents, List.map_map, hid, List.map_id]

theorem bytes_eq_write (h : r.ReadFrom b) : r.bytes = write r.header.units r.contents :=
  congrArg (Header.bytes · ++ writeSections headerSize r.contents) h.header_eq.symm

/-- **What is written again reads back.** -/
theorem read_bytes (h : r.ReadFrom b) : read r.bytes = .ok r := by
  have hcount : r.contents.length < 2 ^ 32 := by
    rw [contents, List.length_map, h.count]
    exact r.header.sections.toNat_lt
  have hread := read_write r.header.units [] h.fits
  rw [List.append_nil, ← h.bytes_eq_write, take_sections _ hcount, h.header_eq,
    h.sections_eq] at hread
  exact hread

/-- Writing again takes no more bytes. -/
theorem length_bytes_le (h : r.ReadFrom b) : r.bytes.length ≤ b.length := by
  obtain ⟨rest, rfl, hlaid⟩ := h.laidOut
  rw [bytes, List.length_append, List.length_append]
  exact Nat.add_le_add_left hlaid.length_le _

/-- **Outside the padding the same bytes are written again.** -/
theorem getElem?_bytes (h : r.ReadFrom b) {i : Nat} (hi : i < r.bytes.length)
    (hplace : ¬ InPadding headerSize r.contents i) : r.bytes[i]? = b[i]? := by
  obtain ⟨rest, rfl, hlaid⟩ := h.laidOut
  rw [bytes, List.length_append, Header.length_bytes] at hi
  rw [bytes]
  rcases Nat.lt_or_ge i headerSize with hheader | hheader
  · have hlt : i < r.header.bytes.length := by rwa [Header.length_bytes]
    rw [List.getElem?_append_left hlt, List.getElem?_append_left hlt]
  · have hle : r.header.bytes.length ≤ i := by rwa [Header.length_bytes]
    rw [List.getElem?_append_right hle, List.getElem?_append_right hle, Header.length_bytes]
    refine hlaid.getElem?_eq (by omega) ?_
    rw [Nat.add_sub_cancel' hheader]
    exact hplace

end Parsed.ReadFrom

/-- **Reader and writer are inverse up to padding and trailing bytes.**  Whatever is read as a blob
can be written again: the bytes are no more than before, the same wherever there is no padding, and
read as the same blob.  So two byte strings that read as one blob differ in padding and trailing bytes
only. -/
theorem rewrite_read {b : List UInt8} {r : Parsed} (h : read b = .ok r) :
    (∀ c ∈ r.contents, c.Fits) ∧
      r.bytes.length ≤ b.length ∧
      (∀ i < r.bytes.length, ¬ InPadding headerSize r.contents i → r.bytes[i]? = b[i]?) ∧
      read r.bytes = .ok r ∧
      ∀ b', read b' = .ok r →
        ∀ i < r.bytes.length, ¬ InPadding headerSize r.contents i → b[i]? = b'[i]? := by
  have hfrom := readFrom_of_read h
  refine ⟨hfrom.fits, hfrom.length_bytes_le, fun i => hfrom.getElem?_bytes, hfrom.read_bytes, ?_⟩
  intro b' h' i hi hplace
  rw [← hfrom.getElem?_bytes hi hplace, (readFrom_of_read h').getElem?_bytes hi hplace]

/-- Two sections of one type, the first with three padding bytes that are not zero, the second
without instances, and a trailing byte. -/
def untidy : List UInt8 :=
  [1, 0, 0, 0, 2, 0, 0, 0, 2, 0, 0, 0,
    7, 0, 0, 0, 1, 0, 0, 0, 5, 0, 0, 0, 9, 8, 0, 0, 0xaa, 1, 2, 3,
    7, 0, 0, 0, 0, 0, 0, 0, 0, 0, 0, 0, 0xff]

/-- The padding is written as zeros and the trailing byte is dropped. -/
theorem rewrite_read_untidy :
    ∃ r, read untidy = .ok r ∧ r.bytes.length = 44 ∧ r.bytes[28]? = some 0xaa ∧
      r.bytes[29]? = some 0 ∧ read r.bytes = .ok r := by
  obtain ⟨r, hr, hlength, hpad, hplace⟩ : ∃ r, read untidy = .ok r ∧ r.bytes.length = 44 ∧
      r.bytes[29]? = some 0 ∧ ¬ InPadding headerSize r.contents 28 :=
    ⟨_, rfl, by decide +kernel, by decide +kernel, by decide +kernel⟩
  obtain ⟨-, -, hagree, hread, -⟩ := rewrite_read hr
  refine ⟨r, hr, hlength, ?_, hpad, hread⟩
  rw [hagree 28 (by omega) hplace]
  rfl

end UnitBake.Blob
