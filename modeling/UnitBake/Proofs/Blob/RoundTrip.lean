/-
# Reading what was written

`Blob.read` takes back what `Blob.write` put down.  The reader's cursor and the writer's running
offset move in step: at a cursor that stands before a written section, `readSection` returns the
section and stops right behind its padding, where the next one was written
(`readSection_write`).  From there the blob follows by induction on the sections (`read_write`).

Nothing is asked of what the writer is given but that every section fits its size (`Content.Fits`).
The reader takes as many sections as the header tells, which are all of them if their number is a word
(`take_sections`).
-/
import Mathlib.Algebra.Group.Nat.Defs
import UnitBake.Blob.Reader

namespace UnitBake.Blob

open LittleEndian

/-! ## 1. Headers -/

/-- Words are written one after the other. -/
theorem bytesOfWords_cons (w : UInt32) (ws : List UInt32) :
    bytesOfWords (w :: ws) = bytes32 w ++ bytesOfWords ws := by
  simp [bytesOfWords]

/-- Three words are read back from their twelve bytes. -/
theorem words_of_three (a b c : UInt32) :
    word32 (bytesOfWords [a, b, c]) = a ∧ word32 ((bytesOfWords [a, b, c]).drop 4) = b ∧
      word32 ((bytesOfWords [a, b, c]).drop 8) = c := by
  have h8 : bytes32 a ++ (bytes32 b ++ bytesOfWords [c]) =
      (bytes32 a ++ bytes32 b) ++ bytesOfWords [c] := by simp
  simp only [bytesOfWords_cons]
  refine ⟨word32_bytes32_append a _, ?_, ?_⟩
  · rw [List.drop_left' (length_bytes32 a)]
    exact word32_bytes32_append b _
  · rw [← bytesOfWords_cons c [], h8, List.drop_left' (by simp), bytesOfWords_cons]
    exact word32_bytes32_append c _

/-- The header of a blob reads back. -/
theorem Header.ofBytes_bytes (h : Header) : Header.ofBytes h.bytes = h := by
  obtain ⟨h1, h2, h3⟩ := words_of_three h.version h.units h.sections
  simp only [Header.ofBytes, Header.bytes, h1, h2, h3]

/-- The header of a section reads back. -/
theorem SectionHeader.ofBytes_bytes (h : SectionHeader) :
    SectionHeader.ofBytes h.bytes = h := by
  obtain ⟨h1, h2, h3⟩ := words_of_three h.typeId.hash h.instances h.size
  simp only [SectionHeader.ofBytes, SectionHeader.bytes, h1, h2, h3]

/-- Twelve bytes are the bytes of the three words read from them. -/
theorem bytesOfWords_three {bs : List UInt8} (h : bs.length = headerSize) :
    bytesOfWords [word32 bs, word32 (bs.drop 4), word32 (bs.drop 8)] = bs := by
  have hlength : bs.length = 12 := h
  have hhead : ∀ {ws : List UInt8}, 4 ≤ ws.length → bytes32 (word32 ws) = ws.take 4 := by
    intro ws hws
    have htake : word32 (ws.take 4) = word32 ws := by
      rw [word32, word32, List.take_take, Nat.min_self]
    rw [← htake]
    exact bytes32_word32 (by rw [List.length_take, Nat.min_eq_left hws])
  have hdrop : (bs.drop 4).drop 4 = bs.drop 8 := List.drop_drop
  have hlast : (bs.drop 8).take 4 = bs.drop 8 := List.take_of_length_le (by simp [hlength])
  rw [bytesOfWords_cons, bytesOfWords_cons, bytesOfWords_cons, hhead (by omega),
    hhead (by simp [hlength]), hhead (by simp [hlength]), hlast]
  calc
    bs.take 4 ++ ((bs.drop 4).take 4 ++ (bs.drop 8 ++ bytesOfWords []))
      = bs.take 4 ++ ((bs.drop 4).take 4 ++ (bs.drop 4).drop 4) := by
        rw [hdrop, bytesOfWords, List.flatMap_nil, List.append_nil]
    _ = bs := by rw [List.take_append_drop, List.take_append_drop]

/-- A header is written as the bytes it was read from. -/
theorem Header.bytes_ofBytes {bs : List UInt8} (h : bs.length = headerSize) :
    (Header.ofBytes bs).bytes = bs :=
  bytesOfWords_three h

theorem SectionHeader.bytes_ofBytes {bs : List UInt8} (h : bs.length = headerSize) :
    (SectionHeader.ofBytes bs).bytes = bs :=
  bytesOfWords_three h

/-! ## 2. Sections -/

/-- The section that stands in a blob for some content. -/
def Content.section (c : Content) : Section := ⟨c.header, bytesOfWords c.owners, c.payload⟩

/-- Owners read back from their section. -/
@[simp] theorem Content.owners_section (c : Content) : c.section.owners = c.owners :=
  words32_bytesOfWords c.owners

/-- What contents are written to holds these contents. -/
theorem map_content_section (contents : List Content) :
    (contents.map Content.section).map Section.content = contents := by
  have hid : ∀ c ∈ contents, (Section.content ∘ Content.section) c = id c := fun c _ =>
    congrArg (Content.mk c.typeId · c.payload) c.owners_section
  rw [List.map_map, List.map_congr_left hid, List.map_id]

/-- A content that fits has no more instances than their word can tell. -/
theorem Content.Fits.owners_lt {c : Content} (h : c.Fits) : c.owners.length < 2 ^ 32 := by
  unfold Content.Fits Content.size at h
  omega

theorem Content.Fits.toNat_instances {c : Content} (h : c.Fits) :
    c.header.instances.toNat = c.owners.length :=
  UInt32.toNat_ofNat_of_lt' h.owners_lt

theorem Content.Fits.toNat_size {c : Content} (h : c.Fits) : c.header.size.toNat = c.size :=
  UInt32.toNat_ofNat_of_lt' h

/-- Taking as many bytes as stand in front takes just these. -/
theorem Cursor.take_append (offset : Nat) {n : Nat} (front rest : List UInt8)
    (h : front.length = n) :
    (Cursor.mk offset (front ++ rest)).take n = .ok (front, ⟨offset + n, rest⟩) := by
  have hlen : ¬ (front ++ rest).length < n := by
    rw [List.length_append]
    omega
  rw [Cursor.take, if_neg hlen, List.take_left' h, List.drop_left' h]

/-- **A written section reads back**, and the cursor stops where the writer went on. -/
theorem readSection_write {c : Content} (h : c.Fits) (offset : Nat) (rest : List UInt8) :
    readSection ⟨offset, c.write offset ++ rest⟩ =
      .ok (c.section, ⟨offset + (c.write offset).length, rest⟩) := by
  have howners : (bytesOfWords c.owners).length = 4 * c.header.instances.toNat := by
    rw [length_bytesOfWords, h.toNat_instances]
  have hpayload : c.payload.length = c.header.size.toNat - 4 * c.header.instances.toNat := by
    rw [h.toNat_size, h.toNat_instances, Content.size]
    omega
  have hroom : ¬ c.header.size.toNat < 4 * c.header.instances.toNat := by
    rw [h.toNat_size, h.toNat_instances, Content.size]
    omega
  -- the offset behind owners and payload is the one the writer padded from
  have hoffset : offset + headerSize + 4 * c.header.instances.toNat +
      (c.header.size.toNat - 4 * c.header.instances.toNat) = offset + c.body.length := by
    rw [c.length_body, ← h.toNat_size]
    omega
  have hend : offset + c.body.length + padding (offset + c.body.length) =
      offset + (c.write offset).length := by
    rw [Content.write, List.length_append, List.length_replicate, Nat.add_assoc]
  have hbytes : c.write offset ++ rest =
      c.header.bytes ++ (bytesOfWords c.owners ++ (c.payload ++
        (List.replicate (padding (offset + c.body.length)) 0 ++ rest))) := by
    simp [Content.write, Content.body]
  rw [readSection, hbytes, Cursor.take_append _ _ _ c.header.length_bytes]
  simp only [bind, Except.bind, SectionHeader.ofBytes_bytes, if_neg hroom,
    Cursor.take_append _ _ _ howners, Cursor.take_append _ _ _ hpayload, hoffset,
    Cursor.take_append _ _ _ (List.length_replicate), hend]
  rfl

/-- Written sections read back one after the other. -/
theorem readSections_writeSections : ∀ (contents : List Content) (offset : Nat)
    (rest : List UInt8), (∀ c ∈ contents, c.Fits) →
    readSections contents.length ⟨offset, writeSections offset contents ++ rest⟩ =
      .ok (contents.map Content.section,
        ⟨offset + (writeSections offset contents).length, rest⟩)
  | [], offset, rest, _ => rfl
  | c :: contents, offset, rest, h => by
    have hc : c.Fits := h c List.mem_cons_self
    have hrest := readSections_writeSections contents (offset + (c.write offset).length) rest
      (fun d hd => h d (List.mem_cons_of_mem _ hd))
    simp only [writeSections, List.append_assoc, List.length_cons, readSections, bind,
      Except.bind, readSection_write hc, hrest, List.length_append, Nat.add_assoc]
    rfl

/-- Sections are written one after the other. -/
theorem writeSections_append : ∀ (front back : List Content) (offset : Nat),
    writeSections offset (front ++ back) =
      writeSections offset front ++
        writeSections (offset + (writeSections offset front).length) back
  | [], _, _ => rfl
  | c :: front, back, offset => by
    simp only [List.cons_append, writeSections, List.append_assoc, List.length_append,
      writeSections_append front back, Nat.add_assoc]

/-! ## 3. Blobs -/

/-- The header that is written for so many units and sections. -/
def writtenHeader (units : UInt32) (contents : List Content) : Header :=
  ⟨currentVersion, units, UInt32.ofNat contents.length⟩

/-- The header never tells more sections than there are. -/
theorem toNat_ofNat_length_le (contents : List Content) :
    (UInt32.ofNat contents.length).toNat ≤ contents.length := by
  rw [UInt32.toNat_ofNat']
  exact Nat.mod_le _ _

/-- **A written blob reads back**, whatever bytes follow it: its header, and as many sections as the
header tells. -/
theorem read_write (units : UInt32) {contents : List Content} (rest : List UInt8)
    (hfit : ∀ c ∈ contents, c.Fits) :
    read (write units contents ++ rest) =
      .ok ⟨writtenHeader units contents,
        (contents.take (writtenHeader units contents).sections.toNat).map Content.section⟩ := by
  have hsections := readSections_writeSections
    (contents.take (UInt32.ofNat contents.length).toNat) headerSize
    (writeSections (headerSize + (writeSections headerSize
        (contents.take (UInt32.ofNat contents.length).toNat)).length)
      (contents.drop (UInt32.ofNat contents.length).toNat) ++ rest)
    (fun c hc => hfit c (List.mem_of_mem_take hc))
  rw [List.length_take_of_le (toNat_ofNat_length_le contents), ← List.append_assoc,
    ← writeSections_append, List.take_append_drop] at hsections
  rw [read, write, List.append_assoc, Cursor.take_append _ _ _ (Header.length_bytes _)]
  simp only [bind, Except.bind, Header.ofBytes_bytes, ne_eq, not_true_eq_false, if_false,
    Nat.zero_add, hsections]
  rfl

/-- All sections read back if their number is a word. -/
theorem take_sections {contents : List Content} (units : UInt32)
    (hcount : contents.length < 2 ^ 32) :
    contents.take (writtenHeader units contents).sections.toNat = contents := by
  refine List.take_of_length_le (Nat.le_of_eq ?_)
  exact (UInt32.toNat_ofNat_of_lt' hcount).symm

/-- The header tells how many sections read back. -/
theorem length_take_sections (units : UInt32) (contents : List Content) :
    (contents.take (writtenHeader units contents).sections.toNat).length =
      (writtenHeader units contents).sections.toNat :=
  List.length_take_of_le (toNat_ofNat_length_le contents)

end UnitBake.Blob
