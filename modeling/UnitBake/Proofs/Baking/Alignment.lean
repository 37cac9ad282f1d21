/-
# Every section starts at a word boundary

The padding behind a section is worked out from the length of the whole blob so far, not from the
section.  Still each section with its padding (`Blob.Stretch`) takes a number of bytes that is divisible
by four (`Blob.Stretch.Framed`): it starts at a word boundary, as the one in front of it ended at one,
and so the padding that leads to the next boundary fills up the section's own last word.  The header of
the blob has twelve bytes, with which it begins.

So a blob is its header and stretches of whole words, whatever the lengths of the payloads, and nothing
else (`Baker.aligned_layout`).
-/
import Mathlib.Algebra.BigOperators.Ring.List
import UnitBake.Proofs.Baking.Truncation
import UnitBake.Proofs.Blob.Rewriting

namespace UnitBake

namespace Blob

open LittleEndian

/-! ## 1. Sections with their padding -/

/-- A section and the bytes between it and the next one. -/
structure Stretch where
  body : Section
  pad : List UInt8
deriving DecidableEq, Repr

namespace Stretch

/-- A stretch as it stands in a blob: the header of the section, its owners, its payload, the
padding. -/
def bytes (s : Stretch) : List UInt8 :=
  s.body.header.bytes ++ s.body.ownerBytes ++ s.body.payload ++ s.pad

/-- **What holds of a stretch.**  Owners and payload are as long as its header tells, fewer than four
zeros follow, and it is made of whole words. -/
structure Framed (s : Stretch) : Prop where
  told : s.body.Told
  pad_lt : s.pad.length < 4
  zeros : ∀ b ∈ s.pad, b = 0
  words : 4 ∣ s.bytes.length

theorem length_bytes (s : Stretch) : s.bytes.length =
    12 + s.body.ownerBytes.length + s.body.payload.length + s.pad.length := by
  simp only [bytes, List.length_append, SectionHeader.length_bytes, headerSize]

theorem Framed.length_eq {s : Stretch} (h : s.Framed) :
    s.bytes.length = 12 + s.body.header.size.toNat + s.pad.length := by
  rw [s.length_bytes, ← h.told.size, Nat.add_assoc 12]

end Stretch

/-- The stretches that contents are written to, the first of which starts at the given offset. -/
def stretches (offset : Nat) : List Content → List Stretch
  | [] => []
  | c :: rest =>
    ⟨c.section, List.replicate (padding (offset + c.body.length)) 0⟩ ::
      stretches (offset + (c.write offset).length) rest

/-- What is written is the stretches, one after the other. -/
theorem writeSections_eq_flatMap : ∀ (contents : List Content) (offset : Nat),
    writeSections offset contents = (stretches offset contents).flatMap Stretch.bytes
  | [], _ => rfl
  | c :: contents, offset => by
    have hrest := writeSections_eq_flatMap contents (offset + (c.write offset).length)
    rw [writeSections, stretches, List.flatMap_cons, hrest]
    rfl

theorem map_body_stretches : ∀ (contents : List Content) (offset : Nat),
    (stretches offset contents).map (·.body) = contents.map Content.section
  | [], _ => rfl
  | c :: contents, offset => by
    rw [stretches, List.map_cons, map_body_stretches contents, List.map_cons]

/-! ## 2. Whole words -/

/-- A content that is written at a word boundary takes whole words. -/
theorem Content.dvd_length_write (c : Content) {offset : Nat} (h : 4 ∣ offset) :
    4 ∣ (c.write offset).length := by
  have hend : 4 ∣ offset + (c.write offset).length := by
    rw [c.length_write, ← Nat.add_assoc]
    exact Nat.dvd_of_mod_eq_zero (add_padding_mod _)
  exact (Nat.dvd_add_right h).mp hend

/-- **Every stretch is framed**, if the first starts at a word boundary: so do all others. -/
theorem framed_of_mem_stretches : ∀ {contents : List Content} {offset : Nat},
    (∀ c ∈ contents, c.Fits) → 4 ∣ offset → ∀ s ∈ stretches offset contents, s.Framed
  | [], _, _, _, s, hs => absurd hs (List.not_mem_nil)
  | c :: contents, offset, hfit, hoffset, s, hs => by
    obtain ⟨hc, hcontents⟩ := List.forall_mem_cons.mp hfit
    have hwords := c.dvd_length_write hoffset
    rcases List.mem_cons.mp hs with rfl | hs
    · exact {
        told := hc.told_section
        pad_lt := by
          rw [List.length_replicate]
          exact padding_lt _
        zeros := fun b hb => (List.mem_replicate.mp hb).2
        words := hwords }
    · exact framed_of_mem_stretches hcontents (Nat.dvd_add hoffset hwords) s hs

section

variable {ss : List Stretch}

/-- Stretches one after the other end at a word boundary. -/
theorem dvd_length_flatMap (h : ∀ s ∈ ss, s.Framed) : 4 ∣ (ss.flatMap Stretch.bytes).length := by
  rw [List.length_flatMap]
  refine List.dvd_sum ?_
  intro n hn
  obtain ⟨s, hs, rfl⟩ := List.mem_map.mp hn
  exact (h s hs).words

theorem length_flatMap_bytes (h : ∀ s ∈ ss, s.Framed) :
    (ss.flatMap Stretch.bytes).length =
      (ss.map fun s => 12 + s.body.header.size.toNat + s.pad.length).sum := by
  rw [List.length_flatMap]
  refine congrArg List.sum (List.map_congr_left ?_)
  intro s hs
  exact (h s hs).length_eq

end

end Blob

namespace Baker

/-! ## 3. What a baker writes -/

/-- **A blob is a header and stretches of whole words.**  Whatever was baked, if the sections fit their
sizes,

* the blob is its header of twelve bytes, then one stretch for each section, and nothing else; the
  sections are those of the columns that have instances, in spawn order;
* each stretch is the header of its section, four bytes for each instance that it tells, the rest
  of the size that it tells, and at most three zeros;
* each starts at an offset that is divisible by four, and so is the length of the blob, which is twelve
  and, for each stretch, twelve, the size and the padding;
* the header tells the number of sections, which is a word unless every single type id has an
  instance. -/
theorem aligned_layout (b : Baker) (batch : Batch) (hfit : ∀ c ∈ b.contents batch, c.Fits) :
    ∃ (header : Blob.Header) (stretches : List Blob.Stretch),
      (b.finalize batch).result = header.bytes ++ stretches.flatMap Blob.Stretch.bytes ∧
      header.bytes.length = 12 ∧
      stretches.map (·.body) = (b.contents batch).map Blob.Content.section ∧
      (∀ s ∈ stretches,
        s.body.header.bytes.length = 12 ∧
          s.body.ownerBytes.length = 4 * s.body.header.instances.toNat ∧
          4 * s.body.header.instances.toNat ≤ s.body.header.size.toNat ∧
          s.body.payload.length =
            s.body.header.size.toNat - 4 * s.body.header.instances.toNat ∧
          s.pad.length ≤ 3 ∧ ∀ byte ∈ s.pad, byte = 0) ∧
      (∀ front s back, stretches = front ++ s :: back →
        4 ∣ (header.bytes ++ front.flatMap Blob.Stretch.bytes).length) ∧
      4 ∣ (b.finalize batch).result.length ∧
      (b.finalize batch).result.length =
        12 + (stretches.map fun s => 12 + s.body.header.size.toNat + s.pad.length).sum ∧
      header.version = Blob.currentVersion ∧ header.units = batch.units ∧
      header.sections = UInt32.ofNat stretches.length ∧
      ((∃ t, batch.instanceCount t = 0) → header.sections.toNat = stretches.length) := by
  have hframed : ∀ s ∈ Blob.stretches Blob.headerSize (b.contents batch), s.Framed :=
    Blob.framed_of_mem_stretches hfit (by decide)
  have hheader := (Blob.writtenHeader batch.units (b.contents batch)).length_bytes
  have hbodies := Blob.map_body_stretches (b.contents batch) Blob.headerSize
  have hresult : (b.finalize batch).result =
      (Blob.writtenHeader batch.units (b.contents batch)).bytes ++
        (Blob.stretches Blob.headerSize (b.contents batch)).flatMap Blob.Stretch.bytes := by
    rw [← Blob.writeSections_eq_flatMap]
    rfl
  have hcount : (Blob.stretches Blob.headerSize (b.contents batch)).length =
      (b.contents batch).length := by
    have hlength := congrArg List.length hbodies
    rwa [List.length_map, List.length_map] at hlength
  -- up to the end of framed stretches there are whole words
  have hwords : ∀ ss : List Blob.Stretch, (∀ s ∈ ss, s.Framed) →
      4 ∣ ((Blob.writtenHeader batch.units (b.contents batch)).bytes ++
        ss.flatMap Blob.Stretch.bytes).length := by
    intro ss hss
    rw [List.length_append, hheader]
    exact Nat.dvd_add (by decide) (Blob.dvd_length_flatMap hss)
  refine ⟨_, _, hresult, hheader, hbodies, ?_, ?_, ?_, ?_, rfl, rfl, ?_, ?_⟩
  · intro s hs
    have h := hframed s hs
    have howners := h.told.owners
    have hsize := h.told.size
    exact ⟨s.body.header.length_bytes, howners, by omega, by omega,
      Nat.le_of_lt_succ h.pad_lt, h.zeros⟩
  · intro front s back hsplit
    refine hwords front fun t ht => hframed t ?_
    rw [hsplit]
    exact List.mem_append_left _ ht
  · rw [hresult]
    exact hwords _ hframed
  · rw [hresult, List.length_append, hheader, Blob.length_flatMap_bytes hframed]
    rfl
  · rw [hcount]
    rfl
  · rintro ⟨t, ht⟩
    rw [hcount]
    exact UInt32.toNat_ofNat_of_lt' (length_contents_lt ht)

/-- Payloads of three bytes and of two are followed by one zero and by two, so that the second section
starts at a word boundary and the blob ends at one. -/
theorem aligned_layout_byteJob :
    ∃ (header : Blob.Header) (s t : Blob.Stretch),
      (byteBaker.finalize (byteBaker.serveAll .empty byteJob).batch).result =
          header.bytes ++ (s.bytes ++ t.bytes) ∧
        header.sections.toNat = 2 ∧ 4 ∣ (header.bytes ++ s.bytes).length ∧
        s.body.payload.length = 3 ∧ s.pad = [0] ∧ t.body.payload.length = 2 ∧ t.pad = [0, 0] := by
  have hsize : 4 * (byteBaker.yield byteJob).length +
      ((byteBaker.yield byteJob).flatMap fun p => p.encoded.bytes).length < 2 ^ 32 := by
    decide +kernel
  have hpayloads : (byteBaker.sectionsOf byteJob).map (·.section.payload.length) = [3, 2] := by
    decide +kernel
  obtain ⟨header, stretches, hresult, hheader, hbodies, hframes, hstarts, hend, -, -, -, -,
      hcount⟩ :=
    aligned_layout byteBaker (byteBaker.serveAll .empty byteJob).batch
      (fits_of_mem_sectionsOf fun t => (size_placedOf_le t _).trans_lt hsize)
  have hlengths : stretches.map (·.body.payload.length) = [3, 2] := by
    rw [← hpayloads]
    have hmap := congrArg (List.map (·.payload.length)) hbodies
    rwa [List.map_map, List.map_map] at hmap
  obtain ⟨s, t, rfl⟩ : ∃ s t, stretches = [s, t] := by
    have hlength := congrArg List.length hlengths
    rw [List.length_map] at hlength
    exact List.length_eq_two.mp hlength
  obtain ⟨hs, ht⟩ : s.body.payload.length = 3 ∧ t.body.payload.length = 2 := by
    simpa using hlengths
  obtain ⟨-, howners, -, -, hpad, hzeros⟩ := hframes s (by simp)
  obtain ⟨-, howners', -, -, hpad', hzeros'⟩ := hframes t (by simp)
  have hstart : 4 ∣ (header.bytes ++ s.bytes).length := by
    have h := hstarts [s] t [] rfl
    rwa [List.flatMap_singleton] at h
  have hwhole : (byteBaker.finalize (byteBaker.serveAll .empty byteJob).batch).result =
      header.bytes ++ (s.bytes ++ t.bytes) := by
    rw [hresult, List.flatMap_cons, List.flatMap_singleton]
  rw [hwhole] at hend
  -- the padding is what is missing to whole words
  have hlength := hstart
  simp only [List.length_append, Blob.Stretch.length_bytes, hheader] at hlength hend
  have hone : s.pad.length = 1 := by omega
  have htwo : t.pad.length = 2 := by omega
  refine ⟨header, s, t, hwhole, hcount ⟨⟨0⟩, by decide +kernel⟩, hstart, hs, ?_, ht, ?_⟩
  · rw [List.eq_replicate_of_mem hzeros, hone]
    rfl
  · rw [List.eq_replicate_of_mem hzeros', htwo]
    rfl

end Baker

end UnitBake
