/-
# Blobs that were cut short

A blob that lost bytes at its end is never taken for a smaller one: reading it reports that bytes are
missing, and where.  The report can be relied on, whoever wrote the blob (`truncation_detected`): as
many bytes as it asks for bring the reader past the place, and fewer do not.

Of a baker this takes one fact more than of the writer.  The header counts the sections in a word, and
a baker writes at most one section for each type id (`typeIds_contents_sublist`), so that the count is
right unless every single type id has an instance (`length_contents_lt`).
-/
import UnitBake.Proofs.Baking.Lossless
import UnitBake.Proofs.Blob.Extension

namespace UnitBake

/-! ## 1. The number of sections -/

namespace Registry

/-- The spawn order holds no type twice. -/
theorem nodup_typeIds_spawnOrder (r : Registry) : (r.spawnOrder.map (·.typeId)).Nodup := by
  refine List.pairwise_map.mpr (r.spawnOrder_precedes.imp ?_)
  intro s t hst heq
  rw [heq] at hst
  exact r.not_precedes_self t.typeId hst

end Registry

namespace Baker

/-- Sections are written for types of the spawn order, in this order. -/
theorem typeIds_contents_sublist (b : Baker) (batch : Batch) :
    ((b.contents batch).map (·.typeId)).Sublist (b.registry.spawnOrder.map (·.typeId)) := by
  unfold contents
  induction b.registry.spawnOrder with
  | nil => exact List.Sublist.refl _
  | cons slot slots ih =>
    rw [List.filterMap_cons, List.map_cons]
    split
    · exact ih.cons _
    · next c hc =>
      have htype : c.typeId = slot.typeId := by
        split at hc
        · split at hc
          · cases hc
          · rw [← Option.some.inj hc]
        · cases hc
      rw [List.map_cons, htype]
      exact ih.cons_cons _

/-- A type without instances has no section. -/
theorem typeId_notMem_contents {b : Baker} {batch : Batch} {t : TypeId}
    (h : batch.instanceCount t = 0) : t ∉ (b.contents batch).map (·.typeId) := by
  intro hmem
  obtain ⟨c, hc, rfl⟩ := List.mem_map.mp hmem
  obtain ⟨slot, -, hslot⟩ := List.mem_filterMap.mp hc
  split at hslot
  · next column hcolumn =>
    split at hslot
    · cases hslot
    · next hsize =>
      obtain rfl := Option.some.inj hslot
      simp only [Batch.instanceCount, hcolumn] at h
      exact hsize h
  · cases hslot

/-- The number of sections is a word unless every type id has an instance. -/
theorem length_contents_lt {b : Baker} {batch : Batch} {t : TypeId}
    (h : batch.instanceCount t = 0) : (b.contents batch).length < 2 ^ 32 := by
  have hnodup : ((b.contents batch).map (·.typeId)).Nodup :=
    b.registry.nodup_typeIds_spawnOrder.sublist (b.typeIds_contents_sublist batch)
  have hlt := length_lt_of_notMem hnodup (typeId_notMem_contents h)
  rwa [List.length_map] at hlt

/-! ## 2. Reports of missing bytes -/

/-- **Missing bytes are always detected and honestly reported.**

Every blob that a baker writes (its sections fit their sizes) is found too short when it lost one byte
or more at its end, unless every single type id has an instance.

For any bytes, whoever wrote them, and any bytes that are put behind them: a blob that is read, or is
refused for another reason than missing bytes, is read or refused as before.  If bytes are missing, the
place lies within the blob or at its end and at least one is missing; with fewer behind it than are
missing, the others are still missing at this place; and with as many, none is missing there. -/
theorem truncation_detected :
    (∀ (b : Baker) (batch : Batch), (∀ c ∈ b.contents batch, c.Fits) →
      (∃ t, batch.instanceCount t = 0) →
      ∀ front, front <+: (b.finalize batch).result → front ≠ (b.finalize batch).result →
        ∃ offset needed, Blob.read front = .error (.truncated offset needed)) ∧
    ∀ bytes more,
      match Blob.read bytes with
      | .error (.truncated offset needed) =>
        offset ≤ bytes.length ∧ 1 ≤ needed ∧
          (more.length < needed →
            Blob.read (bytes ++ more) = .error (.truncated offset (needed - more.length))) ∧
          (needed ≤ more.length →
            ∀ needed', Blob.read (bytes ++ more) ≠ .error (.truncated offset needed'))
      | result => Blob.read (bytes ++ more) = result := by
  constructor
  · intro b batch hfit hfree front hlost hne
    obtain ⟨t, ht⟩ := hfree
    exact Blob.truncated_of_prefix hfit (length_contents_lt ht) hlost hne
  · intro bytes more
    cases h : Blob.read bytes with
    | ok r => exact Blob.read_append_of_ok h more
    | error e =>
      cases e with
      | truncated offset needed =>
        obtain ⟨hle, hneeded⟩ := Blob.bounds_of_truncated h
        exact ⟨hle, hneeded, Blob.read_append_of_few h, Blob.read_append_of_enough h⟩
      | version expected found => exact Blob.read_append_of_refused h (by simp) more
      | sectionSize typeId size => exact Blob.read_append_of_refused h (by simp) more

/-- A blob with two sections that lost the last byte of its padding, and a header that lost its last
two bytes, with one byte behind it and with two. -/
theorem truncation_detected_byteJob :
    (∃ offset needed,
      Blob.read (byteBaker.finalize (byteBaker.serveAll .empty byteJob).batch).result.dropLast =
        .error (.truncated offset needed)) ∧
      Blob.read ([1, 0, 0, 0, 0, 0, 0, 0, 1, 0] ++ [0]) = .error (.truncated 0 1) ∧
      ∀ needed, Blob.read ([1, 0, 0, 0, 0, 0, 0, 0, 1, 0] ++ [0, 0]) ≠
        .error (.truncated 0 needed) := by
  obtain ⟨hwritten, hmore⟩ := truncation_detected
  have hsize : 4 * (byteBaker.yield byteJob).length +
      ((byteBaker.yield byteJob).flatMap fun p => p.encoded.bytes).length < 2 ^ 32 := by
    decide +kernel
  have hfit : ∀ c ∈ byteBaker.sectionsOf byteJob, c.Fits :=
    fits_of_mem_sectionsOf fun t => (size_placedOf_le t _).trans_lt hsize
  have hheader : Blob.read [1, 0, 0, 0, 0, 0, 0, 0, 1, 0] = .error (.truncated 0 2) := by rfl
  refine ⟨?_, ?_, ?_⟩
  · refine hwritten byteBaker _ hfit ⟨⟨0⟩, by decide +kernel⟩ _ (List.dropLast_prefix _) ?_
    intro heq
    exact absurd (congrArg List.length heq) (by decide +kernel)
  · have hone := hmore [1, 0, 0, 0, 0, 0, 0, 0, 1, 0] [0]
    rw [hheader] at hone
    exact hone.2.2.1 (by decide)
  · have htwo := hmore [1, 0, 0, 0, 0, 0, 0, 0, 1, 0] [0, 0]
    rw [hheader] at htwo
    exact htwo.2.2.2 (by decide)

end Baker

end UnitBake
