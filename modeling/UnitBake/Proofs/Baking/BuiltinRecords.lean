/-
# Records of the built-in types in a blob

A job baked with the built-in types is written and read back.  `Baker.builtin_records_read_back` says
what a reader of the blob finds who knows the sizes of the records: the section of a type cuts into as
many records as the type has components, each owned by the unit of its component, and each holds what
the data of its component gives for the fields of the type.

* Records of one size that are written one after the other are what their section cuts into
  (`Blob.Content.instances_section`).
* Every component that is baked was encoded by what is registered for its type
  (`Baker.encoded_of_mem_yield`), and the built-in encoders return records
  (`Builtin.recorded_of_registered`).
* The type id of a section tells the type, because no two built-in names have one hash
  (`Builtin.Kind.eq_of_typeId_eq`).
-/
import UnitBake.Proofs.Baking.Lossless
import UnitBake.Proofs.Blob.Instances
import UnitBake.Proofs.Builtin.Records

namespace UnitBake

/-! ## 1. Cutting sections into records -/

namespace Blob

/-- **A section of records of one size** pairs every owner with its record. -/
theorem Content.instances_section {c : Content} {size : Nat} {records : List (List UInt8)}
    (hfit : c.Fits) (hpayload : c.payload = records.flatten)
    (hcount : records.length = c.owners.length) (hsize : ∀ r ∈ records, r.length = size)
    (hpos : 0 < size) (hsmall : size < 2 ^ 64) :
    c.section.instances (UInt64.ofNat size) = .ok (c.owners.zip records) := by
  have hword : (UInt64.ofNat size).toNat = size := UInt64.toNat_ofNat_of_lt' hsmall
  refine hfit.told_section.instances_eq_ok_iff.mpr ⟨?_, ?_⟩
  · rw [UInt64.lt_iff_toNat_lt, hword]
    exact hpos
  rw [hword]
  refine ⟨?_, ?_, fun p hp => hsize p.2 (List.of_mem_zip hp).2, ?_⟩
  · rw [List.length_zip, hcount, Nat.min_self]
    exact hfit.toNat_instances.symm
  · rw [List.map_fst_zip (Nat.le_of_eq hcount.symm), owners_section]
  · rw [List.map_snd_zip (Nat.le_of_eq hcount), ← hpayload]
    rfl

/-- The section of components whose records have one size. -/
theorem Content.instances_ofPlaced {t : TypeId} {ps : List Placed} {size : Nat}
    (hfit : (ofPlaced t ps).Fits) (hsize : ∀ p ∈ ps, p.encoded.bytes.length = size)
    (hpos : 0 < size) (hsmall : size < 2 ^ 64) :
    (ofPlaced t ps).section.instances (UInt64.ofNat size) =
      .ok ((ps.map fun p => UInt32.ofNat p.owner).zip (ps.map fun p => p.encoded.bytes)) := by
  have hcount : (ps.map fun p => p.encoded.bytes).length = (ofPlaced t ps).owners.length := by
    simp [ofPlaced]
  have hpayload : (ofPlaced t ps).payload = (ps.map fun p => p.encoded.bytes).flatten :=
    List.flatMap_def
  refine instances_section hfit hpayload hcount ?_ hpos hsmall
  intro r hr
  obtain ⟨p, hp, rfl⟩ := List.mem_map.mp hr
  exact hsize p hp

end Blob

/-! ## 2. Components and their records -/

namespace Baker

/-- **Whatever is baked was encoded by what is registered for its type.** -/
theorem encoded_of_mem_yield {b : Baker} {requests : List Request} {p : Placed}
    (h : p ∈ b.yield requests) :
    ∃ r, b.registry.types.get? p.encoded.typeId = some r ∧
      r.encoder ⟨p.encoded.component.typeName, b.source⟩ p.encoded.component.data =
        .ok p.encoded.bytes := by
  obtain ⟨unit, hunit, he⟩ := mem_placed h
  obtain ⟨tree, htree⟩ := exists_unit?_of_mem hunit
  obtain ⟨components, -, hencoded⟩ := Option.bind_eq_some_iff.mp htree
  obtain ⟨c, -, hc⟩ := exists_of_mem_mapM_encoded? hencoded he
  obtain ⟨rfl, hr⟩ := encoded?_eq_some hc
  exact hr

end Baker

namespace Builtin

/-- A baker that knows the built-in types. -/
def baker (source : Source) (prefabDepth : Nat) : Baker := ⟨registry, source, prefabDepth⟩

namespace Kind

/-- All types. -/
def all : List Kind :=
  [transform, camera, meshRenderer, spriteRenderer, light, script, stateMachine]

theorem mem_all (k : Kind) : k ∈ all := by cases k <;> decide

/-- No two names of built-in types have one hash. -/
theorem nodup_typeIds : (all.map typeId).Nodup := by decide +kernel

theorem eq_of_typeId_eq {k k' : Kind} (h : k.typeId = k'.typeId) : k = k' :=
  List.inj_on_of_nodup_map nodup_typeIds (mem_all k) (mem_all k') h

/-- Not every type id is that of a built-in type. -/
theorem typeId_ne_zero (k : Kind) : k.typeId ≠ ⟨0⟩ := by
  have hnone : ∀ t ∈ all.map typeId, t ≠ ⟨0⟩ := by decide +kernel
  exact hnone _ (List.mem_map_of_mem (mem_all k))

theorem recordSize_pos (k : Kind) : 0 < k.recordSize := by cases k <;> decide

theorem recordSize_lt (k : Kind) : k.recordSize < 2 ^ 64 := by cases k <;> decide

end Kind

variable {source : Source} {prefabDepth : Nat} {requests : List Request}

/-- Every component of a job is of a built-in type and has a record of it. -/
theorem recorded_of_mem_yield {p : Placed}
    (h : p ∈ (baker source prefabDepth).yield requests) :
    ∃ k : Kind, k.typeId = p.encoded.typeId ∧ p.encoded.bytes.length = k.recordSize ∧
      k.Recorded p.encoded.component.data p.encoded.bytes := by
  obtain ⟨r, hr, hencode⟩ := Baker.encoded_of_mem_yield h
  exact recorded_of_registered hr hencode

/-- So the components of a type that has any are all of one built-in type. -/
theorem exists_kind_of_placedOf_ne_nil {t : TypeId}
    (h : placedOf t ((baker source prefabDepth).yield requests) ≠ []) :
    ∃ k : Kind, k.typeId = t ∧
      ∀ p ∈ placedOf t ((baker source prefabDepth).yield requests),
        p.encoded.bytes.length = k.recordSize ∧
          k.Recorded p.encoded.component.data p.encoded.bytes := by
  have hkind : ∀ p ∈ placedOf t ((baker source prefabDepth).yield requests), ∃ k : Kind,
      k.typeId = t ∧ p.encoded.bytes.length = k.recordSize ∧
        k.Recorded p.encoded.component.data p.encoded.bytes := by
    intro p hp
    obtain ⟨hmem, htype⟩ := List.mem_filter.mp hp
    rw [← eq_of_beq htype]
    exact recorded_of_mem_yield hmem
  obtain ⟨first, hfirst⟩ := List.exists_mem_of_ne_nil _ h
  obtain ⟨k, hk, -⟩ := hkind first hfirst
  refine ⟨k, hk, ?_⟩
  intro p hp
  obtain ⟨k', hk', hrecorded⟩ := hkind p hp
  obtain rfl := Kind.eq_of_typeId_eq (hk'.trans hk.symm)
  exact hrecorded

/-- All sections that are written read back, because there are only seven types. -/
theorem length_sectionsOf_lt :
    ((baker source prefabDepth).sectionsOf requests).length < 2 ^ 32 := by
  refine Baker.length_sectionsOf_lt (t := ⟨0⟩) ?_
  by_contra h
  obtain ⟨k, hk, -⟩ := exists_kind_of_placedOf_ne_nil h
  exact k.typeId_ne_zero hk

end Builtin

/-! ## 3. Reading back -/

/-- Owners and records of components, paired. -/
theorem forall₂_zip_placed {P : Json → List UInt8 → Prop} {units : Nat} (hunits : units < 2 ^ 32) :
    ∀ {ps : List Placed}, (∀ p ∈ ps, p.owner < units) →
      (∀ p ∈ ps, P p.encoded.component.data p.encoded.bytes) →
      List.Forall₂ (fun (pair : UInt32 × List UInt8) p => pair.1.toNat = p.owner ∧
          pair.2 = p.encoded.bytes ∧ P p.encoded.component.data pair.2)
        ((ps.map fun p => UInt32.ofNat p.owner).zip (ps.map fun p => p.encoded.bytes)) ps
  | [], _, _ => .nil
  | p :: ps, howner, hP => by
    have hlt : p.owner < 2 ^ 32 := (howner p List.mem_cons_self).trans hunits
    refine .cons ⟨UInt32.toNat_ofNat_of_lt' hlt, rfl, hP p List.mem_cons_self⟩ ?_
    exact forall₂_zip_placed hunits (fun q hq => howner q (List.mem_cons_of_mem _ hq))
      fun q hq => hP q (List.mem_cons_of_mem _ hq)

namespace Baker

/-- **Built-in records read back exactly.**  If fewer than `2 ^ 32` units bake and the sections fit
their sizes, the blob of a job baked with the built-in types reads back, with a section for each type
that has components.  The section of a type cuts into records of the type's size; there are as many
as its header tells instances, and the `k`-th record is that of the `k`-th component of the type:
it is owned by the number of units before the component's own, it is what the encoder returned, and
read at the offsets of the type it holds what the component's data gives for the fields of the
type. -/
theorem builtin_records_read_back (source : Source) (prefabDepth : Nat) (requests : List Request)
    (hunits : ((Builtin.baker source prefabDepth).unitsOfAll requests).length < 2 ^ 32)
    (hfit : ∀ t, 4 * (placedOf t ((Builtin.baker source prefabDepth).yield requests)).length +
      ((placedOf t ((Builtin.baker source prefabDepth).yield requests)).flatMap
        fun p => p.encoded.bytes).length < 2 ^ 32) :
    ∃ blob, Blob.read ((Builtin.baker source prefabDepth).finalize
        ((Builtin.baker source prefabDepth).serveAll .empty requests).batch).result = .ok blob ∧
      (∀ t, placedOf t ((Builtin.baker source prefabDepth).yield requests) ≠ [] →
        ∃ s ∈ blob.sections, s.header.typeId = t) ∧
      ∀ s ∈ blob.sections, ∃ kind : Builtin.Kind, kind.typeId = s.header.typeId ∧
        ∃ pairs, s.instances (UInt64.ofNat kind.recordSize) = .ok pairs ∧
          pairs.length = s.header.instances.toNat ∧
          List.Forall₂ (fun pair p => pair.1.toNat = p.owner ∧ pair.2 = p.encoded.bytes ∧
              kind.Recorded p.encoded.component.data pair.2)
            pairs
            (placedOf s.header.typeId
              ((Builtin.baker source prefabDepth).yield requests)) := by
  have hfits := fits_of_mem_sectionsOf hfit
  have hread := Blob.read_write
    ((Builtin.baker source prefabDepth).serveAll .empty requests).batch.units [] hfits
  rw [List.append_nil, Blob.take_sections _ Builtin.length_sectionsOf_lt] at hread
  refine ⟨_, hread, ?_, ?_⟩
  · -- a section for each type with components
    intro t ht
    obtain ⟨c, hc, rfl⟩ := List.mem_map.mp ((mem_typeIds_iff t).mpr ht)
    exact ⟨c.section, List.mem_map_of_mem hc, rfl⟩
  · -- what a section cuts into
    intro s hs
    obtain ⟨c, hc, rfl⟩ := List.mem_map.mp hs
    obtain ⟨t, ht, rfl⟩ := (mem_sectionsOf_iff c).mp hc
    obtain ⟨kind, htype, hrecords⟩ := Builtin.exists_kind_of_placedOf_ne_nil ht
    have hpairs := Blob.Content.instances_ofPlaced (hfits _ hc) (fun p hp => (hrecords p hp).1)
      kind.recordSize_pos kind.recordSize_lt
    refine ⟨kind, htype, _, hpairs, ?_, ?_⟩
    · have hinstances := (hfits _ hc).toNat_instances
      rw [List.length_zip, List.length_map]
      refine Eq.trans ?_ hinstances.symm
      simp [Blob.Content.ofPlaced]
    · refine forall₂_zip_placed hunits ?_ ?_
      · intro p hp
        exact owner_lt_of_mem_yield (List.mem_of_mem_filter hp)
      · intro p hp
        exact (hrecords p hp).2

/-- A unit with one camera. -/
def cameraUnit (projection : String) (fov : Nat) : Json :=
  .object [("components", .list [.object [("data", .object [("far_range", .ofNat 100),
    ("fov", .ofNat fov), ("near_range", .ofNat 1), ("projection", .text projection)]),
    ("type", .text "camera")]])]

/-- Three cameras, of which one has a projection that there is not. -/
def cameraJob : List Request :=
  [.all [cameraUnit "perspective" 60, cameraUnit "fisheye" 75, cameraUnit "orthographic" 90]]

/-- The two cameras that bake, each with its owner: projection, field of view, near and far end. -/
theorem builtin_records_read_back_cameraJob :
    ∃ blob, Blob.read ((Builtin.baker MemorySource.empty.source 4).finalize
        ((Builtin.baker MemorySource.empty.source 4).serveAll .empty cameraJob).batch).result =
          .ok blob ∧
      ∃ s ∈ blob.sections, ∃ pairs, s.instances 16 = .ok pairs ∧
        pairs.map (·.1.toNat) = [0, 1] ∧
        pairs.map (·.2) =
          [[0, 0, 0, 0, 0, 0, 112, 66, 0, 0, 128, 63, 0, 0, 200, 66],
            [1, 0, 0, 0, 0, 0, 180, 66, 0, 0, 128, 63, 0, 0, 200, 66]] := by
  have hsize : 4 * ((Builtin.baker MemorySource.empty.source 4).yield cameraJob).length +
      (((Builtin.baker MemorySource.empty.source 4).yield cameraJob).flatMap
        fun p => p.encoded.bytes).length < 2 ^ 32 := by
    decide +kernel
  have hcameras : placedOf Builtin.Kind.camera.typeId
      ((Builtin.baker MemorySource.empty.source 4).yield cameraJob) ≠ [] := by
    intro h
    exact absurd (congrArg List.length h) (by decide +kernel)
  obtain ⟨blob, hread, hsections, hrecords⟩ :=
    builtin_records_read_back MemorySource.empty.source 4 cameraJob (by decide +kernel)
      (fun t => (size_placedOf_le t _).trans_lt hsize)
  obtain ⟨s, hs, htype⟩ := hsections _ hcameras
  obtain ⟨kind, hkind, pairs, hpairs, -, hall⟩ := hrecords s hs
  obtain rfl := Builtin.Kind.eq_of_typeId_eq (hkind.trans htype)
  rw [htype] at hall
  refine ⟨blob, hread, s, hs, pairs, hpairs, ?_, ?_⟩
  · have howners : pairs.map (·.1.toNat) = (placedOf Builtin.Kind.camera.typeId
        ((Builtin.baker MemorySource.empty.source 4).yield cameraJob)).map (·.owner) := by
      rw [← List.forall₂_eq_eq_eq, List.forall₂_map_left_iff, List.forall₂_map_right_iff]
      exact hall.imp fun _ _ h => h.1
    exact howners.trans (by decide +kernel)
  · have hbytes : pairs.map (·.2) = (placedOf Builtin.Kind.camera.typeId
        ((Builtin.baker MemorySource.empty.source 4).yield cameraJob)).map
          (fun p => p.encoded.bytes) := by
      rw [← List.forall₂_eq_eq_eq, List.forall₂_map_left_iff, List.forall₂_map_right_iff]
      exact hall.imp fun _ _ h => h.2.1
    exact hbytes.trans (by decide +kernel)

end Baker

end UnitBake
