/-
# What acceptance of a blob says, and what it does not

A blob is *consistent* if its owners are numbers of its units and no type has two sections.  Then the
first section of a type is the only one (`Parsed.Consistent.section?_eq`), and pairing the owners with
their instances stays within the units (`Parsed.Consistent.lt_of_mem_instances`).

Reading does not check this.  It looks at the version and at sizes, and any contents that fit can be
read back, whoever owns their instances and however often a type comes up (`read_write_contents`); so
a blob can be read and be inconsistent (`read_inconsistent`).  Consistency comes from baking: the
owners are counted and the sections follow the registry (`Baker.consistent_of_baked`).
-/
import UnitBake.Proofs.Baking.Lossless
import UnitBake.Proofs.Blob.Instances

namespace UnitBake

namespace Blob

/-! ## 1. Consistent blobs -/

/-- Owners are numbers of units, and no type has two sections. -/
structure Parsed.Consistent (r : Parsed) : Prop where
  owners : ∀ s ∈ r.sections, ∀ owner ∈ s.owners, owner < r.header.units
  types : (r.sections.map (·.header.typeId)).Nodup

namespace Parsed.Consistent

variable {r : Parsed} {s : Section}

/-- **A section is found by its type.** -/
theorem section?_eq (h : r.Consistent) (hs : s ∈ r.sections) :
    r.section? s.header.typeId = some s := by
  cases hfound : r.section? s.header.typeId with
  | none => exact absurd (beq_self_eq_true _) (List.find?_eq_none.mp hfound s hs)
  | some first =>
    unfold Parsed.section? at hfound
    have htype := List.find?_some hfound
    have hsame := List.inj_on_of_nodup_map h.types (List.mem_of_find?_eq_some hfound) hs
      (eq_of_beq htype)
    rw [hsame]

/-- **Every instance belongs to a unit**, whatever size the instances are taken to have. -/
theorem lt_of_mem_instances (h : r.Consistent) (hs : s ∈ r.sections) {itemSize : UInt64}
    {pairs : List (UInt32 × List UInt8)} (hpairs : s.instances itemSize = .ok pairs) :
    ∀ pair ∈ pairs, pair.1 < r.header.units := by
  obtain ⟨-, rfl⟩ := Section.eq_zip_of_instances hpairs
  intro pair hpair
  exact h.owners s hs pair.1 (List.of_mem_zip hpair).1

end Parsed.Consistent

/-! ## 2. What is read need not be consistent -/

/-- **Any contents read back** that fit, whatever their owners and types. -/
theorem read_write_contents (units : UInt32) {contents : List Content}
    (hfits : ∀ c ∈ contents, c.Fits) (hcount : contents.length < 2 ^ 32) :
    ∃ r, read (write units contents) = .ok r ∧ r.header.units = units ∧
      r.sections = contents.map Content.section := by
  have hread := read_write units [] hfits
  rw [List.append_nil, take_sections _ hcount] at hread
  exact ⟨_, hread, rfl, rfl⟩

/-- No unit, and two sections of one type, each with an instance of the unit 9. -/
def shadowing : List UInt8 :=
  [1, 0, 0, 0, 0, 0, 0, 0, 2, 0, 0, 0,
    7, 0, 0, 0, 1, 0, 0, 0, 8, 0, 0, 0, 9, 0, 0, 0, 1, 1, 1, 1,
    7, 0, 0, 0, 1, 0, 0, 0, 8, 0, 0, 0, 9, 0, 0, 0, 2, 2, 2, 2]

/-- **What is read can be inconsistent in both ways**: an owner that is no unit, and a section that
is not found because another one of its type stands before it. -/
theorem read_inconsistent :
    ∃ r, read shadowing = .ok r ∧
      (∃ s ∈ r.sections, ∃ owner ∈ s.owners, ¬ owner < r.header.units) ∧
      ¬ (r.sections.map (·.header.typeId)).Nodup ∧
      ∃ s ∈ r.sections, r.section? s.header.typeId ≠ some s := by
  refine ⟨_, rfl, ?_, ?_, ?_⟩
  · decide +kernel
  · decide +kernel
  · decide +kernel

end Blob

/-! ## 3. What is baked is consistent -/

namespace Baker

open Blob (Parsed)

variable {b : Baker} {requests : List Request}

/-- Owners are written as numbers of units. -/
theorem owner_lt_units (hunits : (b.unitsOfAll requests).length < 2 ^ 32) {c : Blob.Content}
    (hc : c ∈ b.sectionsOf requests) {owner : UInt32} (howner : owner ∈ c.owners) :
    owner < (b.serveAll .empty requests).batch.units := by
  obtain ⟨t, -, rfl⟩ := (mem_sectionsOf_iff c).mp hc
  obtain ⟨p, hp, rfl⟩ := List.mem_map.mp howner
  have hlt := owner_lt_of_mem_yield (List.mem_of_mem_filter hp)
  rw [(tallies_serveAll b requests).1, UInt32.lt_iff_toNat_lt, UInt32.toNat_ofNat_of_lt' hunits,
    UInt32.toNat_ofNat_of_lt' (hlt.trans hunits)]
  exact hlt

/-- **Sections of a job make a consistent blob**, as many of them as are read. -/
theorem consistent_of_baked (hunits : (b.unitsOfAll requests).length < 2 ^ 32) (count : Nat) :
    (Parsed.mk
      (Blob.writtenHeader (b.serveAll .empty requests).batch.units (b.sectionsOf requests))
      (((b.sectionsOf requests).take count).map Blob.Content.section)).Consistent := by
  constructor
  · intro s hs owner howner
    obtain ⟨c, hc, rfl⟩ := List.mem_map.mp hs
    rw [Blob.Content.owners_section] at howner
    exact owner_lt_units hunits (List.mem_of_mem_take hc) howner
  · have hnodup := nodup_typeIds (b := b) (tallies_serveAll b requests)
    rw [List.map_map]
    exact hnodup.sublist ((List.take_sublist _ _).map _)

/-- **What acceptance of a blob ensures.**  Whatever is read has the current version, as many sections
as its header tells, and in each section as many owners as its header tells and a payload that makes
up its size.  What the owners and the types are is not looked at: any number of units and any contents
that fit are read back as they were written.

A blob that was baked, whatever stands behind it, is read; its owners are numbers of its units, so that
pairing them with their instances stays within the units, and no type has two sections, so that each
section is found by its type and holds every component of it.

The number of sections is a word and there are as many type ids as words, so the last is said unless
every single type id has a component. -/
theorem accepted_blobs :
    (∀ bytes r, Blob.read bytes = .ok r →
      r.header.version = Blob.currentVersion ∧ r.sections.length = r.header.sections.toNat ∧
        ∀ s ∈ r.sections, s.owners.length = s.header.instances.toNat ∧
          4 * s.owners.length + s.payload.length = s.header.size.toNat) ∧
    (∀ (units : UInt32) (contents : List Blob.Content),
      (∀ c ∈ contents, c.Fits) → contents.length < 2 ^ 32 →
        ∃ r, Blob.read (Blob.write units contents) = .ok r ∧ r.header.units = units ∧
          r.sections.map Blob.Section.content = contents) ∧
    ∀ (b : Baker) (requests : List Request) (trailing : List UInt8),
      (b.unitsOfAll requests).length < 2 ^ 32 →
      (∀ t, 4 * (placedOf t (b.yield requests)).length +
        ((placedOf t (b.yield requests)).flatMap fun p => p.encoded.bytes).length < 2 ^ 32) →
      ∃ r, Blob.read ((b.finalize (b.serveAll .empty requests).batch).result ++ trailing) =
          .ok r ∧
        (∀ s ∈ r.sections, ∀ owner ∈ s.owners, owner < r.header.units) ∧
        (r.sections.map (·.header.typeId)).Nodup ∧
        (∀ s ∈ r.sections, r.section? s.header.typeId = some s ∧
          ∀ itemSize pairs, s.instances itemSize = .ok pairs →
            ∀ pair ∈ pairs, pair.1 < r.header.units) ∧
        ((∃ t, placedOf t (b.yield requests) = []) →
          ∀ t, placedOf t (b.yield requests) ≠ [] → ∃ s, r.section? t = some s ∧
            s.owners.map (·.toNat) = (placedOf t (b.yield requests)).map (·.owner) ∧
            s.payload =
              (placedOf t (b.yield requests)).flatMap fun p => p.encoded.bytes) := by
  refine ⟨?_, ?_, ?_⟩
  · -- whatever is read
    intro bytes r hread
    have hfrom := Blob.readFrom_of_read hread
    refine ⟨hfrom.version, hfrom.count, ?_⟩
    intro s hs
    have htold := hfrom.told s hs
    exact ⟨htold.length_owners, htold.size_content⟩
  · -- whoever owns the instances and however often a type comes up
    intro units contents hfits hcount
    obtain ⟨r, hread, hunits, hsections⟩ := Blob.read_write_contents units hfits hcount
    exact ⟨r, hread, hunits, hsections ▸ Blob.map_content_section contents⟩
  · -- what was baked
    intro b requests trailing hunits hfit
    have hread := Blob.read_write (b.serveAll .empty requests).batch.units trailing
      (fits_of_mem_sectionsOf hfit)
    have hconsistent := consistent_of_baked hunits
      (Blob.writtenHeader (b.serveAll .empty requests).batch.units
        (b.sectionsOf requests)).sections.toNat
    refine ⟨_, hread, hconsistent.owners, hconsistent.types, ?_, ?_⟩
    · intro s hs
      exact ⟨hconsistent.section?_eq hs, fun _ _ => hconsistent.lt_of_mem_instances hs⟩
    · rintro ⟨free, hfree⟩ t ht
      have hmem : Blob.Content.ofPlaced t (placedOf t (b.yield requests)) ∈
          b.sectionsOf requests := (mem_sectionsOf_iff _).mpr ⟨t, ht, rfl⟩
      rw [← Blob.take_sections (b.serveAll .empty requests).batch.units
        (length_sectionsOf_lt hfree)] at hmem
      have hfound := hconsistent.section?_eq (List.mem_map_of_mem hmem)
      refine ⟨_, hfound, ?_, rfl⟩
      rw [Blob.Content.owners_section]
      exact map_toNat_owners t hunits

/-- A job with a byte behind its blob: the two owners of `a` are found. -/
theorem accepted_blobs_byteJob :
    ∃ r, Blob.read ((byteBaker.finalize (byteBaker.serveAll .empty byteJob).batch).result ++ [7]) =
        .ok r ∧
      ∃ s, r.section? (.ofName "a") = some s ∧ s.owners.map (·.toNat) = [0, 1] := by
  have hsize : 4 * (byteBaker.yield byteJob).length +
      ((byteBaker.yield byteJob).flatMap fun p => p.encoded.bytes).length < 2 ^ 32 := by
    decide +kernel
  have hnone : placedOf ⟨0⟩ (byteBaker.yield byteJob) = [] :=
    List.isEmpty_iff.mp (by decide +kernel)
  have hsome : placedOf (.ofName "a") (byteBaker.yield byteJob) ≠ [] := by
    intro h
    exact absurd (congrArg List.length h) (by decide +kernel)
  obtain ⟨r, hread, -, -, -, hfound⟩ := accepted_blobs.2.2 byteBaker byteJob [7] (by decide +kernel)
    (fun t => (size_placedOf_le t _).trans_lt hsize)
  obtain ⟨s, hs, howners, -⟩ := hfound ⟨⟨0⟩, hnone⟩ (.ofName "a") hsome
  exact ⟨r, hread, s, hs, howners.trans (by decide +kernel)⟩

end Baker

end UnitBake
