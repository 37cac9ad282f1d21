/-
# Nothing is lost between documents and the blob that is read back

A job is baked, its blob is written, and the blob is read.  `Baker.read_finalize` says what comes out
in terms of the documents of the job alone: the number of units that baked, and for every component
type that has components one section with their owners and their bytes, in the order of the units and
within a unit in the order of its components; the sections follow the spawn order.

Three facts meet here.

* The batch holds the components of the job, sorted by type (`Batch.Tallies`).
* A section is written for every type that has components: such a type is registered, so it has a
  slot in the spawn order (`Baker.mem_contents_iff`).  Without this a column could be passed over.
* What is written reads back (`Blob.read_write`).
-/
import Mathlib.Algebra.BigOperators.Group.List.Basic
import Mathlib.Algebra.Ring.Nat
import Mathlib.Data.Finset.Card
import Mathlib.Data.Finset.Range
import UnitBake.Proofs.Baking.Requests
import UnitBake.Proofs.Blob.RoundTrip
import UnitBake.Proofs.Component.SpawnOrder

namespace UnitBake

/-! ## 1. Counting components by their types -/

theorem sum_map_beq (c : TypeId) : ∀ ts : List TypeId,
    (ts.map fun t => if c == t then 1 else 0).sum = ts.count c
  | [] => rfl
  | t :: ts => by
    rw [List.map_cons, List.sum_cons, sum_map_beq c ts, List.count_cons, Nat.add_comm,
      BEq.comm]

/-- Every component is of exactly one type. -/
theorem sum_length_placedOf {ts : List TypeId} (hnodup : ts.Nodup) : ∀ {ps : List Placed},
    (∀ p ∈ ps, p.encoded.typeId ∈ ts) →
      (ts.map fun t => (placedOf t ps).length).sum = ps.length
  | [], _ => by simp [placedOf]
  | p :: ps, h => by
    have hrest := sum_length_placedOf hnodup fun q hq => h q (List.mem_cons_of_mem _ hq)
    have hone : ts.count p.encoded.typeId = 1 :=
      List.count_eq_one_of_mem hnodup (h p List.mem_cons_self)
    have hsplit : ∀ t, (placedOf t (p :: ps)).length =
        (if p.encoded.typeId == t then 1 else 0) + (placedOf t ps).length := by
      intro t
      unfold placedOf
      rw [List.filter_cons]
      split
      · rw [List.length_cons, Nat.add_comm]
      · rw [Nat.zero_add]
    simp only [hsplit, List.sum_map_add, sum_map_beq, hone, hrest, List.length_cons]
    omega

/-- The components of one type take no more room than all. -/
theorem size_placedOf_le (t : TypeId) : ∀ ps : List Placed,
    4 * (placedOf t ps).length + ((placedOf t ps).flatMap fun p => p.encoded.bytes).length ≤
      4 * ps.length + (ps.flatMap fun p => p.encoded.bytes).length
  | [] => Nat.le_refl _
  | p :: ps => by
    have hrest := size_placedOf_le t ps
    unfold placedOf at hrest ⊢
    rw [List.filter_cons]
    split
    · simp only [List.length_cons, List.flatMap_cons, List.length_append]
      omega
    · simp only [List.length_cons, List.flatMap_cons, List.length_append]
      omega

/-- Type ids that leave one out are fewer than there are words. -/
theorem length_lt_of_notMem {ts : List TypeId} (hnodup : ts.Nodup) {t : TypeId} (ht : t ∉ ts) :
    ts.length < 2 ^ 32 := by
  have hinj : Function.Injective fun u : TypeId => u.hash.toNat := by
    intro u v huv
    cases u; cases v
    exact congrArg TypeId.mk (UInt32.toNat_inj.mp huv)
  have hhashes : (ts.map fun u => u.hash.toNat).Nodup := hnodup.map hinj
  have hsub : (ts.map fun u => u.hash.toNat).toFinset ⊆
      (Finset.range (2 ^ 32)).erase t.hash.toNat := by
    intro n hn
    obtain ⟨u, hu, rfl⟩ := List.mem_map.mp (List.mem_toFinset.mp hn)
    refine Finset.mem_erase.mpr ⟨?_, Finset.mem_range.mpr u.hash.toNat_lt⟩
    intro heq
    exact ht (hinj heq ▸ hu)
  have hcard := Finset.card_le_card hsub
  rw [List.toFinset_card_of_nodup hhashes, List.length_map,
    Finset.card_erase_of_mem (Finset.mem_range.mpr t.hash.toNat_lt), Finset.card_range] at hcard
  omega

/-! ## 2. What is written -/

/-- The content of the section of a type. -/
def Blob.Content.ofPlaced (t : TypeId) (ps : List Placed) : Blob.Content :=
  ⟨t, ps.map fun p => UInt32.ofNat p.owner, ps.flatMap fun p => p.encoded.bytes⟩

/-- When a section fits its size. -/
theorem Blob.Content.fits_ofPlaced_iff (t : TypeId) (ps : List Placed) :
    (ofPlaced t ps).Fits ↔
      4 * ps.length + (ps.flatMap fun p => p.encoded.bytes).length < 2 ^ 32 := by
  simp only [Fits, size, ofPlaced, List.length_map, Nat.reducePow]

namespace Baker

variable {b : Baker} {batch : Batch} {units : List (List Encoded)}

/-- **The sections that are written** are those of the types with components, in spawn order. -/
theorem contents_eq (h : batch.Tallies units) :
    b.contents batch = b.registry.spawnOrder.filterMap fun slot =>
      if (placedOf slot.typeId (placed units)).isEmpty then none
      else some (.ofPlaced slot.typeId (placedOf slot.typeId (placed units))) := by
  unfold contents
  refine List.filterMap_congr ?_
  intro slot _
  rw [h.2 slot.typeId, Column.ofPlaced]
  cases placedOf slot.typeId (placed units) with
  | nil => rfl
  | cons p ps => rfl

/-- **A section is written for every type that has components**, if each type with components is
registered. -/
theorem mem_contents_iff (h : batch.Tallies units)
    (hregistered : ∀ p ∈ placed units, ∃ r, b.registry.types.get? p.encoded.typeId = some r)
    (c : Blob.Content) :
    c ∈ b.contents batch ↔
      ∃ t, placedOf t (placed units) ≠ [] ∧ c = .ofPlaced t (placedOf t (placed units)) := by
  rw [contents_eq h, List.mem_filterMap]
  constructor
  · rintro ⟨slot, -, hslot⟩
    split at hslot
    · cases hslot
    · next hne =>
      exact ⟨slot.typeId, fun heq => hne (by rw [heq]; rfl), (Option.some.inj hslot).symm⟩
  · rintro ⟨t, hne, rfl⟩
    obtain ⟨p, hp⟩ := List.exists_mem_of_ne_nil _ hne
    obtain ⟨hp, htype⟩ := List.mem_filter.mp hp
    obtain ⟨r, hr⟩ := hregistered p hp
    rw [eq_of_beq htype] at hr
    refine ⟨⟨r.spawnOrder, t⟩, (b.registry.mem_spawnOrder _).mpr ⟨r, hr, rfl⟩, ?_⟩
    rw [if_neg (by simpa using hne)]

/-- The sections that are written follow the spawn order. -/
theorem contents_pairwise (h : batch.Tallies units) :
    (b.contents batch).Pairwise fun c d => b.registry.Precedes c.typeId d.typeId := by
  rw [contents_eq h, List.pairwise_filterMap]
  refine b.registry.spawnOrder_precedes.imp ?_
  intro s t hst c hc d hd
  split at hc
  · cases hc
  · split at hd
    · cases hd
    · cases hc
      cases hd
      exact hst

/-- No type has two sections. -/
theorem nodup_typeIds (h : batch.Tallies units) :
    ((b.contents batch).map (·.typeId)).Nodup := by
  refine List.pairwise_map.mpr ((contents_pairwise h).imp ?_)
  intro c d hcd heq
  rw [heq] at hcd
  exact b.registry.not_precedes_self _ hcd

/-! ## 3. Jobs -/

/-- The components of a job in their places. -/
def yield (b : Baker) (requests : List Request) : List Placed := placed (b.unitsOfAll requests)

/-- The sections that are written for a job. -/
def sectionsOf (b : Baker) (requests : List Request) : List Blob.Content :=
  b.contents (b.serveAll .empty requests).batch

variable {requests : List Request}

theorem registered_of_mem_yield {p : Placed} (h : p ∈ b.yield requests) :
    ∃ r, b.registry.types.get? p.encoded.typeId = some r := by
  obtain ⟨unit, hunit, he⟩ := mem_placed h
  exact registered_of_mem hunit he

/-- Owners are numbers of units. -/
theorem owner_lt_of_mem_yield {p : Placed} (h : p ∈ b.yield requests) :
    p.owner < (b.unitsOfAll requests).length := by
  obtain ⟨⟨unit, k⟩, hunit, hp⟩ := List.mem_flatMap.mp h
  obtain ⟨e, -, rfl⟩ := List.mem_map.mp hp
  exact List.snd_lt_of_mem_zipIdx hunit

theorem mem_sectionsOf_iff (c : Blob.Content) :
    c ∈ b.sectionsOf requests ↔
      ∃ t, placedOf t (b.yield requests) ≠ [] ∧ c = .ofPlaced t (placedOf t (b.yield requests)) :=
  mem_contents_iff (tallies_serveAll b requests) (fun _ hp => registered_of_mem_yield hp) c

/-- The sections fit their sizes if the components of each type do. -/
theorem fits_of_mem_sectionsOf
    (hfit : ∀ t, 4 * (placedOf t (b.yield requests)).length +
      ((placedOf t (b.yield requests)).flatMap fun p => p.encoded.bytes).length < 2 ^ 32) :
    ∀ c ∈ b.sectionsOf requests, c.Fits := by
  intro c hc
  obtain ⟨t, -, rfl⟩ := (mem_sectionsOf_iff c).mp hc
  exact (Blob.Content.fits_ofPlaced_iff _ _).mpr (hfit t)

/-- The types of the sections are those of the components. -/
theorem mem_typeIds_iff (t : TypeId) :
    t ∈ (b.sectionsOf requests).map (·.typeId) ↔ placedOf t (b.yield requests) ≠ [] := by
  rw [List.mem_map]
  constructor
  · rintro ⟨c, hc, rfl⟩
    obtain ⟨t, hne, rfl⟩ := (mem_sectionsOf_iff c).mp hc
    exact hne
  · intro hne
    exact ⟨_, (mem_sectionsOf_iff _).mpr ⟨t, hne, rfl⟩, rfl⟩

/-- There is one section for each type that has components, and none for any other. -/
theorem count_typeIds (t : TypeId) :
    ((b.sectionsOf requests).map (·.typeId)).count t =
      if (placedOf t (b.yield requests)).isEmpty then 0 else 1 := by
  have hnodup : ((b.sectionsOf requests).map (·.typeId)).Nodup :=
    nodup_typeIds (tallies_serveAll b requests)
  rw [List.Nodup.count hnodup]
  by_cases h : placedOf t (b.yield requests) = []
  · rw [if_neg (fun hmem => (mem_typeIds_iff t).mp hmem h), h]
    rfl
  · rw [if_pos ((mem_typeIds_iff t).mpr h), if_neg (by simpa using h)]

/-- The sections have as many instances as there are components. -/
theorem sum_owners_sectionsOf :
    ((b.sectionsOf requests).map (·.owners.length)).sum = (b.yield requests).length := by
  have hnodup : ((b.sectionsOf requests).map (·.typeId)).Nodup :=
    nodup_typeIds (tallies_serveAll b requests)
  have hall : ∀ p ∈ b.yield requests,
      p.encoded.typeId ∈ (b.sectionsOf requests).map (·.typeId) := by
    intro p hp
    refine (mem_typeIds_iff _).mpr (List.ne_nil_of_mem (a := p) ?_)
    exact List.mem_filter.mpr ⟨hp, beq_self_eq_true _⟩
  rw [← sum_length_placedOf hnodup hall, List.map_map]
  refine congrArg List.sum (List.map_congr_left ?_)
  intro c hc
  obtain ⟨t, -, rfl⟩ := (mem_sectionsOf_iff c).mp hc
  exact List.length_map _

/-- If some type has no component, the number of sections is a word. -/
theorem length_sectionsOf_lt {t : TypeId} (h : placedOf t (b.yield requests) = []) :
    (b.sectionsOf requests).length < 2 ^ 32 := by
  have hlt := length_lt_of_notMem (nodup_typeIds (tallies_serveAll b requests))
    fun hmem => (mem_typeIds_iff t).mp hmem h
  rwa [List.length_map] at hlt

/-- Owners are written as they are if they are words. -/
theorem map_toNat_owners (t : TypeId) (h : (b.unitsOfAll requests).length < 2 ^ 32) :
    (Blob.Content.ofPlaced t (placedOf t (b.yield requests))).owners.map (·.toNat) =
      (placedOf t (b.yield requests)).map (·.owner) := by
  rw [Blob.Content.ofPlaced, List.map_map]
  refine List.map_congr_left ?_
  intro p hp
  exact UInt32.toNat_ofNat_of_lt' ((owner_lt_of_mem_yield (List.mem_of_mem_filter hp)).trans h)

/-! ## 4. Reading back -/

/-- **Nothing is lost between the documents of a job and its blob.**  If fewer than `2 ^ 32` units
bake and the sections fit their sizes, the blob reads back, and

* it tells the number of units that baked, and the number of its sections;
* its sections rise by spawn order and type id;
* the section of a type holds, component by component in the order of the job, the number of units
  before the component's own and the bytes its encoder returned;
* it has exactly one section for each type that has components, and none for any other, so that all
  sections together have as many instances as there are components.

The number of sections is a word and there are as many type ids as words, so the last is said unless
every single type id has a component. -/
theorem read_finalize (b : Baker) (requests : List Request)
    (hunits : (b.unitsOfAll requests).length < 2 ^ 32)
    (hfit : ∀ t, 4 * (placedOf t (b.yield requests)).length +
      ((placedOf t (b.yield requests)).flatMap fun p => p.encoded.bytes).length < 2 ^ 32) :
    ∃ blob, Blob.read (b.finalize (b.serveAll .empty requests).batch).result = .ok blob ∧
      blob.header.version = Blob.currentVersion ∧
      blob.header.units.toNat = (b.unitsOfAll requests).length ∧
      blob.header.sections.toNat = blob.sections.length ∧
      (blob.sections.Pairwise fun s s' =>
        b.registry.Precedes s.header.typeId s'.header.typeId) ∧
      (∀ s ∈ blob.sections,
        s.owners.map (·.toNat) =
          (placedOf s.header.typeId (b.yield requests)).map (·.owner) ∧
        s.payload =
          (placedOf s.header.typeId (b.yield requests)).flatMap (fun p => p.encoded.bytes) ∧
        s.header.instances.toNat = s.owners.length ∧
        s.header.size.toNat = 4 * s.owners.length + s.payload.length) ∧
      ((∃ t, placedOf t (b.yield requests) = []) →
        (∀ t, (blob.sections.map (·.header.typeId)).count t =
          if (placedOf t (b.yield requests)).isEmpty then 0 else 1) ∧
        (blob.sections.map (·.owners.length)).sum = (b.yield requests).length) := by
  have hfits : ∀ c ∈ b.sectionsOf requests, c.Fits := by
    intro c hc
    obtain ⟨t, -, rfl⟩ := (mem_sectionsOf_iff c).mp hc
    exact (Blob.Content.fits_ofPlaced_iff _ _).mpr (hfit t)
  have hread := Blob.read_write (b.serveAll .empty requests).batch.units [] hfits
  rw [List.append_nil] at hread
  refine ⟨_, hread, rfl, ?_, ?_, ?_, ?_, ?_⟩
  · -- the number of units
    rw [Blob.writtenHeader, (tallies_serveAll b requests).1]
    exact UInt32.toNat_ofNat_of_lt' hunits
  · -- the number of sections
    rw [List.length_map]
    exact (Blob.length_take_sections _ _).symm
  · exact List.pairwise_map.mpr
      ((contents_pairwise (tallies_serveAll b requests)).sublist (List.take_sublist _ _))
  · -- what a section holds
    intro s hs
    obtain ⟨c, hread, rfl⟩ := List.mem_map.mp hs
    have hc : c ∈ b.sectionsOf requests := List.mem_of_mem_take hread
    rw [Blob.Content.owners_section]
    refine ⟨?_, ?_, (hfits c hc).toNat_instances, (hfits c hc).toNat_size⟩
    · obtain ⟨t, -, rfl⟩ := (mem_sectionsOf_iff c).mp hc
      exact map_toNat_owners t hunits
    · obtain ⟨t, -, rfl⟩ := (mem_sectionsOf_iff c).mp hc
      rfl
  · -- no section is missing
    rintro ⟨free, hfree⟩
    rw [Blob.take_sections _ (length_sectionsOf_lt hfree)]
    refine ⟨?_, ?_⟩
    · intro t
      rw [List.map_map]
      exact count_typeIds t
    · rw [List.map_map, ← sum_owners_sectionsOf]
      refine congrArg List.sum (List.map_congr_left ?_)
      intro c _
      exact congrArg List.length c.owners_section

/-- Units that bake and units that fail, asked for in every way. -/
def byteJob : List Request :=
  [.tree (byteUnit [("a", 1), ("b", 2)]), .tree (byteUnit [("a", 3), ("c", 4)]), .path "base",
    .path "gone", .many [byteUnit [], byteUnit [("c", 5)], byteUnit [("a", 6)]],
    .all [byteUnit [("c", 7)], byteUnit [("b", 8), ("b", 9)]]]

/-- Four units bake, with five components. -/
theorem read_finalize_byteJob :
    ∃ blob,
      Blob.read (byteBaker.finalize (byteBaker.serveAll .empty byteJob).batch).result = .ok blob ∧
        blob.header.units.toNat = 4 ∧
        (blob.sections.map (·.owners.length)).sum = 5 := by
  have hsize : 4 * (byteBaker.yield byteJob).length +
      ((byteBaker.yield byteJob).flatMap fun p => p.encoded.bytes).length < 2 ^ 32 := by
    decide +kernel
  have hnone : placedOf ⟨0⟩ (byteBaker.yield byteJob) = [] :=
    List.isEmpty_iff.mp (by decide +kernel)
  obtain ⟨blob, hread, -, hunits, -, -, -, hsections⟩ :=
    read_finalize byteBaker byteJob (by decide +kernel)
      (fun t => (size_placedOf_le t _).trans_lt hsize)
  obtain ⟨-, hsum⟩ := hsections ⟨⟨0⟩, hnone⟩
  exact ⟨blob, hread, hunits.trans (by decide +kernel), hsum.trans (by decide +kernel)⟩

end Baker

end UnitBake
