/-
# Cutting a section into instances

A section holds the owners of its instances and, in one run of bytes, what was encoded for them.
`Section.instances` pairs the owners with pieces of the payload that all have the size it is given.  Two
lists are zipped there, and zipping drops what one of them has too much: if they differed in length,
instances would be lost without a word.

They never differ in a section that was read.  Its header tells how many owners there are
(`Section.Told`), and the payload is cut only if its length is the product of the size and this number.
The product is taken without wrapping: the payload is told by a word of 32 bits, so a product that does
not fit 64 bits is not its length.  So the pairs are all there (`Section.CutsInto`), they are the only
ones that could be meant (`Section.CutsInto.eq_zip`), and every other size is refused
(`instances_exact`).
-/
import UnitBake.Proofs.Blob.Rewriting

namespace UnitBake.Blob

/-! ## 1. Pieces of one size -/

theorem length_pieces (size : Nat) : ∀ (n : Nat) (bytes : List UInt8),
    (pieces size n bytes).length = n
  | 0, _ => rfl
  | n + 1, bytes => by rw [pieces, List.length_cons, length_pieces size n]

/-- Pieces are cut from the front, one after the other. -/
theorem flatten_pieces (size : Nat) : ∀ (n : Nat) (bytes : List UInt8),
    (pieces size n bytes).flatten = bytes.take (size * n)
  | 0, _ => rfl
  | n + 1, bytes => by
    rw [pieces, List.flatten_cons, flatten_pieces size n, Nat.mul_succ, Nat.add_comm,
      List.take_add]

/-- If the bytes suffice, all pieces have the size. -/
theorem length_of_mem_pieces {size : Nat} : ∀ {n : Nat} {bytes piece : List UInt8},
    size * n ≤ bytes.length → piece ∈ pieces size n bytes → piece.length = size
  | 0, _, _, _, hpiece => absurd hpiece List.not_mem_nil
  | n + 1, bytes, piece, hlength, hpiece => by
    rw [Nat.mul_succ] at hlength
    rcases List.mem_cons.mp hpiece with rfl | hpiece
    · exact List.length_take_of_le (by omega)
    · exact length_of_mem_pieces (by rw [List.length_drop]; omega) hpiece

/-- Pieces of one size are cut where they were joined. -/
theorem pieces_flatten {size : Nat} : ∀ {records : List (List UInt8)},
    (∀ r ∈ records, r.length = size) → pieces size records.length records.flatten = records
  | [], _ => rfl
  | r :: records, h => by
    have hr : r.length = size := h r List.mem_cons_self
    have hrest := pieces_flatten fun s hs => h s (List.mem_cons_of_mem _ hs)
    rw [List.length_cons, pieces, List.flatten_cons, List.take_left' hr, List.drop_left' hr, hrest]

theorem length_flatten_of_size {size : Nat} : ∀ {records : List (List UInt8)},
    (∀ r ∈ records, r.length = size) → records.flatten.length = size * records.length
  | [], _ => rfl
  | r :: records, h => by
    have hr : r.length = size := h r List.mem_cons_self
    have hrest := length_flatten_of_size fun s hs => h s (List.mem_cons_of_mem _ hs)
    rw [List.flatten_cons, List.length_append, hr, hrest, List.length_cons, Nat.mul_succ,
      Nat.add_comm]

/-! ## 2. Instances -/

namespace Section

/-- A section cuts into pairs of an owner and the bytes of an instance.  There is one for each instance,
the owners come in their order, all instances have the size, and together they are the payload. -/
structure CutsInto (s : Section) (size : Nat) (pairs : List (UInt32 × List UInt8)) : Prop where
  count : pairs.length = s.header.instances.toNat
  owners : pairs.map Prod.fst = s.owners
  sizes : ∀ p ∈ pairs, p.2.length = size
  payload : (pairs.map Prod.snd).flatten = s.payload

/-- Items of a size fill the payload: the size is not zero, and there is an item for each instance. -/
def FilledBy (s : Section) (itemSize : UInt64) : Prop :=
  0 < itemSize ∧ itemSize.toNat * s.header.instances.toNat = s.payload.length

variable {s : Section} {size : Nat} {itemSize : UInt64} {pairs : List (UInt32 × List UInt8)}

namespace CutsInto

theorem sizes_snd (h : s.CutsInto size pairs) : ∀ r ∈ pairs.map Prod.snd, r.length = size := by
  intro r hr
  obtain ⟨p, hp, rfl⟩ := List.mem_map.mp hr
  exact h.sizes p hp

theorem length_payload (h : s.CutsInto size pairs) :
    size * s.header.instances.toNat = s.payload.length := by
  rw [← h.payload, length_flatten_of_size h.sizes_snd, List.length_map, h.count]

/-- **There is only one way to cut a section.** -/
theorem eq_zip (h : s.CutsInto size pairs) :
    pairs = s.owners.zip (pieces size s.header.instances.toNat s.payload) := by
  have hpieces := pieces_flatten h.sizes_snd
  rw [List.length_map, h.count, h.payload] at hpieces
  rw [hpieces, ← h.owners]
  exact List.zip_of_prod rfl rfl

end CutsInto

/-- A section whose header tells its parts is cut without loss, if its payload has the right length. -/
theorem Told.cutsInto (h : s.Told) (hlength : size * s.header.instances.toNat = s.payload.length) :
    s.CutsInto size (s.owners.zip (pieces size s.header.instances.toNat s.payload)) := by
  have hsame : s.owners.length = (pieces size s.header.instances.toNat s.payload).length := by
    rw [h.length_owners, length_pieces]
  refine ⟨?_, List.map_fst_zip (Nat.le_of_eq hsame), ?_, ?_⟩
  · rw [List.length_zip, ← hsame, Nat.min_self, h.length_owners]
  · intro p hp
    exact length_of_mem_pieces (Nat.le_of_eq hlength) (List.of_mem_zip hp).2
  · rw [List.map_snd_zip (Nat.le_of_eq hsame.symm), flatten_pieces, hlength, List.take_length]

/-- The pieces of such a size are as many as the instances. -/
theorem FilledBy.count (h : s.FilledBy itemSize) :
    s.payload.length / itemSize.toNat = s.header.instances.toNat := by
  rw [← h.2, Nat.mul_div_cancel_left _ (UInt64.lt_iff_toNat_lt.mp h.1)]

/-- An item size that does not fill the payload is refused, with the type and the size of the section. -/
theorem instances_of_not_filledBy (h : ¬ s.FilledBy itemSize) :
    s.instances itemSize = .error (.sectionSize s.header.typeId s.header.size) := by
  have hrefused : itemSize = 0 ∨
      0x10000000000000000 ≤ itemSize.toNat * s.header.instances.toNat ∨
      itemSize.toNat * s.header.instances.toNat ≠ s.payload.length := by
    by_cases hzero : itemSize = 0
    · exact Or.inl hzero
    · refine Or.inr (Or.inr fun hlength => h ⟨?_, hlength⟩)
      exact UInt64.pos_iff_ne_zero.mpr hzero
  rw [instances]
  simp only [if_pos hrefused]

/-- Instances are owners with pieces of the payload, and of a size that fills it. -/
theorem eq_zip_of_instances (h : s.instances itemSize = .ok pairs) :
    s.FilledBy itemSize ∧
      pairs = s.owners.zip (pieces itemSize.toNat s.header.instances.toNat s.payload) := by
  by_cases hfilled : s.FilledBy itemSize
  · rw [instances] at h
    split at h
    · cases h
    · rw [hfilled.count] at h
      exact ⟨hfilled, (Except.ok.inj h).symm⟩
  · rw [instances_of_not_filledBy hfilled] at h
    cases h

/-- If the header of the section tells its parts, every size that fills the payload is taken. -/
theorem Told.instances_of_filledBy (h : s.Told) (hfilled : s.FilledBy itemSize) :
    s.instances itemSize =
      .ok (s.owners.zip (pieces itemSize.toNat s.header.instances.toNat s.payload)) := by
  -- the payload is told by a word of 32 bits, so the product is far from wrapping
  have hsmall : s.payload.length < 2 ^ 32 := by
    have hsize := h.size
    have hword := s.header.size.toNat_lt
    omega
  have hallowed : ¬ (itemSize = 0 ∨
      0x10000000000000000 ≤ itemSize.toNat * s.header.instances.toNat ∨
      itemSize.toNat * s.header.instances.toNat ≠ s.payload.length) := by
    rw [hfilled.2]
    rintro (hzero | hlarge | hother)
    · exact UInt64.pos_iff_ne_zero.mp hfilled.1 hzero
    · omega
    · exact hother rfl
  rw [instances]
  simp only [if_neg hallowed, hfilled.count]

/-- **The instances of a section are what it cuts into.** -/
theorem Told.instances_eq_ok_iff (h : s.Told) :
    s.instances itemSize = .ok pairs ↔ 0 < itemSize ∧ s.CutsInto itemSize.toNat pairs := by
  constructor
  · intro hok
    obtain ⟨hfilled, rfl⟩ := eq_zip_of_instances hok
    exact ⟨hfilled.1, h.cutsInto hfilled.2⟩
  · rintro ⟨hpos, hcuts⟩
    rw [h.instances_of_filledBy ⟨hpos, hcuts.length_payload⟩, ← hcuts.eq_zip]

end Section

/-- **Splitting a section into instances is exact.**  A section of a blob that was read gives its
instances for an item size just if that is not zero and its product with the number of instances, taken
without wrapping, is the length of the payload.  Then each instance stands once with its owner, in order,
and no byte of the payload is missing.  Every other size is refused with the type and the size of the
section. -/
theorem instances_exact {b : List UInt8} {r : Parsed} (h : read b = .ok r) {s : Section}
    (hs : s ∈ r.sections) (itemSize : UInt64) :
    ((∃ pairs, s.instances itemSize = .ok pairs) ↔
        0 < itemSize ∧ itemSize.toNat * s.header.instances.toNat = s.payload.length) ∧
      (∀ pairs, s.instances itemSize = .ok pairs ↔
        0 < itemSize ∧ s.CutsInto itemSize.toNat pairs) ∧
      (¬ (0 < itemSize ∧ itemSize.toNat * s.header.instances.toNat = s.payload.length) →
        s.instances itemSize = .error (.sectionSize s.header.typeId s.header.size)) := by
  have htold : s.Told := (readFrom_of_read h).told s hs
  refine ⟨⟨?_, ?_⟩, fun pairs => htold.instances_eq_ok_iff, Section.instances_of_not_filledBy⟩
  · rintro ⟨pairs, hok⟩
    obtain ⟨hpos, hcuts⟩ := htold.instances_eq_ok_iff.mp hok
    exact ⟨hpos, hcuts.length_payload⟩
  · intro hfilled
    exact ⟨_, htold.instances_of_filledBy hfilled⟩

/-- Two instances without a payload, no instance at all, and two instances of three bytes each, which two
zeros follow. -/
def hollow : List UInt8 :=
  [1, 0, 0, 0, 2, 0, 0, 0, 3, 0, 0, 0,
    7, 0, 0, 0, 2, 0, 0, 0, 8, 0, 0, 0, 0, 0, 0, 0, 1, 0, 0, 0,
    8, 0, 0, 0, 0, 0, 0, 0, 0, 0, 0, 0,
    9, 0, 0, 0, 2, 0, 0, 0, 14, 0, 0, 0, 0, 0, 0, 0, 1, 0, 0, 0, 1, 2, 3, 4, 5, 6, 0, 0]

/-- Twice `2 ^ 63` would wrap to the length of the first payload, and is refused.  The second section holds
nothing, and cuts into nothing at the greatest size. -/
theorem instances_exact_hollow :
    ∃ r s₁ s₂ s₃, read hollow = .ok r ∧ r.sections = [s₁, s₂, s₃] ∧
      s₁.instances 0x8000000000000000 = .error (.sectionSize ⟨7⟩ 8) ∧
      s₂.instances 0xffffffffffffffff = .ok [] ∧
      s₃.instances 3 = .ok [(0, [1, 2, 3]), (1, [4, 5, 6])] := by
  obtain ⟨r, hr, hsections⟩ : ∃ r, read hollow = .ok r ∧ r.sections =
      [⟨⟨⟨7⟩, 2, 8⟩, [0, 0, 0, 0, 1, 0, 0, 0], []⟩, ⟨⟨⟨8⟩, 0, 0⟩, [], []⟩,
        ⟨⟨⟨9⟩, 2, 14⟩, [0, 0, 0, 0, 1, 0, 0, 0], [1, 2, 3, 4, 5, 6]⟩] :=
    ⟨_, rfl, by decide +kernel⟩
  refine ⟨r, _, _, _, hr, hsections, ?_, ?_, ?_⟩
  · exact (instances_exact hr (by simp [hsections]) _).2.2 (by decide)
  · refine ((instances_exact hr (by simp [hsections]) _).2.1 _).mpr ⟨by decide, ?_⟩
    exact ⟨rfl, rfl, by simp, rfl⟩
  · refine ((instances_exact hr (by simp [hsections]) _).2.1 _).mpr ⟨by decide, ?_⟩
    exact ⟨rfl, by decide +kernel, by decide, rfl⟩

end UnitBake.Blob
