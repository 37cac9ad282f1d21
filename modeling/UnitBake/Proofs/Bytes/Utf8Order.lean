/-
# The order of texts is the order of their bytes

Keys are kept in the order of texts, which compares characters.  UTF-8 gives a larger character larger
bytes, so this is also the order of the bytes that the keys are written in (`utf8_lt_iff`).
-/
import UnitBake.Bytes.Utf8

namespace UnitBake

/-! ## 1. One character -/

/-- Byte strings are compared byte by byte. -/
theorem byte_cons_lt {m n : Nat} {xs ys : List UInt8} (hm : m < 256) (hn : n < 256)
    (h : m < n ∨ m = n ∧ xs < ys) : UInt8.ofNat m :: xs < UInt8.ofNat n :: ys := by
  rw [List.cons_lt_cons_iff, UInt8.lt_iff_toNat_lt, UInt8.toNat_ofNat_of_lt' hm,
    UInt8.toNat_ofNat_of_lt' hn]
  rcases h with h | ⟨h, h'⟩
  · exact Or.inl h
  · exact Or.inr ⟨congrArg _ h, h'⟩

theorem scalar_lt (c : Char) : c.val.toNat < 0x110000 := by
  have h : UInt32.isValidChar c.val := c.valid
  rcases h with h | ⟨-, h⟩
  · exact Nat.lt_trans h (by decide)
  · exact h

section Continuation

variable {v w : Nat} (hlt : v < w) (xs ys : List UInt8)
include hlt

/-- Numbers that differ in their lowest six bits only are ordered by the byte of these. -/
theorem lastByte_lt (h : v / 64 = w / 64) :
    UInt8.ofNat (v % 0x40 + 0x80) :: xs < UInt8.ofNat (w % 0x40 + 0x80) :: ys :=
  byte_cons_lt (by omega) (by omega) (Or.inl (by omega))

theorem lastTwoBytes_lt (h : v / 4096 = w / 4096) :
    UInt8.ofNat (v / 64 % 0x40 + 0x80) :: UInt8.ofNat (v % 0x40 + 0x80) :: xs <
      UInt8.ofNat (w / 64 % 0x40 + 0x80) :: UInt8.ofNat (w % 0x40 + 0x80) :: ys := by
  refine byte_cons_lt (by omega) (by omega) ?_
  rcases Nat.lt_or_ge (v / 64) (w / 64) with hhigh | hhigh
  · exact Or.inl (by omega)
  · exact Or.inr ⟨by omega, lastByte_lt hlt xs ys (by omega)⟩

theorem lastThreeBytes_lt (h : v / 262144 = w / 262144) :
    UInt8.ofNat (v / 4096 % 0x40 + 0x80) :: UInt8.ofNat (v / 64 % 0x40 + 0x80) ::
        UInt8.ofNat (v % 0x40 + 0x80) :: xs <
      UInt8.ofNat (w / 4096 % 0x40 + 0x80) :: UInt8.ofNat (w / 64 % 0x40 + 0x80) ::
        UInt8.ofNat (w % 0x40 + 0x80) :: ys := by
  refine byte_cons_lt (by omega) (by omega) ?_
  rcases Nat.lt_or_ge (v / 4096) (w / 4096) with hhigh | hhigh
  · exact Or.inl (by omega)
  · exact Or.inr ⟨by omega, lastTwoBytes_lt hlt xs ys (by omega)⟩

end Continuation

/-- A smaller character has smaller bytes, whatever follows. -/
theorem encodeChar_append_lt {c d : Char} (h : c < d) (xs ys : List UInt8) :
    String.utf8EncodeChar c ++ xs < String.utf8EncodeChar d ++ ys := by
  have hlt : c.val.toNat < d.val.toNat := h
  have hd : d.val.toNat < 0x110000 := scalar_lt d
  unfold String.utf8EncodeChar
  generalize c.val.toNat = v at hlt ⊢
  generalize d.val.toNat = w at hlt hd ⊢
  -- by the number of bytes of the smaller one; a character of more bytes has the larger first byte
  by_cases hv : v ≤ 0x7f
  · simp only [if_pos hv]
    split
    · exact byte_cons_lt (by omega) (by omega) (Or.inl hlt)
    · split
      · exact byte_cons_lt (by omega) (by omega) (Or.inl (by omega))
      · split <;> exact byte_cons_lt (by omega) (by omega) (Or.inl (by omega))
  have hw : ¬ w ≤ 0x7f := by omega
  simp only [if_neg hv, if_neg hw]
  by_cases hv : v ≤ 0x7ff
  · simp only [if_pos hv]
    split
    · refine byte_cons_lt (by omega) (by omega) ?_
      rcases Nat.lt_or_ge (v / 64) (w / 64) with hhigh | hhigh
      · exact Or.inl (by omega)
      · exact Or.inr ⟨by omega, lastByte_lt hlt xs ys (by omega)⟩
    · split <;> exact byte_cons_lt (by omega) (by omega) (Or.inl (by omega))
  have hw : ¬ w ≤ 0x7ff := by omega
  simp only [if_neg hv, if_neg hw]
  by_cases hv : v ≤ 0xffff
  · simp only [if_pos hv]
    split
    · refine byte_cons_lt (by omega) (by omega) ?_
      rcases Nat.lt_or_ge (v / 4096) (w / 4096) with hhigh | hhigh
      · exact Or.inl (by omega)
      · exact Or.inr ⟨by omega, lastTwoBytes_lt hlt xs ys (by omega)⟩
    · exact byte_cons_lt (by omega) (by omega) (Or.inl (by omega))
  have hw : ¬ w ≤ 0xffff := by omega
  simp only [if_neg hv, if_neg hw]
  refine byte_cons_lt (by omega) (by omega) ?_
  rcases Nat.lt_or_ge (v / 262144) (w / 262144) with hhigh | hhigh
  · exact Or.inl (by omega)
  · exact Or.inr ⟨by omega, lastThreeBytes_lt hlt xs ys (by omega)⟩

/-! ## 2. Texts -/

theorem encode_lt : ∀ {cs ds : List Char}, cs < ds →
    cs.flatMap String.utf8EncodeChar < ds.flatMap String.utf8EncodeChar
  | [], [], h => absurd h (List.lt_irrefl [])
  | [], d :: ds, _ => by
    rw [List.flatMap_nil, List.flatMap_cons]
    obtain ⟨b, bs, hd⟩ := List.exists_cons_of_ne_nil (String.utf8EncodeChar_ne_nil (c := d))
    rw [hd]
    exact List.nil_lt_cons b _
  | c :: cs, [], h => absurd h (List.not_lt_nil _)
  | c :: cs, d :: ds, h => by
    rw [List.flatMap_cons, List.flatMap_cons]
    rcases List.cons_lt_cons_iff.mp h with hcd | ⟨rfl, hrest⟩
    · exact encodeChar_append_lt hcd _ _
    · exact List.append_left_lt (encode_lt hrest)

/-- **Texts are ordered as their bytes are.** -/
theorem utf8_lt_iff {s t : String} : utf8 s < utf8 t ↔ s < t := by
  have hmono : ∀ {a b : String}, a < b → utf8 a < utf8 b := by
    intro a b hab
    rw [utf8_eq_flatMap, utf8_eq_flatMap]
    exact encode_lt (String.lt_iff.mp hab)
  constructor
  · intro h
    rcases Std.lt_trichotomy s t with hst | rfl | hts
    · exact hst
    · exact absurd h (List.lt_irrefl _)
    · exact absurd (hmono hts) (List.lt_asymm h)
  · exact hmono

end UnitBake
