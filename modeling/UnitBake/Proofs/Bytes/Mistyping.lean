/-
# Mistyped names

Types, geometries and resources are known by the hashes of their names, and different names can have
one hash.  A name in which a single byte is wrong is not one of those: its hash is never that of the
right name (`Fnv.one_byte_changes_hash`).

The prime of a hash is odd, so it has an inverse modulo the width, and multiplication by it can be
undone (`Fnv.step32_mul_inverse`).  A step therefore keeps apart what it is given (`Fnv.Separates`):
different bytes at one state, and different states under one byte.  The first makes the states differ
behind the wrong byte, and the second keeps them different through any number of equal bytes
(`Fnv.Separates.foldl_injective`).
-/
import Mathlib.Logic.Function.Basic
import UnitBake.Component.TypeId

namespace UnitBake.Fnv

/-! ## 1. Steps that lose nothing -/

section

variable {σ α : Type} {step : σ → α → σ}

/-- The state behind a step tells the state before it, if the input is known, and the input, if the
state before it is known. -/
structure Separates (step : σ → α → σ) : Prop where
  states : ∀ a, Function.Injective fun s => step s a
  inputs : ∀ s, Function.Injective (step s)

namespace Separates

/-- **States that differ once differ after any run of equal inputs.** -/
theorem foldl_injective (h : Separates step) : ∀ inputs : List α,
    Function.Injective fun s => inputs.foldl step s
  | [], _, _, heq => heq
  | a :: inputs, _, _, heq => h.states a (h.foldl_injective inputs heq)

/-- Runs that differ in one input at most end alike if they do not differ. -/
theorem foldl_eq_iff (h : Separates step) (start : σ) (front back : List α) {a b : α} :
    (front ++ [a] ++ back).foldl step start = (front ++ [b] ++ back).foldl step start ↔ a = b := by
  constructor
  · intro heq
    simp only [List.foldl_append, List.foldl_cons, List.foldl_nil] at heq
    exact h.inputs _ (h.foldl_injective back heq)
  · rintro rfl
    rfl

end Separates

end

/-! ## 2. The two hashes -/

/-- Multiplication by the inverse of the prime takes a step back to its exclusive or. -/
theorem step32_mul_inverse (h : UInt32) (b : UInt8) :
    step32 h b * 0x359c449b = h ^^^ b.toUInt32 := by
  have hinverse : (0x01000193 : UInt32) * 0x359c449b = 1 := by decide
  rw [step32, UInt32.mul_assoc, hinverse, UInt32.mul_one]

theorem step64_mul_inverse (h : UInt64) (b : UInt8) :
    step64 h b * 0xce965057aff6957b = h ^^^ b.toUInt64 := by
  have hinverse : (0x00000100000001b3 : UInt64) * 0xce965057aff6957b = 1 := by decide
  rw [step64, UInt64.mul_assoc, hinverse, UInt64.mul_one]

theorem separates_step32 : Separates step32 where
  states b h h' heq := by
    have hxor : h ^^^ b.toUInt32 = h' ^^^ b.toUInt32 := by
      rw [← step32_mul_inverse, ← step32_mul_inverse]
      exact congrArg (· * 0x359c449b) heq
    exact (UInt32.xor_left_inj _).mp hxor
  inputs h b c heq := by
    have hxor : h ^^^ b.toUInt32 = h ^^^ c.toUInt32 := by
      rw [← step32_mul_inverse, ← step32_mul_inverse, heq]
    exact UInt8.toUInt32_inj.mp ((UInt32.xor_right_inj _).mp hxor)

theorem separates_step64 : Separates step64 where
  states b h h' heq := by
    have hxor : h ^^^ b.toUInt64 = h' ^^^ b.toUInt64 := by
      rw [← step64_mul_inverse, ← step64_mul_inverse]
      exact congrArg (· * 0xce965057aff6957b) heq
    exact (UInt64.xor_left_inj _).mp hxor
  inputs h b c heq := by
    have hxor : h ^^^ b.toUInt64 = h ^^^ c.toUInt64 := by
      rw [← step64_mul_inverse, ← step64_mul_inverse, heq]
    exact UInt8.toUInt64_inj.mp ((UInt64.xor_right_inj _).mp hxor)

/-- **A hash tells every single byte** of what is hashed, if the other bytes are known. -/
theorem hash32_eq_iff (front back : List UInt8) {b c : UInt8} :
    hash32 (front ++ [b] ++ back) = hash32 (front ++ [c] ++ back) ↔ b = c :=
  separates_step32.foldl_eq_iff _ front back

theorem hash64_eq_iff (front back : List UInt8) {b c : UInt8} :
    hash64 (front ++ [b] ++ back) = hash64 (front ++ [c] ++ back) ↔ b = c :=
  separates_step64.foldl_eq_iff _ front back

/-! ## 3. Names -/

/-- **A one-byte difference in a name always changes its hash.**  So a name of a type, of a geometry or
of a resource in which one byte is wrong never has the id of the name that was meant. -/
theorem one_byte_changes_hash (front back : List UInt8) {b c : UInt8} (hne : b ≠ c) :
    hash32 (front ++ [b] ++ back) ≠ hash32 (front ++ [c] ++ back) ∧
      hash64 (front ++ [b] ++ back) ≠ hash64 (front ++ [c] ++ back) ∧
      ∀ name name' : String, utf8 name = front ++ [b] ++ back →
        utf8 name' = front ++ [c] ++ back →
          TypeId.ofName name ≠ TypeId.ofName name' ∧ nameHash name ≠ nameHash name' ∧
            resourceId name ≠ resourceId name' := by
  have h32 : hash32 (front ++ [b] ++ back) ≠ hash32 (front ++ [c] ++ back) :=
    fun heq => hne ((hash32_eq_iff front back).mp heq)
  have h64 : hash64 (front ++ [b] ++ back) ≠ hash64 (front ++ [c] ++ back) :=
    fun heq => hne ((hash64_eq_iff front back).mp heq)
  refine ⟨h32, h64, ?_⟩
  intro name name' hname hname'
  simp only [TypeId.ofName, nameHash, resourceId, hname, hname']
  exact ⟨fun heq => h32 (congrArg TypeId.hash heq), h32, h64⟩

/-- A type with a wrong letter, and a resource with the wrong accent, of which the first byte is that of
the right one. -/
theorem one_byte_changes_hash_accent :
    TypeId.ofName "camera" ≠ TypeId.ofName "cimera" ∧
      resourceId "café/door" ≠ resourceId "cafè/door" := by
  obtain ⟨-, -, htypes⟩ := one_byte_changes_hash [99] [109, 101, 114, 97] (b := 97) (c := 105)
    (by decide)
  obtain ⟨-, -, hresources⟩ := one_byte_changes_hash [99, 97, 102, 0xc3]
    [47, 100, 111, 111, 114] (b := 0xa9) (c := 0xa8) (by decide)
  exact ⟨(htypes "camera" "cimera" (by decide +kernel) (by decide +kernel)).1,
    (hresources "café/door" "cafè/door" (by decide +kernel) (by decide +kernel)).2.2⟩

end UnitBake.Fnv
