/-
# The generation of a slot counts its destructions

Of all transitions only a destruction touches a generation, and raises it by one
(`Transition.generationOf_eq`); a slot that is added starts at zero.  So the generation of a slot is
the number of times an id of it was destroyed, modulo 256 (`generationOf_after`), no matter which ids
were given to be destroyed.
-/
import UnitBake.Proofs.Entity.History

namespace UnitBake.Allocator

/-! ## 1. The slots that were destroyed -/

/-- The slot of the id that was destroyed, if one was. -/
def Outcome.destroyedSlot? : Outcome → Option UInt32
  | .destroyed id _ => some id.index
  | _ => none

/-- The slots of the ids that were destroyed, in order. -/
def destroyedSlots (outcomes : List Outcome) : List UInt32 :=
  outcomes.filterMap Outcome.destroyedSlot?

@[simp] theorem destroyedSlots_nil : destroyedSlots [] = [] := rfl

@[simp] theorem destroyedSlots_append (before later : List Outcome) :
    destroyedSlots (before ++ later) = destroyedSlots before ++ destroyedSlots later :=
  List.filterMap_append

@[simp] theorem destroyedSlots_destroyed (id : EntityId) (d : Destruction)
    (later : List Outcome) :
    destroyedSlots (.destroyed id d :: later) = id.index :: destroyedSlots later := rfl

theorem destroyedSlots_of_ne {o : Outcome} (h : ∀ id d, o ≠ .destroyed id d) :
    destroyedSlots [o] = [] := by
  cases o with
  | destroyed id d => exact absurd rfl (h id d)
  | created id => rfl
  | registered s => rfl
  | unregistered s => rfl
  | refused e => rfl

/-! ## 2. One action -/

namespace Transition

variable {a a' : Allocator} {o : Outcome}

/-- The generation of a slot rises when an id of the slot is destroyed, and only then. -/
theorem generationOf_eq (h : Transition a o a') (slot : UInt32) :
    a'.generationOf slot =
      a.generationOf slot + UInt8.ofNat ((destroyedSlots [o]).count slot) := by
  cases h with
  | recycled hmany hpop => simp [destroyedSlots_of_ne, generationOf]
  | added hfew hroom =>
    -- a slot that is not there yet counts as one of generation zero
    rw [destroyedSlots_of_ne (by simp)]
    simp only [generationOf, Array.getD_eq_getD_getElem?, Array.getElem?_push]
    split
    · next heq => simp [heq]
    · simp
  | @destroyed id d _ halive hgenerations hfree =>
    obtain ⟨hlt, hgeneration⟩ := (a.alive_iff id).mp halive
    rw [destroyedSlots_destroyed, destroyedSlots_nil]
    by_cases heq : id.index = slot
    · subst heq
      have hlt' : id.index.toNat < a.generations.size := hlt
      rw [hgeneration]
      simp [generationOf, hgenerations, Array.getD_eq_getD_getElem?, hlt']
    · have hne : id.index.toNat ≠ slot.toNat := fun h => heq (UInt32.toNat_inj.mp h)
      rw [List.count_singleton, if_neg (by simpa using heq)]
      simp [generationOf, hgenerations, Array.getD_eq_getD_getElem?,
        Array.getElem?_setIfInBounds_ne hne]
  | idle hcreated hdestroyed hgenerations hfree =>
    simp [destroyedSlots_of_ne hdestroyed, generationOf, hgenerations]

/-- Slots are never taken away. -/
theorem size_le (h : Transition a o a') : a.size ≤ a'.size := by
  cases h with
  | recycled hmany hpop => exact Nat.le_refl _
  | added hfew hroom => simp [size]
  | destroyed halive hgenerations hfree => simp [size, hgenerations]
  | idle hcreated hdestroyed hgenerations hfree => simp [size, hgenerations]

/-- Only slots of the allocator are destroyed. -/
theorem lt_size (h : Transition a o a') {slot : UInt32} (hslot : slot ∈ destroyedSlots [o]) :
    slot.toNat < a.size := by
  cases h with
  | recycled hmany hpop => simp [destroyedSlots_of_ne] at hslot
  | added hfew hroom => simp [destroyedSlots_of_ne] at hslot
  | @destroyed id d _ halive hgenerations hfree =>
    obtain rfl : slot = id.index := by simpa using hslot
    exact ((a.alive_iff id).mp halive).1
  | idle hcreated hdestroyed hgenerations hfree =>
    simp [destroyedSlots_of_ne hdestroyed] at hslot

end Transition

/-! ## 3. Histories -/

/-- **The generation of a slot is the number of times an id of it was destroyed**, modulo 256. -/
theorem generationOf_after (actions : List Action) (slot : UInt32) :
    (History.after actions).allocator.generationOf slot =
      UInt8.ofNat ((destroyedSlots (History.after actions).outcomes).count slot) := by
  induction actions using List.reverseRecOn with
  | nil => simp [History.after, History.start, generationOf, empty]
  | append_singleton actions x ih =>
    have hstep := ((History.after actions).allocator.transition_act x).generationOf_eq slot
    rw [History.after_concat, History.step, hstep, ih, destroyedSlots_append, List.count_append,
      UInt8.ofNat_add]

theorem lt_size_of_mem_destroyedSlots {actions : List Action} {slot : UInt32}
    (h : slot ∈ destroyedSlots (History.after actions).outcomes) :
    slot.toNat < (History.after actions).allocator.size := by
  induction actions using List.reverseRecOn with
  | nil => exact absurd h (by simp [History.after, History.start])
  | append_singleton actions x ih =>
    have hstep := (History.after actions).allocator.transition_act x
    rw [History.after_concat, History.step] at h ⊢
    rw [destroyedSlots_append, List.mem_append] at h
    refine Nat.lt_of_lt_of_le ?_ hstep.size_le
    rcases h with h | h
    · exact ih h
    · exact hstep.lt_size h

/-- When an id is destroyed, its generation is the number of times an id of its slot was destroyed
before. -/
theorem generation_of_destroyed {actions : List Action} {before later : List Outcome}
    {id : EntityId} {d : Destruction}
    (h : (History.after actions).outcomes = before ++ .destroyed id d :: later) :
    id.generation = UInt8.ofNat ((destroyedSlots before).count id.index) := by
  obtain ⟨front, x, back, -, hbefore, ho⟩ := History.outcomes_split h
  have hstep := (History.after front).allocator.transition_act x
  rw [ho] at hstep
  rw [← hbefore, ← generationOf_after]
  exact ((alive_iff _ _).mp hstep.alive).2.symm

end UnitBake.Allocator
