/-
# Slots are reused in the order in which they were given up

The queue is first in, first out, and nothing else hands a slot out again.  So an allocator can be
told from its history alone, whichever ids were given to be destroyed, made up ones too:

* what was destroyed is what was handed out again, in the same order, and then the queue
  (`InOrder.reused`);
* the slots that were handed out for the first time are numbered in order (`InOrder.fresh`);
* an id carries as its generation how often its slot was destroyed before
  (`generation_of_created`), modulo 256.

Which slots were handed out again is read off the outcomes (`handedOut`): those that were handed out
before.  That the allocator takes them from the queue, and when it does, is what is proved.
-/
import UnitBake.Proofs.Entity.Generations

namespace UnitBake.Allocator

/-! ## 1. Slots that were handed out -/

/-- The slots of the ids that were created: those handed out for the first time and those handed out
again, each in order. -/
structure HandedOut where
  fresh : List UInt32
  reused : List UInt32
deriving DecidableEq, Repr

/-- The slots handed out after one more outcome. -/
def handNext (slots : HandedOut) : Outcome → HandedOut
  | .created id =>
    if id.index ∈ slots.fresh then { slots with reused := slots.reused ++ [id.index] }
    else { slots with fresh := slots.fresh ++ [id.index] }
  | _ => slots

/-- The slots that were handed out along some outcomes. -/
def handedOut (outcomes : List Outcome) : HandedOut := outcomes.foldl handNext ⟨[], []⟩

theorem handedOut_concat (outcomes : List Outcome) (o : Outcome) :
    handedOut (outcomes ++ [o]) = handNext (handedOut outcomes) o := by
  rw [handedOut, List.foldl_append]
  rfl

theorem handNext_of_ne {slots : HandedOut} {o : Outcome} (h : ∀ id, o ≠ .created id) :
    handNext slots o = slots := by
  cases o with
  | created id => exact absurd rfl (h id)
  | destroyed id d => rfl
  | registered s => rfl
  | unregistered s => rfl
  | refused e => rfl

/-- A slot was handed out for the first time once it was handed out at all. -/
theorem mem_fresh_iff {outcomes : List Outcome} {slot : UInt32} :
    slot ∈ (handedOut outcomes).fresh ↔ ∃ id, Outcome.created id ∈ outcomes ∧ id.index = slot := by
  induction outcomes using List.reverseRecOn with
  | nil => simp [handedOut]
  | append_singleton outcomes o ih =>
    rw [handedOut_concat]
    cases o with
    | created id =>
      have hhanded : (∃ id', Outcome.created id' ∈ outcomes ++ [.created id] ∧ id'.index = slot) ↔
          slot ∈ (handedOut outcomes).fresh ∨ id.index = slot := by
        rw [ih]
        simp [or_and_right, exists_or]
      rw [hhanded, handNext]
      split
      · next hold =>
        constructor
        · exact Or.inl
        · rintro (hslot | rfl)
          · exact hslot
          · exact hold
      · simp [eq_comm]
    | destroyed id d => simp [handNext, ih]
    | registered s => simp [handNext, ih]
    | unregistered s => simp [handNext, ih]
    | refused e => simp [handNext, ih]

/-! ## 2. Histories -/

/-- What was destroyed is what was handed out again and then the queue, and slots are handed out for
the first time in the order of their numbers. -/
structure InOrder (outcomes : List Outcome) (a : Allocator) : Prop where
  reused : destroyedSlots outcomes = (handedOut outcomes).reused ++ a.free.toList
  fresh : (handedOut outcomes).fresh.map (·.toNat) = List.range a.size

namespace InOrder

variable {outcomes : List Outcome} {a a' : Allocator} {o : Outcome} {id : EntityId}

theorem empty : InOrder [] .empty := ⟨rfl, rfl⟩

/-- The slots of the allocator are those that were handed out. -/
theorem mem_fresh_iff_lt (h : InOrder outcomes a) (slot : UInt32) :
    slot ∈ (handedOut outcomes).fresh ↔ slot.toNat < a.size := by
  rw [← List.mem_range, ← h.fresh, List.mem_map]
  constructor
  · intro hslot
    exact ⟨slot, hslot, rfl⟩
  · rintro ⟨slot', hslot', heq⟩
    rwa [← UInt32.toNat_inj.mp heq]

/-- The oldest slot leaves the queue, and it was handed out before. -/
theorem recycle (h : InOrder outcomes a) (hold : id.index.toNat < a.size)
    (hqueue : a.free.toList = id.index :: a'.free.toList)
    (hgenerations : a'.generations = a.generations) :
    InOrder (outcomes ++ [.created id]) a' := by
  have hnext : handedOut (outcomes ++ [.created id]) =
      { handedOut outcomes with reused := (handedOut outcomes).reused ++ [id.index] } := by
    rw [handedOut_concat]
    exact if_pos ((h.mem_fresh_iff_lt _).mpr hold)
  constructor
  · rw [hnext, destroyedSlots_append, destroyedSlots_of_ne (by simp), h.reused, hqueue]
    simp
  · rw [hnext, size, hgenerations]
    exact h.fresh

/-- A slot is added, and its number is the next one. -/
theorem addSlot (h : InOrder outcomes a) (hnew : id.index.toNat = a.size)
    (hgenerations : a'.generations = a.generations.push 0) (hfree : a'.free = a.free) :
    InOrder (outcomes ++ [.created id]) a' := by
  have hnext : handedOut (outcomes ++ [.created id]) =
      { handedOut outcomes with fresh := (handedOut outcomes).fresh ++ [id.index] } := by
    rw [handedOut_concat]
    refine if_neg ?_
    rw [h.mem_fresh_iff_lt, hnew]
    exact Nat.lt_irrefl _
  have hsize : a'.size = a.size + 1 := by
    rw [size, hgenerations, Array.size_push]
    rfl
  constructor
  · rw [hnext, destroyedSlots_append, destroyedSlots_of_ne (by simp), List.append_nil, hfree]
    exact h.reused
  · rw [hnext, hsize, List.range_succ, List.map_append, h.fresh, List.map_singleton, hnew]

/-- A slot goes to the end of the queue. -/
theorem release (h : InOrder outcomes a) {d : Destruction}
    (hgenerations : a'.generations =
      a.generations.setIfInBounds id.index.toNat (id.generation + 1))
    (hfree : a'.free = a.free.push id.index) : InOrder (outcomes ++ [.destroyed id d]) a' := by
  constructor
  · rw [handedOut_concat, handNext_of_ne (by simp), destroyedSlots_append, h.reused, hfree,
      Queue.toList_push, List.append_assoc]
    rfl
  · rw [handedOut_concat, handNext_of_ne (by simp), size, hgenerations, Array.size_setIfInBounds]
    exact h.fresh

/-- **Every transition keeps the order.** -/
theorem step (h : InOrder outcomes a) (hbounded : Bounded a) (hstep : Transition a o a') :
    InOrder (outcomes ++ [o]) a' := by
  by_cases hcreated : ∃ id, o = .created id
  · obtain ⟨id, rfl⟩ := hcreated
    obtain ⟨-, ⟨-, hqueue, hgenerations⟩ | ⟨-, hnew, hfree, hgenerations⟩⟩ :=
      hbounded.created_cases hstep
    · exact h.recycle (hbounded.queued_lt _ (by simp [hqueue])) hqueue hgenerations
    · exact h.addSlot hnew hgenerations hfree
  · cases hstep with
    | recycled hmany hpop => exact absurd ⟨_, rfl⟩ hcreated
    | added hfew hroom => exact absurd ⟨_, rfl⟩ hcreated
    | destroyed halive hgenerations hfree => exact h.release hgenerations hfree
    | idle hcreated hdestroyed hgenerations hfree =>
      constructor
      · rw [handedOut_concat, handNext_of_ne hcreated, destroyedSlots_append,
          destroyedSlots_of_ne hdestroyed, List.append_nil, hfree]
        exact h.reused
      · rw [handedOut_concat, handNext_of_ne hcreated, size, hgenerations]
        exact h.fresh

end InOrder

/-- **Slots are reused in order along any actions.** -/
theorem inOrder_after (actions : List Action) :
    InOrder (History.after actions).outcomes (History.after actions).allocator := by
  induction actions using List.reverseRecOn with
  | nil => exact .empty
  | append_singleton actions x ih =>
    rw [History.after_concat]
    exact ih.step (bounded_after actions) (transition_act _ x)

/-- When an id is created, its generation is the number of times an id of its slot was destroyed
before. -/
theorem generation_of_created {actions : List Action} {before later : List Outcome}
    {id : EntityId} (h : (History.after actions).outcomes = before ++ .created id :: later) :
    id.generation = UInt8.ofNat ((destroyedSlots before).count id.index) := by
  obtain ⟨front, x, back, -, hbefore, ho⟩ := History.outcomes_split h
  have hstep := (History.after front).allocator.transition_act x
  rw [ho] at hstep
  rw [← hbefore, ← generationOf_after]
  exact ((bounded_after front).created_cases hstep).1

/-- If an id is created twice, its slot was destroyed a multiple of 256 times in between. -/
theorem dvd_count_of_created_twice {actions : List Action} {before between later : List Outcome}
    {id : EntityId}
    (h : (History.after actions).outcomes =
      before ++ .created id :: (between ++ .created id :: later)) :
    256 ∣ (destroyedSlots between).count id.index := by
  have hfirst := generation_of_created h
  have hsplit : (History.after actions).outcomes =
      (before ++ .created id :: between) ++ .created id :: later := by simp [h]
  have hsecond := generation_of_created hsplit
  have hcount : (destroyedSlots (before ++ .created id :: between)).count id.index =
      (destroyedSlots before).count id.index + (destroyedSlots between).count id.index := by
    rw [destroyedSlots_append, List.count_append]
    rfl
  rw [hfirst, hcount] at hsecond
  have hmod := congrArg UInt8.toNat hsecond
  simp only [UInt8.toNat_ofNat'] at hmod
  omega

/-- **A slot is handed out again exactly if many are queued.** -/
theorem reuses_iff (actions : List Action) :
    quarantine < (History.after actions).allocator.freeCount ↔
      ∃ id, (History.after actions).allocator.create.1 = .ok id ∧
        ∃ earlier, .created earlier ∈ (History.after actions).outcomes ∧
          earlier.index = id.index := by
  have hold : ∀ slot, (∃ earlier, .created earlier ∈ (History.after actions).outcomes ∧
      earlier.index = slot) ↔ slot.toNat < (History.after actions).allocator.size := by
    intro slot
    rw [← mem_fresh_iff, (inOrder_after actions).mem_fresh_iff_lt]
  have hbounded := bounded_after actions
  simp only [hold]
  constructor
  · intro hmany
    obtain ⟨index, free, -, hpop, hcreate⟩ | ⟨hfew, -⟩ | ⟨hfew, -⟩ :=
      (History.after actions).allocator.create_cases
    · have hid := congrArg Prod.fst hcreate
      refine ⟨_, hid, ?_⟩
      obtain ⟨-, ⟨-, hqueue, -⟩ | ⟨hfew, -⟩⟩ := hbounded.created_cases (transition_of_create hid)
      · exact hbounded.queued_lt _ (by simp [hqueue])
      · exact absurd hmany (Nat.not_lt_of_le hfew)
    · exact absurd hmany (Nat.not_lt_of_le hfew)
    · exact absurd hmany (Nat.not_lt_of_le hfew)
  · rintro ⟨id, hid, hlt⟩
    obtain ⟨-, ⟨hmany, -⟩ | ⟨-, hnew, -⟩⟩ := hbounded.created_cases (transition_of_create hid)
    · exact hmany
    · rw [hnew] at hlt
      exact absurd hlt (Nat.lt_irrefl _)

/-! ## 3. The allocator told by its history -/

/-- **Reuse is first destroyed, first reused.**  After any actions, whichever ids were given to be
destroyed:

* the slots that were destroyed are those that were handed out again, in the same order, and then the
  queue;
* the slots that were handed out for the first time are numbered in order, as many as there are;
* the next id gets a slot that was handed out before exactly if more than 1024 are queued;
* an id that was created has the number of times its slot was destroyed before, modulo 256, as its
  generation;
* between two creations of one id its slot was destroyed a multiple of 256 times. -/
theorem reused_in_order (actions : List Action) :
    destroyedSlots (History.after actions).outcomes =
        (handedOut (History.after actions).outcomes).reused ++
          (History.after actions).allocator.free.toList ∧
      (handedOut (History.after actions).outcomes).fresh.map (·.toNat) =
        List.range (History.after actions).allocator.size ∧
      (1024 < (History.after actions).allocator.freeCount ↔
        ∃ id, (History.after actions).allocator.create.1 = .ok id ∧
          ∃ earlier, .created earlier ∈ (History.after actions).outcomes ∧
            earlier.index = id.index) ∧
      (∀ before id later, (History.after actions).outcomes = before ++ .created id :: later →
        id.generation.toNat = (destroyedSlots before).count id.index % 256) ∧
      ∀ before id between later,
        (History.after actions).outcomes =
          before ++ .created id :: (between ++ .created id :: later) →
        256 ∣ (destroyedSlots between).count id.index := by
  have horder := inOrder_after actions
  refine ⟨horder.reused, horder.fresh, reuses_iff actions, ?_, ?_⟩
  · intro before id later hsplit
    rw [generation_of_created hsplit, UInt8.toNat_ofNat']
  · intro before id between later hsplit
    exact dvd_count_of_created_twice hsplit

/-- One id, whose slot is destroyed again and again by ids that nobody was given. -/
def worn (n : Nat) : List Action :=
  .create :: (List.range n).map fun i => .destroy (.pack 0 (UInt8.ofNat i))

/-- Each of these ids is alive, as the slot has the generation that the id tells. -/
theorem after_worn (n : Nat) :
    (History.after (worn n)).allocator.generations = #[UInt8.ofNat n] ∧
      (History.after (worn n)).allocator.freeCount = n ∧
      ∃ later, (History.after (worn n)).outcomes = .created ⟨0⟩ :: later := by
  induction n with
  | zero => exact ⟨by decide +kernel, by decide +kernel, [], by decide +kernel⟩
  | succ n ih =>
    obtain ⟨hgenerations, hfree, later, houtcomes⟩ := ih
    have hworn : worn (n + 1) = worn n ++ [.destroy (.pack 0 (UInt8.ofNat n))] := by
      simp [worn, List.range_succ]
    have hslot : (0 : UInt32).toNat < EntityId.indexCount := by decide
    have hindex := EntityId.index_pack hslot (UInt8.ofNat n)
    have hgeneration := EntityId.generation_pack hslot (UInt8.ofNat n)
    have halive : (History.after (worn n)).allocator.alive (.pack 0 (UInt8.ofNat n)) = true := by
      rw [alive, hindex, hgeneration, hgenerations]
      simp
    rw [hworn, History.after_concat, History.step, act, settle_snd, destroy_of_alive halive]
    refine ⟨?_, ?_, later ++ [_], by rw [houtcomes]; rfl⟩
    · simp only [retire]
      rw [hindex, hgeneration, hgenerations]
      simp
    · exact congrArg (· + 1) hfree

/-- After 1280 destructions, five times 256, the same id is created again. -/
theorem reused_in_order_worn :
    ∃ between, (History.after (worn 1280 ++ [.create])).outcomes =
        [] ++ .created ⟨0⟩ :: (between ++ [.created ⟨0⟩]) ∧
      (⟨0⟩ : EntityId).generation.toNat = 0 ∧ 256 ∣ (destroyedSlots between).count 0 := by
  obtain ⟨hgenerations, hfree, between, houtcomes⟩ := after_worn 1280
  obtain ⟨-, -, hreuse, -, -⟩ := reused_in_order (worn 1280)
  obtain ⟨id, hcreate, -⟩ := hreuse.mp (by rw [hfree]; decide)
  have hid : id = ⟨0⟩ := by
    have hbounded := bounded_after (worn 1280)
    obtain ⟨hgeneration, ⟨-, hqueue, -⟩ | ⟨hfew, -⟩⟩ :=
      hbounded.created_cases (transition_of_create hcreate)
    · have hlt : id.index.toNat < (History.after (worn 1280)).allocator.size :=
        hbounded.queued_lt _ (by simp [hqueue])
      rw [size, hgenerations] at hlt
      have hindex : id.index = 0 := UInt32.toNat_inj.mp (Nat.lt_one_iff.mp hlt)
      rw [hindex, generationOf, hgenerations] at hgeneration
      rw [← id.pack_index_generation, hindex, hgeneration]
      rfl
    · rw [hfree] at hfew
      exact absurd hfew (by decide)
  have hsplit : (History.after (worn 1280 ++ [.create])).outcomes =
      [] ++ .created ⟨0⟩ :: (between ++ [.created ⟨0⟩]) := by
    rw [History.after_concat, History.step, act_create hcreate, hid, houtcomes]
    rfl
  obtain ⟨-, -, -, hgeneration, htwice⟩ := reused_in_order (worn 1280 ++ [.create])
  exact ⟨between, hsplit, hgeneration [] ⟨0⟩ _ hsplit, htwice [] ⟨0⟩ between [] hsplit⟩

end UnitBake.Allocator
