/-
# Every slot is held or queued, and never both

As long as only held ids are destroyed (`Allocator.Disciplined`), the slots of the held ids and the
queued slots are together all slots that were ever handed out, each once (`Allocator.Owns`).  This is
what keeps two units from sharing a slot: the slot of a new id is taken from the queue or is new, so no
held id has it.

The invariant is preserved by each transition (`Owns.step`), and so it holds after every disciplined
list of actions (`owns_after`).  Half of it needs no discipline: the held ids are alive, and an id that is
alive is held or has a queued slot (`Covers`, `covers_after`).
-/
import Mathlib.Data.Finset.Card
import Mathlib.Data.Multiset.Range
import UnitBake.Proofs.Entity.History

namespace UnitBake.Allocator

/-! ## 1. Disciplined actions -/

/-- Every id that is destroyed is held when it is destroyed. -/
def Disciplined (actions : List Action) : Prop :=
  ∀ before id later, actions = before ++ .destroy id :: later →
    id ∈ (History.after before).held

theorem Disciplined.of_concat {actions : List Action} {x : Action}
    (h : Disciplined (actions ++ [x])) : Disciplined actions := by
  rintro before id later rfl
  exact h before id (later ++ [x]) (by simp)

theorem Disciplined.nil : Disciplined [] := by
  intro before id later h
  exact absurd h (by simp)

/-- A disciplined list may be followed by anything but the destruction of an id that is not held. -/
theorem Disciplined.concat {actions : List Action} (h : Disciplined actions) {x : Action}
    (hx : ∀ id, x = .destroy id → id ∈ (History.after actions).held) :
    Disciplined (actions ++ [x]) := by
  intro before id later hsplit
  obtain ⟨rfl, hlast, -⟩ | ⟨between, -, hbetween⟩ := split_concat hsplit
  · exact hx id hlast.symm
  · exact h before id between hbetween

/-- In a disciplined list of actions only held ids are destroyed. -/
theorem Disciplined.held_of_destroyed {actions : List Action} {x : Action}
    (h : Disciplined (actions ++ [x])) {id : EntityId} {d : Destruction}
    (ho : ((History.after actions).allocator.act x).1 = .destroyed id d) :
    id ∈ (History.after actions).held := by
  obtain rfl := eq_destroy_of_outcome ho
  exact h actions id [] rfl

/-! ## 2. Held or queued -/

/-- The ids are alive, and every id that is alive is one of them or has a queued slot. -/
structure Covers (a : Allocator) (ids : Finset EntityId) : Prop extends Bounded a where
  alive : ∀ id ∈ ids, a.alive id = true
  covered {id : EntityId} : a.alive id = true → id ∈ ids ∨ id.index ∈ a.free.toList

namespace Covers

variable {a : Allocator} {ids : Finset EntityId}

theorem index_lt_size (h : Covers a ids) {id : EntityId} (hid : id ∈ ids) :
    id.index.toNat < a.size :=
  ((a.alive_iff id).mp (h.alive id hid)).1

/-- **Two held ids have different slots.** -/
theorem index_inj (h : Covers a ids) {id id' : EntityId} (hid : id ∈ ids) (hid' : id' ∈ ids)
    (heq : id.index = id'.index) : id = id' :=
  eq_of_alive (h.alive id hid) (h.alive id' hid') heq

theorem empty : Covers Allocator.empty ∅ where
  toBounded := .empty
  alive := by simp
  covered halive := absurd ((alive_iff _ _).mp halive).1 (by simp [Allocator.empty, size])

/-- The oldest queued slot is handed out again, with the id of it that was alive already. -/
theorem recycle (h : Covers a ids) {index : UInt32} {free : Queue UInt32}
    (hbounded : Bounded { a with free := free }) (hpop : a.free.pop? = some (index, free)) :
    Covers { a with free := free } (insert (.pack index (a.generationOf index)) ids) := by
  have hqueue : a.free.toList = index :: free.toList := Queue.toList_of_pop? hpop
  have hqueued : index ∈ a.free.toList := by
    rw [hqueue]
    exact List.mem_cons_self
  have hroom := h.queued_lt_indexCount hqueued
  have halive := alive_pack hroom (h.queued_lt index hqueued)
  refine ⟨hbounded, ?_, ?_⟩
  · intro id hid
    rcases Finset.mem_insert.mp hid with rfl | hid
    · exact halive
    · exact h.alive id hid
  · intro id hid
    rcases h.covered hid with hheld | hmem
    · exact Or.inl (Finset.mem_insert_of_mem hheld)
    rw [hqueue] at hmem
    rcases List.mem_cons.mp hmem with hindex | hmem
    · -- the only id of the slot that is alive is the one handed out
      left
      rw [eq_of_alive hid halive (hindex.trans (EntityId.index_pack hroom _).symm)]
      exact Finset.mem_insert_self _ _
    · exact Or.inr hmem

/-- A slot is added. -/
theorem addSlot (h : Covers a ids)
    (hbounded : Bounded { a with generations := a.generations.push 0 })
    (hroom : a.size < EntityId.indexCount) :
    Covers { a with generations := a.generations.push 0 }
      (insert (.pack (UInt32.ofNat a.size) 0) ids) := by
  have hnat := toNat_ofNat_size hroom
  have hslot : (UInt32.ofNat a.size).toNat < EntityId.indexCount := by rwa [hnat]
  have hkept : ∀ id : EntityId, id.index.toNat < a.size →
      Allocator.alive { a with generations := a.generations.push 0 } id = a.alive id := by
    intro id hlt
    rw [Allocator.alive, Allocator.alive, Array.getElem?_push_lt hlt, Array.getElem?_eq_getElem hlt]
  have halive : Allocator.alive { a with generations := a.generations.push 0 }
      (.pack (UInt32.ofNat a.size) 0) = true := by
    rw [Allocator.alive, EntityId.index_pack hslot, hnat, EntityId.generation_pack hslot]
    simp [size]
  refine ⟨hbounded, ?_, ?_⟩
  · intro id hid
    rcases Finset.mem_insert.mp hid with rfl | hid
    · exact halive
    · rw [hkept id (h.index_lt_size hid)]
      exact h.alive id hid
  · intro id hid
    have hlt : id.index.toNat < a.size + 1 := by
      rw [← size_push a 0]
      exact ((alive_iff _ id).mp hid).1
    rcases Nat.lt_succ_iff_lt_or_eq.mp hlt with hold | hnew
    · rw [hkept id hold] at hid
      exact (h.covered hid).imp_left Finset.mem_insert_of_mem
    · left
      have hindex : id.index = (EntityId.pack (UInt32.ofNat a.size) 0).index := by
        rw [EntityId.index_pack hslot]
        exact UInt32.toNat_inj.mp (hnew.trans hnat.symm)
      rw [eq_of_alive hid halive hindex]
      exact Finset.mem_insert_self _ _

/-- The slot of an id that is alive is queued.  Whether the id is held or the next one of a slot that is
queued already makes no difference. -/
theorem release (h : Covers a ids) {a' : Allocator} (hbounded : Bounded a') {id : EntityId}
    (halive : a.alive id = true)
    (hgenerations : a'.generations =
      a.generations.setIfInBounds id.index.toNat (id.generation + 1))
    (hfree : a'.free = a.free.push id.index) : Covers a' (ids.erase id) := by
  have hkept : ∀ id' : EntityId, id'.index ≠ id.index → a'.alive id' = a.alive id' := by
    intro id' hne
    have hslot : id.index.toNat ≠ id'.index.toNat := fun heq => hne (UInt32.toNat_inj.mp heq.symm)
    rw [Allocator.alive, Allocator.alive, hgenerations, Array.getElem?_setIfInBounds_ne hslot]
  have hqueue : ∀ index, index ∈ a'.free.toList ↔ index ∈ a.free.toList ∨ index = id.index := by
    intro index
    rw [hfree, Queue.toList_push, List.mem_append, List.mem_singleton]
  refine ⟨hbounded, ?_, ?_⟩
  · intro id' hid'
    obtain ⟨hne, hmem⟩ := Finset.mem_erase.mp hid'
    rw [hkept id' fun heq => hne (eq_of_alive (h.alive id' hmem) halive heq)]
    exact h.alive id' hmem
  · intro id' halive'
    rw [hqueue]
    by_cases hslot : id'.index = id.index
    · exact Or.inr (Or.inr hslot)
    · rw [hkept id' hslot] at halive'
      rcases h.covered halive' with hheld | hqueued
      · exact Or.inl (Finset.mem_erase.mpr ⟨fun heq => hslot (heq ▸ rfl), hheld⟩)
      · exact Or.inr (Or.inl hqueued)

/-- **Every transition keeps the cover**, whatever ids are destroyed. -/
theorem step (h : Covers a ids) {o : Outcome} {a' : Allocator} (hstep : Transition a o a') :
    Covers a' (holdNext ids o) := by
  have hbounded := h.toBounded.step hstep
  cases hstep with
  | recycled hmany hpop => exact h.recycle hbounded hpop
  | added hfew hroom => exact h.addSlot hbounded hroom
  | destroyed halive hgenerations hfree => exact h.release hbounded halive hgenerations hfree
  | idle hcreated hdestroyed hgenerations hfree =>
    rw [holdNext_of_ne hcreated hdestroyed]
    refine ⟨hbounded, ?_, ?_⟩
    · intro id hid
      rw [Allocator.alive, hgenerations]
      exact h.alive id hid
    · intro id hid
      rw [Allocator.alive, hgenerations] at hid
      rw [hfree]
      exact h.covered hid

end Covers

/-- **After every list of actions an id that is alive is held or has a queued slot.** -/
theorem covers_after (actions : List Action) :
    Covers (History.after actions).allocator (History.after actions).held := by
  induction actions using List.reverseRecOn with
  | nil => exact Covers.empty
  | append_singleton actions x ih =>
    rw [History.after_concat, History.held_step]
    exact ih.step (transition_act _ x)

/-! ## 3. Never both -/

/-- The slots of some ids and the queued slots, each as often as it occurs. -/
def slots (ids : Finset EntityId) (queued : List UInt32) : Multiset Nat :=
  ids.val.map (fun id => id.index.toNat) + (queued.map (·.toNat) : List Nat)

theorem slots_insert {ids : Finset EntityId} {id : EntityId} (h : id ∉ ids)
    (queued : List UInt32) :
    slots (insert id ids) queued = id.index.toNat ::ₘ slots ids queued := by
  rw [slots, slots, Finset.insert_val_of_notMem h, Multiset.map_cons, Multiset.cons_add]

theorem slots_erase {ids : Finset EntityId} {id : EntityId} (h : id ∈ ids)
    (queued : List UInt32) :
    slots ids queued = id.index.toNat ::ₘ slots (ids.erase id) queued := by
  rw [← slots_insert (Finset.notMem_erase id ids), Finset.insert_erase h]

theorem slots_cons (ids : Finset EntityId) (index : UInt32) (queued : List UInt32) :
    slots ids (index :: queued) = index.toNat ::ₘ slots ids queued := by
  rw [slots, slots, List.map_cons, ← Multiset.cons_coe, Multiset.add_cons]

theorem slots_concat (ids : Finset EntityId) (queued : List UInt32) (index : UInt32) :
    slots ids (queued ++ [index]) = index.toNat ::ₘ slots ids queued := by
  have hperm : (queued ++ [index]).Perm (index :: queued) := List.perm_append_comm
  rw [← slots_cons, slots, slots, Multiset.coe_eq_coe.mpr (hperm.map _)]

/-- The slots of the ids and the queued ones are all slots of the allocator, each once, and the ids
are alive. -/
structure Owns (a : Allocator) (ids : Finset EntityId) : Prop extends Covers a ids where
  slots_eq : slots ids a.free.toList = Multiset.range a.size

namespace Owns

variable {a : Allocator} {ids : Finset EntityId}

theorem nodup (h : Owns a ids) : (slots ids a.free.toList).Nodup := by
  rw [h.slots_eq]
  exact Multiset.nodup_range a.size

/-- No slot is queued twice. -/
theorem queue_nodup (h : Owns a ids) : a.free.toList.Nodup := by
  have hslots : (a.free.toList.map (·.toNat)).Nodup := (Multiset.nodup_add.mp h.nodup).2.1
  exact hslots.of_map _

/-- No held id has a queued slot. -/
theorem index_ne_queued (h : Owns a ids) {id : EntityId} {index : UInt32} (hid : id ∈ ids)
    (hindex : index ∈ a.free.toList) : id.index ≠ index := by
  rintro rfl
  have hdisjoint := (Multiset.nodup_add.mp h.nodup).2.2
  exact Multiset.disjoint_left.mp hdisjoint (Multiset.mem_map_of_mem _ hid)
    (Multiset.mem_coe.mpr (List.mem_map_of_mem hindex))

/-- The slots that are not queued are those of the held ids. -/
theorem card_add_freeCount (h : Owns a ids) : ids.card + a.freeCount = a.size := by
  have hcard := congrArg Multiset.card h.slots_eq
  rw [slots, Multiset.card_add, Multiset.card_map, Multiset.coe_card, List.length_map,
    Queue.length_toList, Multiset.card_range] at hcard
  exact hcard

/-! ## 4. One transition -/

theorem empty : Owns Allocator.empty ∅ where
  toCovers := .empty
  slots_eq := rfl

/-- The oldest queued slot is no longer queued when it is handed out again. -/
theorem slots_recycle (h : Owns a ids) {index : UInt32} {free : Queue UInt32}
    (hpop : a.free.pop? = some (index, free)) :
    slots (insert (.pack index (a.generationOf index)) ids) free.toList =
      Multiset.range a.size := by
  have hqueue : a.free.toList = index :: free.toList := Queue.toList_of_pop? hpop
  have hqueued : index ∈ a.free.toList := by
    rw [hqueue]
    exact List.mem_cons_self
  have hindex := EntityId.index_pack (h.queued_lt_indexCount hqueued) (a.generationOf index)
  rw [slots_insert fun hmem => h.index_ne_queued hmem hqueued hindex, hindex, ← slots_cons, ← hqueue]
  exact h.slots_eq

/-- A slot that is added was not there before. -/
theorem slots_addSlot (h : Owns a ids) (hroom : a.size < EntityId.indexCount) :
    slots (insert (.pack (UInt32.ofNat a.size) 0) ids) a.free.toList =
      Multiset.range (a.size + 1) := by
  have hnat := toNat_ofNat_size hroom
  have hslot : (UInt32.ofNat a.size).toNat < EntityId.indexCount := by rwa [hnat]
  have hindex := EntityId.index_pack hslot 0
  have hfresh : EntityId.pack (UInt32.ofNat a.size) 0 ∉ ids := by
    intro hmem
    have hlt := h.index_lt_size hmem
    rw [hindex, hnat] at hlt
    exact Nat.lt_irrefl _ hlt
  rw [slots_insert hfresh, hindex, hnat, Multiset.range_succ, h.slots_eq]

/-- **Every transition preserves the invariant**, if an id that is destroyed is held. -/
theorem step (h : Owns a ids) {o : Outcome} {a' : Allocator} (hstep : Transition a o a')
    (hheld : ∀ id d, o = .destroyed id d → id ∈ ids) : Owns a' (holdNext ids o) where
  toCovers := h.toCovers.step hstep
  slots_eq := by
    cases hstep with
    | recycled hmany hpop => exact h.slots_recycle hpop
    | added hfew hroom =>
      rw [size_push]
      exact h.slots_addSlot hroom
    | @destroyed id d _ halive hgenerations hfree =>
      rw [size, hgenerations, Array.size_setIfInBounds, hfree, Queue.toList_push, slots_concat]
      exact (slots_erase (hheld id d rfl) _).symm.trans h.slots_eq
    | idle hcreated hdestroyed hgenerations hfree =>
      rw [holdNext_of_ne hcreated hdestroyed, size, hgenerations, hfree]
      exact h.slots_eq

/-- **A new id has a slot that no held id has.** -/
theorem fresh_of_create (h : Owns a ids) {id : EntityId} (hcreate : a.create.1 = .ok id) :
    ∀ id' ∈ ids, id'.index ≠ id.index := by
  intro id' hid'
  obtain ⟨-, ⟨-, hqueue, -⟩ | ⟨-, hnew, -⟩⟩ := h.created_cases (transition_of_create hcreate)
  · exact h.index_ne_queued hid' (by simp [hqueue])
  · intro heq
    have hlt := h.index_lt_size hid'
    rw [heq, hnew] at hlt
    exact Nat.lt_irrefl _ hlt

end Owns

/-! ## 5. Histories -/

/-- **After every disciplined list of actions the held ids own their slots.** -/
theorem owns_after {actions : List Action} (h : Disciplined actions) :
    Owns (History.after actions).allocator (History.after actions).held := by
  induction actions using List.reverseRecOn with
  | nil => exact Owns.empty
  | append_singleton actions x ih =>
    rw [History.after_concat, History.held_step]
    exact (ih h.of_concat).step (transition_act _ x) fun _ _ => h.held_of_destroyed

/-- **Slots have one owner.**  After every disciplined list of actions, the slots of the held ids and
the queued slots are all slots, each once; every held id is alive; the slots that are not queued are as
many as the held ids; and the next new id has a slot of its own, so that held ids never share one. -/
theorem held_ids_own_their_slots {actions : List Action} (h : Disciplined actions) :
    slots (History.after actions).held (History.after actions).allocator.free.toList =
        Multiset.range (History.after actions).allocator.size ∧
      (∀ id ∈ (History.after actions).held, (History.after actions).allocator.alive id = true) ∧
      (History.after actions).allocator.freeCount ≤ (History.after actions).allocator.size ∧
      (History.after actions).allocator.size - (History.after actions).allocator.freeCount =
        (History.after actions).held.card ∧
      (∀ id, (History.after actions).allocator.create.1 = .ok id →
        ∀ id' ∈ (History.after actions).held, id'.index ≠ id.index) ∧
      ∀ id ∈ (History.after actions).held, ∀ id' ∈ (History.after actions).held,
        id.index = id'.index → id = id' := by
  have howns := owns_after h
  have hcard := howns.card_add_freeCount
  refine ⟨howns.slots_eq, howns.alive, ?_, ?_, fun _ => howns.fresh_of_create, ?_⟩
  · omega
  · omega
  · intro id hid id' hid' heq
    exact howns.index_inj hid hid' heq

/-- Two ids, of which the first is destroyed, and a third. -/
def threeIds : List Action := [.create, .create, .register 7, .destroy ⟨0⟩, .create]

/-- The slot of the destroyed id is queued, the other two are held. -/
theorem held_ids_own_their_slots_threeIds :
    Disciplined threeIds ∧ (History.after threeIds).held = {⟨1⟩, ⟨2⟩} ∧
      slots (History.after threeIds).held [0] = Multiset.range 3 := by
  have hregistered : Disciplined [.create, .create, .register 7] :=
    ((Disciplined.nil.concat (by simp)).concat (by simp)).concat (by simp)
  have hdestroyed : Disciplined [.create, .create, .register 7, .destroy ⟨0⟩] := by
    refine hregistered.concat ?_
    rintro id hid
    rw [← Action.destroy.inj hid]
    decide +kernel
  have h : Disciplined threeIds := hdestroyed.concat (by simp)
  exact ⟨h, by decide +kernel, (held_ids_own_their_slots h).1⟩

end UnitBake.Allocator
