/-
# How long a slot is kept back

A slot that is queued is handed out again only after `quarantine` others were queued behind it, and
each time this happens its generation goes up by one.  Both together keep the ids of destroyed units
dead for a long time, although a generation has only eight bits.

The account is kept by `Allocator.Quarantined`: from the destruction of an id on, every further
destruction of its slot is paid for by `quarantine + 1` destructions in all.  While the slot waits
in the queue, what stands behind it has been destroyed since and goes towards its next round; once
it is handed out, the round is paid in full.  Every action keeps the account (`Quarantined.step`), so
it is kept along every disciplined list of actions (`quarantined_after`).

An id is dead until its slot has been destroyed 255 times more (`count_of_alive`), which makes the
window of `stale_ids_stay_dead`.
-/
import UnitBake.Proofs.Entity.Generations
import UnitBake.Proofs.Entity.Ownership

namespace UnitBake.Allocator

/-! ## 1. The account of one slot -/

/-- The account of a slot, an id of which was destroyed, and of the slots that were destroyed
`since`, in order. -/
inductive Quarantined (a : Allocator) (slot : UInt32) (since : List UInt32) : Prop where
  /-- The slot is queued, and what stands behind it was destroyed since. -/
  | waiting (front tail : List UInt32) (hqueue : a.free.toList = front ++ slot :: tail)
      (hsuffix : tail <:+ since)
      (hcount : (quarantine + 1) * since.count slot + tail.length ≤ since.length)
  /-- The slot was handed out again. -/
  | released (hqueue : slot ∉ a.free.toList)
      (hcount : (quarantine + 1) * since.count slot + quarantine ≤ since.length)

/-- In a list without repetitions there is one thing that stands behind the head. -/
theorem tail_eq_of_nodup {slot : UInt32} {rest front tail : List UInt32}
    (hnodup : (slot :: rest).Nodup) (h : slot :: rest = front ++ slot :: tail) : rest = tail := by
  cases front with
  | nil => exact (List.cons.inj h).2
  | cons first front =>
    obtain ⟨rfl, rfl⟩ := List.cons.inj h
    exact absurd (by simp) (List.nodup_cons.mp hnodup).1

/-- How many slots are queued behind the oldest. -/
theorem freeCount_of_queue {a : Allocator} {slot : UInt32} {rest : List UInt32}
    (hqueue : a.free.toList = slot :: rest) : a.freeCount = rest.length + 1 := by
  rw [freeCount, ← Queue.length_toList, hqueue, List.length_cons]

namespace Quarantined

variable {a a' : Allocator} {slot : UInt32} {since : List UInt32}

/-- The queue is all that matters. -/
theorem congr (h : Quarantined a slot since) (hfree : a'.free = a.free) :
    Quarantined a' slot since := by
  cases h with
  | waiting front tail hqueue hsuffix hcount =>
    exact .waiting front tail (hfree ▸ hqueue) hsuffix hcount
  | released hqueue hcount => exact .released (hfree ▸ hqueue) hcount

/-- Destructions of the slot are few among all. -/
theorem count_le (h : Quarantined a slot since) :
    (quarantine + 1) * since.count slot ≤ since.length := by
  cases h with
  | waiting front tail hqueue hsuffix hcount => omega
  | released hqueue hcount => omega

/-- When the slot is the oldest in the queue, all others there were destroyed since. -/
theorem suffix_of_head (h : Quarantined a slot since) (hnodup : a.free.toList.Nodup)
    {rest : List UInt32} (hqueue : a.free.toList = slot :: rest) :
    rest <:+ since ∧ (quarantine + 1) * since.count slot + rest.length ≤ since.length := by
  rw [hqueue] at hnodup
  cases h with
  | waiting front tail hqueue' hsuffix hcount =>
    rw [hqueue] at hqueue'
    rw [tail_eq_of_nodup hnodup hqueue']
    exact ⟨hsuffix, hcount⟩
  | released hqueue' hcount => exact absurd (by simp [hqueue]) hqueue'

/-- **When the slot is handed out again**, at least `quarantine` others were destroyed since. -/
theorem card_le (h : Quarantined a slot since) (hnodup : a.free.toList.Nodup)
    {rest : List UInt32} (hmany : quarantine < a.freeCount)
    (hqueue : a.free.toList = slot :: rest) : quarantine ≤ (since.toFinset.erase slot).card := by
  have hlength := freeCount_of_queue hqueue
  obtain ⟨hsuffix, -⟩ := h.suffix_of_head hnodup hqueue
  rw [hqueue] at hnodup
  obtain ⟨hslot, hnodup'⟩ := List.nodup_cons.mp hnodup
  have hsub : rest.toFinset ⊆ since.toFinset.erase slot := by
    intro other hother
    have hmem := List.mem_toFinset.mp hother
    refine Finset.mem_erase.mpr ⟨?_, List.mem_toFinset.mpr (hsuffix.subset hmem)⟩
    rintro rfl
    exact hslot hmem
  calc
    quarantine ≤ rest.length := by omega
    _ = rest.toFinset.card := (List.toFinset_card_of_nodup hnodup').symm
    _ ≤ (since.toFinset.erase slot).card := Finset.card_le_card hsub

/-! ## 2. One action -/

/-- The oldest slot leaves the queue. -/
theorem recycle (h : Quarantined a slot since) (hnodup : a.free.toList.Nodup) {index : UInt32}
    {free : Queue UInt32} (hmany : quarantine < a.freeCount)
    (hpop : a.free.pop? = some (index, free)) : Quarantined { a with free := free } slot since := by
  have hqueue : a.free.toList = index :: free.toList := Queue.toList_of_pop? hpop
  have hlength := freeCount_of_queue hqueue
  by_cases heq : slot = index
  · subst heq
    obtain ⟨-, hcount⟩ := h.suffix_of_head hnodup hqueue
    rw [hqueue] at hnodup
    exact .released (List.nodup_cons.mp hnodup).1 (by omega)
  · cases h with
    | waiting front tail hqueue' hsuffix hcount =>
      rw [hqueue] at hqueue'
      cases front with
      | nil => exact absurd (List.cons.inj hqueue').1.symm heq
      | cons first front => exact .waiting front tail (List.cons.inj hqueue').2 hsuffix hcount
    | released hqueue' hcount =>
      rw [hqueue] at hqueue'
      exact .released (fun hmem => hqueue' (List.mem_cons_of_mem _ hmem)) hcount

/-- A slot that was not queued goes to the end of the queue. -/
theorem enqueue (h : Quarantined a slot since) {index : UInt32} (hindex : index ∉ a.free.toList)
    (hfree : a'.free = a.free.push index) : Quarantined a' slot (since ++ [index]) := by
  have hqueue : a'.free.toList = a.free.toList ++ [index] := by rw [hfree, Queue.toList_push]
  have hlength : (since ++ [index]).length = since.length + 1 := List.length_append
  by_cases heq : index = slot
  · -- the slot itself is queued again, and the round that ends here has been paid for
    subst heq
    have hcounted : (since ++ [index]).count index = since.count index + 1 := by
      rw [List.count_append, List.count_singleton_self]
    cases h with
    | waiting front tail hqueue' hsuffix hcount => exact absurd (by simp [hqueue']) hindex
    | released hqueue' hcount =>
      refine .waiting a.free.toList [] hqueue List.nil_suffix ?_
      rw [hcounted, hlength, List.length_nil, Nat.mul_add]
      omega
  · have hcounted : (since ++ [index]).count slot = since.count slot := by
      rw [List.count_append, List.count_singleton, if_neg (by simpa using heq), Nat.add_zero]
    cases h with
    | waiting front tail hqueue' hsuffix hcount =>
      obtain ⟨passed, rfl⟩ := hsuffix
      refine .waiting front (tail ++ [index]) (by simp [hqueue, hqueue'])
        ⟨passed, by simp⟩ ?_
      rw [hcounted, hlength, List.length_append, List.length_singleton]
      omega
    | released hqueue' hcount =>
      refine .released (by simp [hqueue, hqueue', Ne.symm heq]) ?_
      rw [hcounted, hlength]
      omega

/-- The account is opened when an id of the slot is destroyed. -/
theorem opened {id : EntityId} {d : Destruction} (h : Transition a (.destroyed id d) a') :
    Quarantined a' id.index [] := by
  cases h with
  | destroyed halive hgenerations hfree =>
    refine .waiting a.free.toList [] ?_ List.nil_suffix (by simp)
    rw [hfree, Queue.toList_push]
  | idle hcreated hdestroyed hgenerations hfree => exact absurd rfl (hdestroyed id d)

/-- **Every action keeps the account**, if an id that is destroyed is held. -/
theorem step {ids : Finset EntityId} {o : Outcome} (h : Quarantined a slot since)
    (howns : Owns a ids) (hstep : Transition a o a')
    (hheld : ∀ id d, o = .destroyed id d → id ∈ ids) :
    Quarantined a' slot (since ++ destroyedSlots [o]) := by
  cases hstep with
  | recycled hmany hpop =>
    rw [destroyedSlots_of_ne (by simp), List.append_nil]
    exact h.recycle howns.queue_nodup hmany hpop
  | added hfew hroom =>
    rw [destroyedSlots_of_ne (by simp), List.append_nil]
    exact h.congr rfl
  | @destroyed id d _ halive hgenerations hfree =>
    have hid : id ∈ ids := hheld id d rfl
    exact h.enqueue (fun hmem => howns.index_ne_queued hid hmem rfl) hfree
  | idle hcreated hdestroyed hgenerations hfree =>
    rw [destroyedSlots_of_ne hdestroyed, List.append_nil]
    exact h.congr hfree

end Quarantined

/-! ## 3. Histories -/

section

variable {actions : List Action} {before later : List Outcome} {id : EntityId} {d : Destruction}

/-- **The account of a slot is kept** from the destruction of an id of it on. -/
theorem quarantined_after (h : Disciplined actions)
    (hsplit : (History.after actions).outcomes = before ++ .destroyed id d :: later) :
    Quarantined (History.after actions).allocator id.index (destroyedSlots later) := by
  induction actions using List.reverseRecOn generalizing later with
  | nil => exact absurd hsplit (by simp [History.after, History.start])
  | append_singleton actions x ih =>
    have hstep := (History.after actions).allocator.transition_act x
    rw [History.after_concat, History.step] at hsplit ⊢
    obtain ⟨-, ho, rfl⟩ | ⟨between, rfl, hbetween⟩ := split_concat hsplit
    · rw [← ho] at hstep
      exact Quarantined.opened hstep
    · rw [destroyedSlots_append]
      exact (ih h.of_concat hbetween).step (owns_after h.of_concat) hstep
        fun _ _ => h.held_of_destroyed

/-- An id that was destroyed is dead until its slot has been destroyed 255 times more. -/
theorem count_of_alive
    (hsplit : (History.after actions).outcomes = before ++ .destroyed id d :: later)
    (halive : (History.after actions).allocator.alive id = true) :
    255 ≤ (destroyedSlots later).count id.index := by
  have hgeneration := ((alive_iff _ _).mp halive).2
  rw [generationOf_after, generation_of_destroyed hsplit, hsplit, destroyedSlots_append,
    destroyedSlots_destroyed, List.count_append, List.count_cons_self] at hgeneration
  have hmod := congrArg UInt8.toNat hgeneration
  simp only [UInt8.toNat_ofNat'] at hmod
  omega

/-- **Stale ids stay dead.**  Let only held ids be destroyed.  When the slot of a destroyed id is
handed out again, at least 1024 other slots were destroyed since; and the id is dead in every state
with fewer than `255 * 1025` further destructions. -/
theorem stale_ids_stay_dead (h : Disciplined actions)
    (hsplit : (History.after actions).outcomes = before ++ .destroyed id d :: later) :
    (∀ id', (History.after actions).allocator.create.1 = .ok id' → id'.index = id.index →
      1024 ≤ ((destroyedSlots later).toFinset.erase id.index).card) ∧
    ((destroyedSlots later).length < 255 * 1025 →
      (History.after actions).allocator.alive id = false) := by
  have hquarantined := quarantined_after h hsplit
  have howns := owns_after h
  refine ⟨?_, ?_⟩
  · intro id' hcreate hslot
    obtain ⟨-, ⟨hmany, hqueue, -⟩ | ⟨-, hnew, -⟩⟩ :=
      howns.created_cases (transition_of_create hcreate)
    · rw [hslot] at hqueue
      exact hquarantined.card_le howns.queue_nodup hmany hqueue
    · have hlt : id.index.toNat < (History.after actions).allocator.size :=
        lt_size_of_mem_destroyedSlots (by simp [hsplit])
      rw [← hslot, hnew] at hlt
      exact absurd hlt (Nat.lt_irrefl _)
  · intro hfew
    refine Bool.eq_false_iff.mpr fun halive => ?_
    have hcount := count_of_alive hsplit halive
    have hle := hquarantined.count_le
    unfold quarantine at hle
    omega

end

/-- Two ids that are destroyed one after the other, and a third. -/
def twoStale : List Action := [.create, .create, .destroy ⟨0⟩, .destroy ⟨1⟩, .create]

/-- The first id is dead, and after fewer than 1024 destructions the fourth has not got its slot. -/
theorem stale_ids_stay_dead_twoStale :
    Disciplined twoStale ∧
      (History.after twoStale).outcomes =
        [.created ⟨0⟩, .created ⟨1⟩] ++ .destroyed ⟨0⟩ ⟨[], .unitDestroyed ⟨0⟩ 1⟩ ::
          [.destroyed ⟨1⟩ ⟨[], .unitDestroyed ⟨1⟩ 2⟩, .created ⟨2⟩] ∧
      (History.after twoStale).allocator.alive ⟨0⟩ = false ∧
      ∀ id, (History.after twoStale).allocator.create.1 = .ok id → id.index ≠ 0 := by
  have hcreated : Disciplined [.create, .create] :=
    (Disciplined.nil.concat (by simp)).concat (by simp)
  have hfirst : Disciplined [.create, .create, .destroy ⟨0⟩] := by
    refine hcreated.concat ?_
    rintro id hid
    rw [← Action.destroy.inj hid]
    decide +kernel
  have hsecond : Disciplined [.create, .create, .destroy ⟨0⟩, .destroy ⟨1⟩] := by
    refine hfirst.concat ?_
    rintro id hid
    rw [← Action.destroy.inj hid]
    decide +kernel
  have h : Disciplined twoStale := hsecond.concat (by simp)
  have hsplit : (History.after twoStale).outcomes =
      [.created ⟨0⟩, .created ⟨1⟩] ++ .destroyed ⟨0⟩ ⟨[], .unitDestroyed ⟨0⟩ 1⟩ ::
        [.destroyed ⟨1⟩ ⟨[], .unitDestroyed ⟨1⟩ 2⟩, .created ⟨2⟩] := by
    decide +kernel
  obtain ⟨hreuse, hdead⟩ := stale_ids_stay_dead h hsplit
  refine ⟨h, hsplit, hdead (by decide +kernel), ?_⟩
  intro id hcreate hindex
  exact absurd (hreuse id hcreate hindex) (by decide +kernel)

end UnitBake.Allocator
