/-
# What the liveness check protects

An id is alive if it has the generation of its slot.  The generation is raised when a unit is
destroyed, not when the slot is handed out again: while the slot waits in the queue, the id it will
have next is alive already, although nobody holds it.  This is so at every time, whatever ids were
given to be destroyed (`alive_iff_held_or_next`).  To destroy such an id passes the check and queues the
slot a second time (`queued_twice`, `alive_queued_slot`).

This is all that can go wrong.  As long as no destruction that passes the check is aimed at a queued
slot (`AvoidsQueued`), it retires a held id, whatever ids were made up, kept for too long or read
from elsewhere; no slot is queued twice, and no new id is held already.

`liveness_check_suffices_iff` has all of this: what holds of every run, and the condition that makes the
difference.
-/
import UnitBake.Proofs.Entity.Ownership

namespace UnitBake.Allocator

/-! ## 1. Ids that are alive -/

/-- **The ids that are alive**, whatever was done, are those that are held and, for each queued slot, the
id it will be handed out with. -/
theorem alive_iff_held_or_next (actions : List Action) (id : EntityId) :
    (History.after actions).allocator.alive id = true ↔
      id ∈ (History.after actions).held ∨
        ∃ index ∈ (History.after actions).allocator.free.toList,
          id = .pack index ((History.after actions).allocator.generationOf index) := by
  have hcovers := covers_after actions
  constructor
  · intro halive
    refine (hcovers.covered halive).imp_right fun hqueued => ⟨id.index, hqueued, ?_⟩
    rw [((alive_iff _ id).mp halive).2, id.pack_index_generation]
  · rintro (hid | ⟨index, hqueued, rfl⟩)
    · exact hcovers.alive id hid
    · exact alive_pack (hcovers.queued_lt_indexCount hqueued) (hcovers.queued_lt index hqueued)

/-- A destruction that passes the check adds the slot of its id at the end of the queue. -/
theorem queue_of_destroy {a : Allocator} {id : EntityId} (h : a.alive id = true) :
    (a.act (.destroy id)).2.free.toList = a.free.toList ++ [id.index] := by
  rw [act, settle_snd, destroy_of_alive h]
  exact Queue.toList_push a.free id.index

/-- **A queued slot is queued twice** by a destruction that passes the check. -/
theorem queued_twice {a : Allocator} {id : EntityId} (h : a.alive id = true)
    (hqueued : id.index ∈ a.free.toList) :
    2 ≤ (a.act (.destroy id)).2.free.toList.count id.index := by
  rw [queue_of_destroy h, List.count_append, List.count_singleton_self]
  exact Nat.succ_le_succ (List.count_pos_iff.mpr hqueued)

/-! ## 2. Actions that avoid queued slots -/

/-- No id that passes the check when it is destroyed has a queued slot. -/
def AvoidsQueued (actions : List Action) : Prop :=
  ∀ before id later, actions = before ++ .destroy id :: later →
    (History.after before).allocator.alive id = true →
      id.index ∉ (History.after before).allocator.free.toList

theorem AvoidsQueued.of_append {front back : List Action} (h : AvoidsQueued (front ++ back)) :
    AvoidsQueued front := by
  rintro before id later rfl
  exact h before id (later ++ back) (by simp)

/-- An id that passes the check is held then. -/
theorem AvoidsQueued.held {front : List Action} {id : EntityId} {rest : List Action}
    (h : AvoidsQueued (front ++ .destroy id :: rest))
    (halive : (History.after front).allocator.alive id = true) :
    id ∈ (History.after front).held :=
  ((covers_after front).covered halive).resolve_right (h front id rest rfl halive)

/-- **The held ids own their slots** as long as no queued slot is destroyed: a destruction that is
not refused retires a held id. -/
theorem owns_of_avoidsQueued {actions : List Action} (h : AvoidsQueued actions) :
    Owns (History.after actions).allocator (History.after actions).held := by
  induction actions using List.reverseRecOn with
  | nil => exact Owns.empty
  | append_singleton actions x ih =>
    have hstep := (History.after actions).allocator.transition_act x
    rw [History.after_concat, History.held_step]
    refine (ih h.of_append).step hstep ?_
    intro id d ho
    rw [ho] at hstep
    obtain rfl := eq_destroy_of_outcome ho
    exact h.held hstep.alive

/-- **What the liveness check protects, and what it does not.**

After any actions, an id is alive exactly if it was handed out and not destroyed since, or is the id that
a queued slot will be handed out with next.  To destroy an id that is alive and has a queued slot
queues the slot twice.

The check is enough exactly as long as this does not happen: then at every time no slot is queued twice,
an id that passes the check when it is destroyed is held, and no new id is held already. -/
theorem liveness_check_suffices_iff (actions : List Action) :
    (∀ id, (History.after actions).allocator.alive id = true ↔
      (∃ before later, (History.after actions).outcomes = before ++ .created id :: later ∧
        ∀ d, Outcome.destroyed id d ∉ later) ∨
      ∃ index ∈ (History.after actions).allocator.free.toList,
        id = .pack index ((History.after actions).allocator.generationOf index)) ∧
    (∀ id, (History.after actions).allocator.alive id = true →
      id.index ∈ (History.after actions).allocator.free.toList →
        2 ≤ (History.after (actions ++ [.destroy id])).allocator.free.toList.count id.index) ∧
    (AvoidsQueued actions ↔
      ∀ front back, actions = front ++ back →
        (History.after front).allocator.free.toList.Nodup ∧
        (∀ id rest, back = .destroy id :: rest →
          (History.after front).allocator.alive id = true → id ∈ (History.after front).held) ∧
        ∀ id, (History.after front).allocator.create.1 = .ok id →
          id ∉ (History.after front).held) := by
  refine ⟨?_, ?_, ?_, ?_⟩
  · intro id
    rw [alive_iff_held_or_next, History.held, mem_held_iff]
  · intro id halive hqueued
    rw [History.after_concat]
    exact queued_twice halive hqueued
  · rintro h front back rfl
    have howns := owns_of_avoidsQueued h.of_append
    refine ⟨howns.queue_nodup, ?_, ?_⟩
    · rintro id rest rfl halive
      exact h.held halive
    · intro id hcreate hid
      exact howns.fresh_of_create hcreate id hid rfl
  · intro h before id later hsplit halive hqueued
    obtain ⟨hnodup, -⟩ := h (before ++ [.destroy id]) later (by simp [hsplit])
    rw [History.after_concat] at hnodup
    exact absurd (List.nodup_iff_count_le_one.mp hnodup id.index)
      (Nat.not_le_of_lt (queued_twice halive hqueued))

/-- The next id of a queued slot is alive though nobody holds it, and destroying it queues the slot
twice. -/
theorem alive_queued_slot :
    (History.after [.create, .destroy ⟨0⟩]).allocator.alive ⟨0x1000000⟩ = true ∧
      (⟨0x1000000⟩ : EntityId) ∉ (History.after [.create, .destroy ⟨0⟩]).held ∧
      (History.after [.create, .destroy ⟨0⟩, .destroy ⟨0x1000000⟩]).allocator.free.toList =
        [0, 0] := by
  decide +kernel

end UnitBake.Allocator
