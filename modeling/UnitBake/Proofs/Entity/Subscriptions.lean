/-
# What becomes of the subscriptions of an allocator

Everything an action can do is said once (`effect_act`): what is refused and why, and what is left when
it is not.  To the subscriptions it does one of four things (`Change`): somebody joins at the end,
somebody leaves, all are told of a unit, or nothing changes.

Somebody who leaves takes only the own subscription along.  If it was not the last one, the last one
moves into the gap, and all others stay in their order (`closeGap`, `Effect.eq_unregister`).

The calls for a unit are made after its slot was given up: to every subscriber that is called the id is
dead already, and the slot stands at the end of the queue (`retired_of_mem_calls`).
-/
import Mathlib.Data.List.Basic
import UnitBake.Proofs.Entity.History

namespace UnitBake

/-! ## 1. Leaving -/

namespace Subscriptions

/-- What stands behind a gap after the last element moved into it. -/
def closeGap {α : Type} (back : List α) : List α := back.getLast?.toList ++ back.dropLast

@[simp] theorem closeGap_nil {α : Type} : closeGap ([] : List α) = [] := rfl

@[simp] theorem closeGap_concat {α : Type} (mid : List α) (last : α) :
    closeGap (mid ++ [last]) = last :: mid := by
  simp [closeGap]

/-- Nothing is lost by closing a gap. -/
theorem closeGap_perm {α : Type} (back : List α) : (closeGap back).Perm back := by
  rcases List.eq_nil_or_concat back with rfl | ⟨mid, last, rfl⟩
  · exact List.Perm.refl _
  · rw [List.concat_eq_append, closeGap_concat]
    exact (List.perm_append_singleton last mid).symm

/-- Removing an element leaves those in front of it and closes the gap. -/
theorem removeAt_append {α : Type} (front back : List α) (x : α) :
    removeAt front.length (front ++ x :: back) = front ++ closeGap back := by
  unfold removeAt
  rcases List.eq_nil_or_concat back with rfl | ⟨mid, last, rfl⟩
  · simp
  · have hlast : (front ++ x :: (mid ++ [last])).getLast? = some last := by
      rw [← List.cons_append, ← List.append_assoc]
      exact List.getLast?_concat
    rw [List.concat_eq_append, hlast, closeGap_concat]
    simp only
    rw [List.set_append_right _ _ (Nat.le_refl _), Nat.sub_self, List.set_cons_zero,
      ← List.cons_append, ← List.append_assoc, List.dropLast_concat]

theorem contains_iff (s : Subscriptions) (x : UInt64) : s.contains x = true ↔ x ∈ s.subscribers := by
  simp [contains, subscribers]

theorem not_contains_iff (s : Subscriptions) (x : UInt64) :
    s.contains x = false ↔ x ∉ s.subscribers := by
  rw [← contains_iff, Bool.not_eq_true]

theorem subscribers_of_list {s : Subscriptions} {front back : List Subscription} {y : Subscription}
    (h : s.list = front ++ y :: back) :
    s.subscribers = front.map (·.subscriber) ++ y.subscriber :: back.map (·.subscriber) := by
  rw [subscribers, h, List.map_append, List.map_cons]

theorem contains_of_list {s : Subscriptions} {front back : List Subscription} {y : Subscription}
    (h : s.list = front ++ y :: back) : s.contains y.subscriber = true := by
  rw [contains_iff, subscribers_of_list h]
  exact List.mem_append_right _ List.mem_cons_self

/-- Somebody joins at the end, and only who has no subscription. -/
theorem register_cases (s : Subscriptions) (x : UInt64) :
    (x ∉ s.subscribers ∧ s.register x = .ok ⟨s.list ++ [⟨x, 0⟩]⟩) ∨
      (x ∈ s.subscribers ∧ s.register x = .error (.registeredTwice x)) := by
  unfold register
  cases h : s.contains x with
  | true => exact Or.inr ⟨(s.contains_iff x).mp h, rfl⟩
  | false => exact Or.inl ⟨(s.not_contains_iff x).mp h, rfl⟩

/-- **Who leaves takes the own subscription along and nothing else.** -/
theorem unregister_cases (s : Subscriptions) (x : UInt64) :
    (∃ front y back, s.list = front ++ y :: back ∧ y.subscriber = x ∧
        s.unregister x = .ok ⟨front ++ closeGap back⟩) ∨
      (x ∉ s.subscribers ∧ s.unregister x = .error (.unknown x)) := by
  unfold unregister
  cases h : s.list.findIdx? (·.subscriber == x) with
  | none =>
    right
    refine ⟨?_, rfl⟩
    intro hx
    obtain ⟨y, hy, rfl⟩ := List.mem_map.mp hx
    have hne := List.findIdx?_eq_none_iff.mp h y hy
    simp at hne
  | some place =>
    left
    obtain ⟨hplace, hx, -⟩ := List.findIdx?_eq_some_iff_getElem.mp h
    have hlist : s.list = s.list.take place ++ s.list[place] :: s.list.drop (place + 1) := by
      rw [← List.drop_eq_getElem_cons hplace, List.take_append_drop]
    have hlength : (s.list.take place).length = place := List.length_take_of_le (Nat.le_of_lt hplace)
    have hremove := removeAt_append (s.list.take place) (s.list.drop (place + 1)) s.list[place]
    rw [← hlist, hlength] at hremove
    exact ⟨_, _, _, hlist, eq_of_beq hx, congrArg (fun l => Except.ok (Subscriptions.mk l)) hremove⟩

/-- Telling keeps everybody in place. -/
theorem subscribers_tell (s : Subscriptions) (id : EntityId) :
    (s.tell id).2.subscribers = s.subscribers := by
  simp [subscribers, tell, Subscription.tell]

/-- Everybody is told once, in order. -/
theorem subscriber_of_tell (s : Subscriptions) (id : EntityId) :
    (s.tell id).1.map (·.subscriber) = s.subscribers := by
  simp [subscribers, tell, Subscription.tell]

/-- Everybody is told of the same unit. -/
theorem id_of_mem_tell {s : Subscriptions} {id : EntityId} {notice : Notice}
    (h : notice ∈ (s.tell id).1) : notice.id = id := by
  rw [tell, List.map_map] at h
  obtain ⟨x, -, rfl⟩ := List.mem_map.mp h
  rfl

end Subscriptions

namespace Allocator

/-! ## 2. Calls for a unit -/

/-- While subscribers are called nothing but the subscriptions changes. -/
theorem slots_of_mem_callFrom {a : Allocator} {id : EntityId} {call : Call} :
    ∀ {told rest : List Subscription}, call ∈ (a.callFrom id told rest).1 →
      call.allocator.generations = a.generations ∧ call.allocator.free = a.free
  | _, [], h => absurd h List.not_mem_nil
  | told, x :: rest, h => by
    rw [callFrom] at h
    rcases List.mem_cons.mp h with rfl | h
    · exact ⟨rfl, rfl⟩
    · exact slots_of_mem_callFrom h

/-- An id whose slot was given up is dead. -/
theorem alive_retire {a : Allocator} {id : EntityId} (h : a.alive id = true) :
    (a.retire id).alive id = false ∧
      (a.retire id).generationOf id.index = id.generation + 1 := by
  have hslot : a.generations[id.index.toNat]? = some id.generation := by
    simpa [alive] using h
  have hlt : id.index.toNat < a.generations.size := (Array.getElem?_eq_some_iff.mp hslot).1
  have hraised : (a.retire id).generations[id.index.toNat]? = some (id.generation + 1) := by
    rw [retire, Array.getElem?_setIfInBounds_self_of_lt hlt]
  refine ⟨?_, ?_⟩
  · rw [alive, hraised]
    simp
  · rw [generationOf, Array.getD_eq_getD_getElem?, hraised]
    rfl

/-- **Every call is made after the slot of the unit was given up**: its generation is raised, so that the
id is dead, and it stands at the end of the queue. -/
theorem retired_of_mem_calls {a a' : Allocator} {id : EntityId} {calls : List Call} {event : Event}
    (h : a.destroyCalling id = (.ok (calls, event), a')) {call : Call} (hcall : call ∈ calls) :
    call.allocator.alive id = false ∧
      call.allocator.generationOf id.index = id.generation + 1 ∧
      call.allocator.free.toList = a.free.toList ++ [id.index] := by
  unfold destroyCalling at h
  split at h
  · next halive =>
    obtain ⟨hresult, -⟩ := Prod.mk.inj h
    obtain ⟨rfl, -⟩ := Prod.mk.inj (Except.ok.inj hresult)
    obtain ⟨hgenerations, hfree⟩ := slots_of_mem_callFrom hcall
    obtain ⟨hdead, hraised⟩ := alive_retire halive
    refine ⟨?_, ?_, ?_⟩
    · rw [← hdead, alive, alive, hgenerations]
    · rw [← hraised, generationOf, generationOf, hgenerations]
    · rw [hfree, retire, Queue.toList_push]
  · obtain ⟨hresult, -⟩ := Prod.mk.inj h
    cases hresult

/-- A unit whose id is alive is destroyed, whatever the calls. -/
theorem exists_destroyCalling {a : Allocator} {id : EntityId} (h : a.alive id = true) :
    ∃ calls event a', a.destroyCalling id = (.ok (calls, event), a') := by
  rw [destroyCalling, if_pos h]
  exact ⟨_, _, _, rfl⟩

/-- The calls go to all subscribers in order, and what they are told is what telling them says. -/
theorem notices_of_calls {a a' : Allocator} {id : EntityId} {calls : List Call} {event : Event}
    (h : a.destroyCalling id = (.ok (calls, event), a')) :
    calls.map (·.notice) = (a.subscriptions.tell id).1 := by
  unfold destroyCalling at h
  split at h
  · obtain ⟨hresult, -⟩ := Prod.mk.inj h
    obtain ⟨rfl, -⟩ := Prod.mk.inj (Except.ok.inj hresult)
    rw [map_notice_callFrom, Subscriptions.tell, List.map_map]
    rfl
  · obtain ⟨hresult, -⟩ := Prod.mk.inj h
    cases hresult

/-- The calls are those whose notices destroying the unit returns. -/
theorem act_destroy_of_calls {a a' : Allocator} {id : EntityId} {calls : List Call} {event : Event}
    (h : a.destroyCalling id = (.ok (calls, event), a')) :
    a.act (.destroy id) = (.destroyed id ⟨calls.map (·.notice), event⟩, a') := by
  rw [act, destroy, h]
  rfl

/-! ## 3. What an action does -/

/-- Why an action is refused: there is no index left, the id is dead, the subscriber has a subscription
already, or it has none. -/
def Refuses (a : Allocator) : Action → Prop
  | .create => a.freeCount ≤ quarantine ∧ EntityId.indexCount ≤ a.size
  | .destroy id => a.alive id = false
  | .register s => a.subscriptions.contains s = true
  | .unregister s => a.subscriptions.contains s = false

/-- What comes of an action, and the allocator after it. -/
inductive Effect (a : Allocator) : Action → Outcome → Allocator → Prop
  /-- An id is handed out. -/
  | created {id : EntityId} {a' : Allocator} (haccepted : ¬ a.Refuses .create)
      (hsubscriptions : a'.subscriptions = a.subscriptions) : Effect a .create (.created id) a'
  /-- A unit is destroyed, and all subscribers are told. -/
  | destroyed {id : EntityId} (halive : a.alive id = true) :
      Effect a (.destroy id)
        (.destroyed id ⟨(a.subscriptions.tell id).1, .unitDestroyed id (a.free.size + 1)⟩)
        { a.retire id with subscriptions := (a.subscriptions.tell id).2 }
  /-- Somebody who has no subscription gets the last place. -/
  | registered {s : UInt64} (hnew : s ∉ a.subscriptions.subscribers) :
      Effect a (.register s) (.registered s)
        { a with subscriptions := ⟨a.subscriptions.list ++ [⟨s, 0⟩]⟩ }
  /-- Somebody leaves, and the gap is closed. -/
  | unregistered {front back : List Subscription} {y : Subscription}
      (hlist : a.subscriptions.list = front ++ y :: back) :
      Effect a (.unregister y.subscriber) (.unregistered y.subscriber)
        { a with subscriptions := ⟨front ++ Subscriptions.closeGap back⟩ }
  /-- The action is refused, and everything stays as it was. -/
  | refused {x : Action} {e : AllocatorError} (hreason : a.Refuses x) : Effect a x (.refused e) a

/-- **Every action does one of these.** -/
theorem effect_act (a : Allocator) (x : Action) : Effect a x (a.act x).1 (a.act x).2 := by
  cases x with
  | create =>
    rw [act]
    obtain ⟨index, free, hmany, -, hcreate⟩ | ⟨-, hroom, hcreate⟩ | ⟨hfew, hfull, hcreate⟩ :=
      a.create_cases
    · rw [hcreate]
      exact .created (fun h => Nat.not_le_of_lt hmany h.1) rfl
    · rw [hcreate]
      exact .created (fun h => Nat.not_le_of_lt hroom h.2) rfl
    · rw [hcreate]
      exact .refused ⟨hfew, hfull⟩
  | destroy id =>
    rw [act]
    cases halive : a.alive id with
    | true =>
      rw [destroy_of_alive halive]
      exact .destroyed halive
    | false =>
      rw [destroy_of_dead halive]
      exact .refused halive
  | register s =>
    rw [act, register]
    obtain ⟨hnew, hregister⟩ | ⟨hold, hregister⟩ := a.subscriptions.register_cases s
    · rw [hregister]
      exact .registered hnew
    · rw [hregister]
      exact .refused ((a.subscriptions.contains_iff s).mpr hold)
  | unregister s =>
    rw [act, unregister]
    obtain ⟨front, y, back, hlist, rfl, hunregister⟩ | ⟨hnone, hunregister⟩ :=
      a.subscriptions.unregister_cases s
    · rw [hunregister]
      exact .unregistered hlist
    · rw [hunregister]
      exact .refused ((a.subscriptions.not_contains_iff s).mpr hnone)

namespace Effect

variable {a a' : Allocator} {x : Action}

/-- **An action that is refused leaves the allocator as it was.** -/
theorem eq_of_refused {e : AllocatorError} (h : Effect a x (.refused e) a') : a' = a := by
  cases h with
  | refused hreason => rfl

/-- **Who leaves takes the own subscription along.**  Slots and queue stay as they are. -/
theorem eq_unregister {s : UInt64} (h : Effect a x (.unregistered s) a') :
    x = .unregister s ∧ ∃ front y back, a.subscriptions.list = front ++ y :: back ∧
      y.subscriber = s ∧
      a' = { a with subscriptions := ⟨front ++ Subscriptions.closeGap back⟩ } := by
  cases h with
  | unregistered hlist => exact ⟨rfl, _, _, _, hlist, rfl, rfl⟩

/-- An action is refused just for its reason. -/
theorem refused_iff {o : Outcome} (h : Effect a x o a') :
    (∃ e, o = .refused e) ↔ a.Refuses x := by
  cases h with
  | created haccepted hsubscriptions => simpa using haccepted
  | destroyed halive => simp [Refuses, halive]
  | @registered s hnew =>
    have hcontains := (a.subscriptions.not_contains_iff s).mpr hnew
    simp [Refuses, hcontains]
  | @unregistered front back y hlist =>
    simp [Refuses, Subscriptions.contains_of_list hlist]
  | refused hreason => simp [hreason]

end Effect

theorem refused_act_iff (a : Allocator) (x : Action) :
    (∃ e, (a.act x).1 = .refused e) ↔ a.Refuses x :=
  (a.effect_act x).refused_iff

/-! ## 4. What becomes of the subscriptions -/

/-- What can come of an action, and the subscriptions after it. -/
inductive Change (s : Subscriptions) : Outcome → Subscriptions → Prop
  /-- Somebody who has no subscription gets the last place. -/
  | joined {x : UInt64} (hnew : x ∉ s.subscribers) :
      Change s (.registered x) ⟨s.list ++ [⟨x, 0⟩]⟩
  /-- Somebody leaves, and the gap is closed. -/
  | left {front back : List Subscription} {y : Subscription} (hlist : s.list = front ++ y :: back) :
      Change s (.unregistered y.subscriber) ⟨front ++ Subscriptions.closeGap back⟩
  /-- All are told of a unit. -/
  | told {id : EntityId} {d : Destruction} (hnotices : d.notices = (s.tell id).1) :
      Change s (.destroyed id d) (s.tell id).2
  /-- The subscriptions stay as they are, and nobody is told. -/
  | unchanged {o : Outcome} (hregistered : ∀ x, o ≠ .registered x)
      (hunregistered : ∀ x, o ≠ .unregistered x) (hdestroyed : ∀ id d, o ≠ .destroyed id d) :
      Change s o s

theorem Effect.change {a a' : Allocator} {x : Action} {o : Outcome} (h : Effect a x o a') :
    Change a.subscriptions o a'.subscriptions := by
  cases h with
  | created haccepted hsubscriptions =>
    rw [hsubscriptions]
    exact .unchanged (by simp) (by simp) (by simp)
  | destroyed halive => exact .told rfl
  | registered hnew => exact .joined hnew
  | unregistered hlist => exact .left hlist
  | refused hreason => exact .unchanged (by simp) (by simp) (by simp)

/-- **Every action changes the subscriptions in one of these ways.** -/
theorem change_act (a : Allocator) (x : Action) :
    Change a.subscriptions (a.act x).1 (a.act x).2.subscriptions :=
  (a.effect_act x).change

end Allocator

end UnitBake
