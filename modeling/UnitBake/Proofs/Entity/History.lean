/-
# Histories of an allocator

What is asked of an allocator one after the other (`Allocator.Action`), what comes of each
(`Allocator.Outcome`), and the allocator in the end (`Allocator.History`).  From the outcomes one can
tell which ids are *held*: those that were handed out and not destroyed since (`Allocator.held`,
`Allocator.mem_held_iff`).  The allocator does not keep them.

Everything `create` and `destroy` can do is said once, in `create_cases` and `destroy_cases`.  To
slots and queue an action does one of four things (`Allocator.Transition`): it takes the oldest slot
from the queue, adds a slot, queues a slot with its generation raised, or leaves both as they are.
What holds along a history is read off these four; first of all that the queue never leaves the slots,
nor the slots the indices (`Allocator.bounded_after`), whatever ids are given to be destroyed.
-/
import Mathlib.Data.Finset.Basic
import Mathlib.Data.List.Induction
import UnitBake.Entity.Allocator

namespace UnitBake.Allocator

/-! ## 1. Actions and their outcomes -/

/-- What is asked of an allocator. -/
inductive Action where
  | create
  | destroy (id : EntityId)
  | register (subscriber : UInt64)
  | unregister (subscriber : UInt64)
deriving DecidableEq, Repr

/-- What comes of an action. -/
inductive Outcome where
  | created (id : EntityId)
  | destroyed (id : EntityId) (destruction : Destruction)
  | registered (subscriber : UInt64)
  | unregistered (subscriber : UInt64)
  | refused (error : AllocatorError)
deriving DecidableEq, Repr

/-- The outcome of an operation, and the allocator after it. -/
def settle {α : Type} (outcome : α → Outcome) :
    Except AllocatorError α × Allocator → Outcome × Allocator
  | (.ok x, a) => (outcome x, a)
  | (.error e, a) => (.refused e, a)

@[simp] theorem settle_snd {α : Type} (outcome : α → Outcome)
    (r : Except AllocatorError α × Allocator) : (settle outcome r).2 = r.2 := by
  obtain ⟨e | x, a⟩ := r <;> rfl

theorem settle_cases {α : Type} (outcome : α → Outcome)
    (r : Except AllocatorError α × Allocator) :
    (∃ x, r.1 = .ok x ∧ settle outcome r = (outcome x, r.2)) ∨
      ∃ e, r.1 = .error e ∧ settle outcome r = (.refused e, r.2) := by
  obtain ⟨e | x, a⟩ := r
  · exact Or.inr ⟨e, rfl, rfl⟩
  · exact Or.inl ⟨x, rfl, rfl⟩

/-- Does what is asked. -/
def act (a : Allocator) : Action → Outcome × Allocator
  | .create => settle .created a.create
  | .destroy id => settle (.destroyed id) (a.destroy id)
  | .register s => settle (fun _ => .registered s) (a.register s)
  | .unregister s => settle (fun _ => .unregistered s) (a.unregister s)

/-- Only a request to destroy an id destroys it. -/
theorem eq_destroy_of_outcome {a : Allocator} {x : Action} {id : EntityId} {d : Destruction}
    (h : (a.act x).1 = .destroyed id d) : x = .destroy id := by
  cases x with
  | create =>
    obtain ⟨y, -, hsettle⟩ | ⟨e, -, hsettle⟩ := settle_cases .created a.create
    all_goals rw [act, hsettle] at h; cases h
  | destroy id' =>
    obtain ⟨y, -, hsettle⟩ | ⟨e, -, hsettle⟩ := settle_cases (.destroyed id') (a.destroy id')
    all_goals rw [act, hsettle] at h; cases h
    rfl
  | register s =>
    obtain ⟨y, -, hsettle⟩ | ⟨e, -, hsettle⟩ :=
      settle_cases (fun _ => Outcome.registered s) (a.register s)
    all_goals rw [act, hsettle] at h; cases h
  | unregister s =>
    obtain ⟨y, -, hsettle⟩ | ⟨e, -, hsettle⟩ :=
      settle_cases (fun _ => Outcome.unregistered s) (a.unregister s)
    all_goals rw [act, hsettle] at h; cases h

/-- Where a list with one more element is split: at that element, or before it. -/
theorem split_concat {α : Type} {xs before later : List α} {x y : α}
    (h : xs ++ [x] = before ++ y :: later) :
    (before = xs ∧ y = x ∧ later = []) ∨
      ∃ between, later = between ++ [x] ∧ xs = before ++ y :: between := by
  rcases List.eq_nil_or_concat later with rfl | ⟨between, x', rfl⟩
  · obtain ⟨rfl, hlast⟩ := List.append_inj' h rfl
    exact Or.inl ⟨rfl, (List.cons.inj hlast).1.symm, rfl⟩
  · rw [List.concat_eq_append, ← List.cons_append, ← List.append_assoc] at h
    obtain ⟨rfl, hlast⟩ := List.append_inj' h rfl
    obtain rfl := (List.cons.inj hlast).1
    exact Or.inr ⟨between, List.concat_eq_append, rfl⟩

/-- The outcomes so far and the allocator after them. -/
structure History where
  outcomes : List Outcome
  allocator : Allocator

namespace History

/-- Nothing has been asked of a new allocator. -/
def start : History := ⟨[], .empty⟩

/-- One more action. -/
def step (h : History) (x : Action) : History :=
  ⟨h.outcomes ++ [(h.allocator.act x).1], (h.allocator.act x).2⟩

/-- The history of a list of actions. -/
def after (actions : List Action) : History := actions.foldl step start

theorem after_concat (actions : List Action) (x : Action) :
    after (actions ++ [x]) = (after actions).step x := by
  rw [after, List.foldl_append]
  rfl

/-- Every outcome is that of an action, done where the actions before it led. -/
theorem outcomes_split {actions : List Action} {before later : List Outcome} {o : Outcome}
    (h : (after actions).outcomes = before ++ o :: later) :
    ∃ front x back, actions = front ++ x :: back ∧ (after front).outcomes = before ∧
      ((after front).allocator.act x).1 = o := by
  induction actions using List.reverseRecOn generalizing later with
  | nil => exact absurd h (by simp [after, start])
  | append_singleton actions x ih =>
    rw [after_concat] at h
    obtain ⟨rfl, rfl, rfl⟩ | ⟨between, rfl, hsplit⟩ := split_concat h
    · exact ⟨actions, x, [], rfl, rfl, rfl⟩
    · obtain ⟨front, x', back, rfl, hbefore, ho⟩ := ih hsplit
      exact ⟨front, x', back ++ [x], by simp, hbefore, ho⟩

end History

/-! ## 2. Ids that are held -/

/-- The ids held after one more outcome. -/
def holdNext (ids : Finset EntityId) : Outcome → Finset EntityId
  | .created id => insert id ids
  | .destroyed id _ => ids.erase id
  | _ => ids

/-- The ids that are held after some outcomes. -/
def held (outcomes : List Outcome) : Finset EntityId := outcomes.foldl holdNext ∅

@[simp] theorem held_nil : held [] = ∅ := rfl

theorem held_concat (outcomes : List Outcome) (o : Outcome) :
    held (outcomes ++ [o]) = holdNext (held outcomes) o := by
  rw [held, List.foldl_append]
  rfl

/-- An id is held after an outcome that hands it out, or if it was held before and not destroyed. -/
theorem mem_holdNext {ids : Finset EntityId} {o : Outcome} {id : EntityId} :
    id ∈ holdNext ids o ↔ o = .created id ∨ id ∈ ids ∧ ∀ d, o ≠ .destroyed id d := by
  cases o with
  | created id' => simp [holdNext, eq_comm]
  | destroyed id' d => simp [holdNext, and_comm, eq_comm]
  | registered s => simp [holdNext]
  | unregistered s => simp [holdNext]
  | refused e => simp [holdNext]

/-- Nothing else changes what is held. -/
theorem holdNext_of_ne {ids : Finset EntityId} {o : Outcome} (hcreated : ∀ id, o ≠ .created id)
    (hdestroyed : ∀ id d, o ≠ .destroyed id d) : holdNext ids o = ids := by
  ext id
  rw [mem_holdNext]
  constructor
  · rintro (ho | ⟨hid, -⟩)
    · exact absurd ho (hcreated id)
    · exact hid
  · intro hid
    exact Or.inr ⟨hid, hdestroyed id⟩

/-- **An id is held if it was handed out and has not been destroyed since.** -/
theorem mem_held_iff {outcomes : List Outcome} {id : EntityId} :
    id ∈ held outcomes ↔ ∃ before later, outcomes = before ++ .created id :: later ∧
      ∀ d, Outcome.destroyed id d ∉ later := by
  induction outcomes using List.reverseRecOn with
  | nil => simp
  | append_singleton outcomes o ih =>
    rw [held_concat, mem_holdNext, ih]
    constructor
    · rintro (rfl | ⟨⟨before, later, rfl, hlater⟩, hkept⟩)
      · exact ⟨outcomes, [], rfl, by simp⟩
      · refine ⟨before, later ++ [o], by simp, ?_⟩
        intro d hd
        rcases List.mem_append.mp hd with hd | hd
        · exact hlater d hd
        · exact hkept d (List.mem_singleton.mp hd).symm
    · rintro ⟨before, later, hsplit, hlater⟩
      obtain ⟨-, ho, -⟩ | ⟨between, rfl, hbetween⟩ := split_concat hsplit
      · exact Or.inl ho.symm
      · refine Or.inr ⟨⟨before, between, hbetween, fun d hd => hlater d (by simp [hd])⟩, ?_⟩
        rintro d rfl
        exact hlater d (by simp)

/-- The ids held at the end of a history. -/
def History.held (h : History) : Finset EntityId := Allocator.held h.outcomes

theorem History.held_step (h : History) (x : Action) :
    (h.step x).held = holdNext h.held (h.allocator.act x).1 :=
  held_concat h.outcomes _

/-! ## 3. What the operations do -/

/-- Everything `create` can do: take the oldest of many queued slots, add a slot, or refuse because
there is no index left. -/
theorem create_cases (a : Allocator) :
    (∃ index free, quarantine < a.freeCount ∧ a.free.pop? = some (index, free) ∧
        a.create = (.ok (.pack index (a.generationOf index)), { a with free := free })) ∨
      (a.freeCount ≤ quarantine ∧ a.size < EntityId.indexCount ∧
        a.create = (.ok (.pack (UInt32.ofNat a.size) 0),
          { a with generations := a.generations.push 0 })) ∨
      (a.freeCount ≤ quarantine ∧ EntityId.indexCount ≤ a.size ∧
        a.create = (.error .exhausted, a)) := by
  by_cases hqueued : quarantine < a.freeCount
  · left
    have hnonempty : a.free.toList ≠ [] := by
      intro hnil
      have hsize := a.free.length_toList
      rw [hnil] at hsize
      rw [freeCount, ← hsize] at hqueued
      exact Nat.not_lt_zero _ hqueued
    obtain ⟨⟨index, free⟩, hpop⟩ :=
      Option.ne_none_iff_exists'.mp fun h => hnonempty (a.free.pop?_eq_none_iff.mp h)
    refine ⟨index, free, hqueued, hpop, ?_⟩
    rw [create, if_pos (show quarantine < a.free.size from hqueued), hpop]
  · right
    have hfew : a.freeCount ≤ quarantine := Nat.le_of_not_lt hqueued
    have hnew : a.create = a.createNew := if_neg hqueued
    by_cases hroom : a.size < EntityId.indexCount
    · exact Or.inl ⟨hfew, hroom, hnew.trans (if_pos hroom)⟩
    · exact Or.inr ⟨hfew, Nat.le_of_not_lt hroom, hnew.trans (if_neg hroom)⟩

/-- Everything `destroy` can do: raise the generation of the slot and queue it, or refuse. -/
theorem destroy_cases (a : Allocator) (id : EntityId) :
    (a.alive id = true ∧ ∃ d, (a.destroy id).1 = .ok d ∧
        (a.destroy id).2.generations =
          a.generations.setIfInBounds id.index.toNat (id.generation + 1) ∧
        (a.destroy id).2.free = a.free.push id.index) ∨
      (a.alive id = false ∧ a.destroy id = (.error (.dead id), a)) := by
  cases halive : a.alive id with
  | true =>
    left
    rw [destroy_of_alive halive]
    exact ⟨rfl, _, rfl, rfl, rfl⟩
  | false => exact Or.inr ⟨rfl, destroy_of_dead halive⟩

/-! ## 4. What an action does to slots and queue -/

/-- What can come of an action, and the allocator after it. -/
inductive Transition (a : Allocator) : Outcome → Allocator → Prop where
  /-- The oldest of many queued slots is handed out again. -/
  | recycled {index : UInt32} {free : Queue UInt32} (hmany : quarantine < a.freeCount)
      (hpop : a.free.pop? = some (index, free)) :
      Transition a (.created (.pack index (a.generationOf index))) { a with free := free }
  /-- A slot is added and handed out. -/
  | added (hfew : a.freeCount ≤ quarantine) (hroom : a.size < EntityId.indexCount) :
      Transition a (.created (.pack (UInt32.ofNat a.size) 0))
        { a with generations := a.generations.push 0 }
  /-- The slot of an id that was alive is queued, its generation raised. -/
  | destroyed {id : EntityId} {d : Destruction} {a' : Allocator} (halive : a.alive id = true)
      (hgenerations : a'.generations =
        a.generations.setIfInBounds id.index.toNat (id.generation + 1))
      (hfree : a'.free = a.free.push id.index) : Transition a (.destroyed id d) a'
  /-- Slots and queue stay as they are. -/
  | idle {o : Outcome} {a' : Allocator} (hcreated : ∀ id, o ≠ .created id)
      (hdestroyed : ∀ id d, o ≠ .destroyed id d) (hgenerations : a'.generations = a.generations)
      (hfree : a'.free = a.free) : Transition a o a'

/-- **Every action is one of these transitions.** -/
theorem transition_act (a : Allocator) (x : Action) : Transition a (a.act x).1 (a.act x).2 := by
  cases x with
  | create =>
    rw [act]
    obtain ⟨index, free, hmany, hpop, hcreate⟩ | ⟨hfew, hroom, hcreate⟩ | ⟨-, -, hcreate⟩ :=
      a.create_cases
    · rw [hcreate]
      exact .recycled hmany hpop
    · rw [hcreate]
      exact .added hfew hroom
    · rw [hcreate]
      exact .idle (by simp [settle]) (by simp [settle]) rfl rfl
  | destroy id =>
    obtain ⟨halive, d, hd, hgenerations, hfree⟩ | ⟨-, hdestroy⟩ := a.destroy_cases id
    · have hact : a.act (.destroy id) = (.destroyed id d, (a.destroy id).2) := by
        rw [act, ← Prod.mk.eta (p := a.destroy id), hd]
        rfl
      rw [hact]
      exact .destroyed halive hgenerations hfree
    · rw [act, hdestroy]
      exact .idle (by simp [settle]) (by simp [settle]) rfl rfl
  | register s =>
    rw [act, register]
    cases a.subscriptions.register s with
    | ok subscriptions => exact .idle (by simp [settle]) (by simp [settle]) rfl rfl
    | error e => exact .idle (by simp [settle]) (by simp [settle]) rfl rfl
  | unregister s =>
    rw [act, unregister]
    cases a.subscriptions.unregister s with
    | ok subscriptions => exact .idle (by simp [settle]) (by simp [settle]) rfl rfl
    | error e => exact .idle (by simp [settle]) (by simp [settle]) rfl rfl

/-- Only ids that are alive are destroyed. -/
theorem Transition.alive {a a' : Allocator} {id : EntityId} {d : Destruction}
    (h : Transition a (.destroyed id d) a') : a.alive id = true := by
  cases h with
  | destroyed halive hgenerations hfree => exact halive
  | idle hcreated hdestroyed hgenerations hfree => exact absurd rfl (hdestroyed id d)

theorem act_create {a : Allocator} {id : EntityId} (h : a.create.1 = .ok id) :
    a.act .create = (.created id, a.create.2) := by
  rw [act, ← Prod.mk.eta (p := a.create), h]
  rfl

theorem transition_of_create {a : Allocator} {id : EntityId} (h : a.create.1 = .ok id) :
    Transition a (.created id) a.create.2 := by
  have hstep := a.transition_act .create
  rwa [act_create h] at hstep

/-! ## 5. Slots and indices -/

/-- The queue holds slots of the allocator, and these can be told by an index. -/
structure Bounded (a : Allocator) : Prop where
  size_le : a.size ≤ EntityId.indexCount
  queued_lt : ∀ slot ∈ a.free.toList, slot.toNat < a.size

namespace Bounded

variable {a a' : Allocator}

theorem empty : Bounded .empty where
  size_le := Nat.zero_le _
  queued_lt slot hslot := absurd hslot (by simp [Allocator.empty])

/-- **Every transition keeps slots and queue within the indices**, whatever ids are destroyed. -/
theorem step (h : Bounded a) {o : Outcome} (hstep : Transition a o a') : Bounded a' := by
  cases hstep with
  | recycled hmany hpop =>
    refine ⟨h.size_le, fun slot hslot => h.queued_lt slot ?_⟩
    rw [Queue.toList_of_pop? hpop]
    exact List.mem_cons_of_mem _ hslot
  | added hfew hroom =>
    refine ⟨?_, fun slot hslot => ?_⟩
    · rw [size_push]
      exact hroom
    · rw [size_push]
      exact Nat.lt_succ_of_lt (h.queued_lt slot hslot)
  | @destroyed id d _ halive hgenerations hfree =>
    have hsize : a'.size = a.size := by
      rw [size, hgenerations, Array.size_setIfInBounds]
      rfl
    refine ⟨hsize ▸ h.size_le, fun slot hslot => ?_⟩
    rw [hfree, Queue.toList_push, List.mem_append, List.mem_singleton] at hslot
    rw [hsize]
    rcases hslot with hslot | rfl
    · exact h.queued_lt slot hslot
    · exact ((a.alive_iff id).mp halive).1
  | idle hcreated hdestroyed hgenerations hfree =>
    refine ⟨?_, fun slot hslot => ?_⟩
    · rw [size, hgenerations]
      exact h.size_le
    · rw [hfree] at hslot
      rw [size, hgenerations]
      exact h.queued_lt slot hslot

theorem queued_lt_indexCount (h : Bounded a) {slot : UInt32} (hslot : slot ∈ a.free.toList) :
    slot.toNat < EntityId.indexCount :=
  Nat.lt_of_lt_of_le (h.queued_lt slot hslot) h.size_le

/-- **Where a new id comes from**: it is packed from the oldest of many queued slots, or from the next
slot that there is not yet; and it has the generation of its slot. -/
theorem created_cases (h : Bounded a) {id : EntityId} (hstep : Transition a (.created id) a') :
    id.generation = a.generationOf id.index ∧
      ((quarantine < a.freeCount ∧ a.free.toList = id.index :: a'.free.toList ∧
          a'.generations = a.generations) ∨
        (a.freeCount ≤ quarantine ∧ id.index.toNat = a.size ∧ a'.free = a.free ∧
          a'.generations = a.generations.push 0)) := by
  cases hstep with
  | @recycled index free hmany hpop =>
    have hqueue : a.free.toList = index :: free.toList := Queue.toList_of_pop? hpop
    have hroom : index.toNat < EntityId.indexCount := h.queued_lt_indexCount (by simp [hqueue])
    rw [EntityId.index_pack hroom, EntityId.generation_pack hroom]
    exact ⟨rfl, Or.inl ⟨hmany, hqueue, rfl⟩⟩
  | added hfew hroom =>
    have hnat := toNat_ofNat_size hroom
    have hslot : (UInt32.ofNat a.size).toNat < EntityId.indexCount := by rwa [hnat]
    rw [EntityId.index_pack hslot, EntityId.generation_pack hslot, generationOf_ofNat_size hroom]
    exact ⟨rfl, Or.inr ⟨hfew, hnat, rfl, rfl⟩⟩
  | idle hcreated hdestroyed hgenerations hfree => exact absurd rfl (hcreated id)

end Bounded

/-- **Queued slots are slots of the allocator**, of which there are no more than indices. -/
theorem bounded_after (actions : List Action) : Bounded (History.after actions).allocator := by
  induction actions using List.reverseRecOn with
  | nil => exact .empty
  | append_singleton actions x ih =>
    rw [History.after_concat]
    exact ih.step (transition_act _ x)

end UnitBake.Allocator
