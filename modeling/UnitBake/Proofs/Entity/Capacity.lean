/-
# Indices on a machine, and how many there are

`create` and `destroy` count slots with natural numbers and take ids apart with arithmetic.  A machine
does so with words and bits: a lookup beyond the table and a number that does not fit its bits have no
result there.  `Machine.create` and `Machine.destroy` are the operations with words, in which each of
these stops the run (`Machine.Halt`), and none of them ever does, whatever is asked of an allocator
(`Machine.after_eq`).

What carries this is `Bounded`: queued slots are slots of the allocator, and there are no more slots
than indices.  Then the table has the slot of every new id, an index keeps clear of the bits of the
generation, and the id comes apart into what it was packed from.

An allocator has no index left only if every one of them is a slot and no more than 1024 are queued.
-/
import Mathlib.Algebra.Group.Nat.Defs
import UnitBake.Proofs.Entity.Ownership
import UnitBake.Proofs.Entity.Reuse

namespace UnitBake.Allocator

namespace Machine

/-! ## 1. Words -/

/-- What ends an operation before its result: it is refused, or a step has no result. -/
inductive Halt where
  | refused (e : AllocatorError)
  | outOfRange
  | overflow
deriving DecidableEq, Repr

/-- An operation with words.  Where it ends early, the allocator is left as it is at that moment. -/
abbrev Run (α : Type) : Type := ExceptT Halt (StateM Allocator) α

/-- The result of an operation on an allocator, and the allocator after it. -/
def Run.on {α : Type} (x : Run α) (a : Allocator) : Except Halt α × Allocator := x.run.run a

/-- The 24 bits of an index. -/
def indexMask : UInt32 := 0xffffff

/-- The index of an id, by its bits. -/
def indexBits (id : EntityId) : UInt32 := id.raw &&& indexMask

/-- The generation of an id, by its bits. -/
def generationBits (id : EntityId) : UInt8 := (id.raw >>> 24).toUInt8

/-- The id with the bits of an index, which must not reach those of the generation. -/
def packBits (index : UInt32) (generation : UInt8) : Run EntityId :=
  if index ≤ indexMask then return ⟨index ||| generation.toUInt32 <<< 24⟩ else throw .overflow

/-- The generation of a slot, which must be in the table. -/
def lookUp (index : UInt32) : Run UInt8 := do
  match (← get).generations[index.toNat]? with
  | some generation => return generation
  | none => throw .outOfRange

/-- The index of the last slot, of which there must be one, and which must be a word. -/
def lastIndex : Run UInt32 := do
  let size := (← get).size
  if 1 ≤ size ∧ size - 1 < 2 ^ 32 then return UInt32.ofNat (size - 1) else throw .overflow

/-! ## 2. The operations -/

/-- Takes the oldest queued slot; from an empty queue this would be the first slot. -/
def takeOldest : Run UInt32 := do
  match (← get).free.pop? with
  | some (index, free) =>
    modify fun a => { a with free := free }
    return index
  | none => return 0

/-- Adds a slot, if there is an index left for it. -/
def addSlot : Run UInt32 := do
  if (← get).size < EntityId.indexCount then
    modify fun a => { a with generations := a.generations.push 0 }
    lastIndex
  else throw (.refused .exhausted)

/-- `Allocator.create` with words. -/
def create : Run EntityId := do
  let index ← if quarantine < (← get).freeCount then takeOldest else addSlot
  let generation ← lookUp index
  packBits index generation

/-- `Allocator.alive` with words. -/
def alive (a : Allocator) (id : EntityId) : Bool :=
  match a.generations[(indexBits id).toNat]? with
  | some generation => generation == generationBits id
  | none => false

/-- `Allocator.destroy` with words. -/
def destroy (id : EntityId) : Run Destruction := do
  if alive (← get) id then
    let index := indexBits id
    let generation ← lookUp index
    modify fun a =>
      { a with
        generations := a.generations.setIfInBounds index.toNat (generation + 1)
        free := a.free.push index }
    let event := Event.unitDestroyed id (← get).free.size
    let (notices, told) := (← get).subscriptions.tell id
    modify fun a => { a with subscriptions := told }
    return ⟨notices, event⟩
  else throw (.refused (.dead id))

/-- The outcome of an operation and the allocator after it.  A refusal is an outcome; an operation that
has no result ends the run. -/
def settle {α : Type} (outcome : α → Outcome) :
    Except Halt α × Allocator → Except Halt (Outcome × Allocator)
  | (.ok x, a) => .ok (outcome x, a)
  | (.error (.refused e), a) => .ok (.refused e, a)
  | (.error h, _) => .error h

/-- `Allocator.act` with words. -/
def act (a : Allocator) : Action → Except Halt (Outcome × Allocator)
  | .create => settle .created (create.on a)
  | .destroy id => settle (.destroyed id) ((destroy id).on a)
  | .register s => .ok (a.act (.register s))
  | .unregister s => .ok (a.act (.unregister s))

/-- `History.step` with words. -/
def step (h : History) (x : Action) : Except Halt History := do
  let (o, a) ← act h.allocator x
  return ⟨h.outcomes ++ [o], a⟩

/-- `History.after` with words. -/
def after (actions : List Action) : Except Halt History := actions.foldlM step History.start

/-! ## 3. Bits -/

/-- The low bits are what is left over by the number of indices. -/
theorem indexBits_eq (id : EntityId) : indexBits id = id.index := by
  apply UInt32.toNat_inj.mp
  rw [indexBits, indexMask, EntityId.index, UInt32.toNat_and, UInt32.toNat_mod]
  exact Nat.and_two_pow_sub_one_eq_mod id.raw.toNat 24

/-- The bits above them are how often that number goes into the id. -/
theorem generationBits_eq (id : EntityId) : generationBits id = id.generation := by
  have hshift : id.raw >>> 24 = id.raw / 0x1000000 := by
    apply UInt32.toNat_inj.mp
    rw [UInt32.toNat_shiftRight, UInt32.toNat_div]
    exact Nat.shiftRight_eq_div_pow id.raw.toNat 24
  rw [generationBits, hshift, EntityId.generation]

/-- An index and a generation have no bit in common, so joining their bits adds them. -/
theorem or_shiftLeft_eq {index : UInt32} (h : index.toNat < EntityId.indexCount)
    (generation : UInt8) :
    index ||| generation.toUInt32 <<< 24 = index + generation.toUInt32 * 0x1000000 := by
  have hgeneration := generation.toNat_lt
  have hroom : generation.toNat <<< 24 < 2 ^ 32 := by
    rw [Nat.shiftLeft_eq]
    omega
  have hshift : (generation.toUInt32 <<< 24).toNat = generation.toNat <<< 24 := by
    rw [UInt32.toNat_shiftLeft, UInt8.toNat_toUInt32]
    exact Nat.mod_eq_of_lt hroom
  have hor : generation.toNat <<< 24 ||| index.toNat = generation.toNat <<< 24 + index.toNat :=
    (Nat.shiftLeft_add_eq_or_of_lt h generation.toNat).symm
  apply UInt32.toNat_inj.mp
  rw [UInt32.toNat_or, hshift, Nat.or_comm, hor, UInt32.toNat_add, UInt32.toNat_mul,
    UInt8.toNat_toUInt32, Nat.shiftLeft_eq]
  unfold EntityId.indexCount at h
  simp only [UInt32.reduceToNat]
  omega

/-! ## 4. No step lacks a result -/

section

variable {α β : Type} {a a' : Allocator}

theorem on_bind {x : Run α} {v : α} (f : α → Run β) (h : x.on a = (.ok v, a')) :
    (x >>= f).on a = (f v).on a' := by
  change (match x.on a with | (r, a') => ExceptT.bindCont f r a') = _
  rw [h]
  rfl

theorem on_bind_error {x : Run α} {e : Halt} (f : α → Run β) (h : x.on a = (.error e, a')) :
    (x >>= f).on a = (.error e, a') := by
  change (match x.on a with | (r, a') => ExceptT.bindCont f r a') = _
  rw [h]
  rfl

theorem on_get : (get : Run Allocator).on a = (.ok a, a) := rfl

theorem on_modify (f : Allocator → Allocator) : (modify f : Run Unit).on a = (.ok (), f a) := rfl

/-- An index keeps clear of the bits of the generation. -/
theorem on_packBits {index : UInt32} (h : index.toNat < EntityId.indexCount)
    (generation : UInt8) :
    (packBits index generation).on a = (.ok (.pack index generation), a) := by
  have hle : index ≤ indexMask := UInt32.le_iff_toNat_le.mpr (Nat.le_of_lt_succ h)
  rw [packBits, if_pos hle, or_shiftLeft_eq h]
  rfl

theorem on_lookUp {index : UInt32} (h : index.toNat < a.size) :
    (lookUp index).on a = (.ok (a.generationOf index), a) := by
  rw [lookUp, on_bind _ on_get, getElem?_of_lt_size h]
  rfl

theorem on_lastIndex (hpos : 1 ≤ a.size) (hword : a.size ≤ EntityId.indexCount) :
    lastIndex.on a = (.ok (UInt32.ofNat (a.size - 1)), a) := by
  unfold EntityId.indexCount at hword
  rw [lastIndex, on_bind _ on_get, if_pos ⟨hpos, by omega⟩]
  rfl

theorem on_takeOldest {index : UInt32} {free : Queue UInt32}
    (hpop : a.free.pop? = some (index, free)) :
    takeOldest.on a = (.ok index, { a with free := free }) := by
  rw [takeOldest, on_bind _ on_get, hpop]
  rfl

theorem on_addSlot (hroom : a.size < EntityId.indexCount) :
    addSlot.on a =
      (.ok (UInt32.ofNat a.size), { a with generations := a.generations.push 0 }) := by
  have hgrown := size_push a 0
  rw [addSlot, on_bind _ on_get, if_pos hroom, on_bind _ (on_modify _),
    on_lastIndex (by omega) (by omega), hgrown]
  rfl

theorem on_addSlot_full (hfull : EntityId.indexCount ≤ a.size) :
    addSlot.on a = (.error (.refused .exhausted), a) := by
  rw [addSlot, on_bind _ on_get, if_neg (Nat.not_lt_of_le hfull)]
  rfl

/-- **Creating an id never lacks a result**, if queued slots are slots of the allocator and these can
be told by an index. -/
theorem on_create (h : Bounded a) :
    create.on a = (a.create.1.mapError .refused, a.create.2) := by
  rw [create, on_bind _ on_get]
  obtain ⟨index, free, hmany, hpop, hcreate⟩ | ⟨hfew, hroom, hcreate⟩ | ⟨hfew, hfull, hcreate⟩ :=
    a.create_cases
  · have hqueued : index ∈ a.free.toList := by
      rw [Queue.toList_of_pop? hpop]
      exact List.mem_cons_self
    have hindex : index.toNat < EntityId.indexCount := h.queued_lt_indexCount hqueued
    have hlook : (lookUp index).on { a with free := free } =
        (.ok (a.generationOf index), { a with free := free }) :=
      on_lookUp (h.queued_lt index hqueued)
    rw [hcreate, if_pos hmany, on_bind _ (on_takeOldest hpop), on_bind _ hlook, on_packBits hindex]
    rfl
  · have hnat := toNat_ofNat_size hroom
    have hindex : (UInt32.ofNat a.size).toNat < EntityId.indexCount := by rwa [hnat]
    have hlook : (lookUp (UInt32.ofNat a.size)).on
        { a with generations := a.generations.push 0 } =
          (.ok 0, { a with generations := a.generations.push 0 }) := by
      rw [on_lookUp (by rw [hnat, size_push]; exact Nat.lt_succ_self _), generationOf, hnat]
      simp [size]
    rw [hcreate, if_neg (Nat.not_lt_of_le hfew), on_bind _ (on_addSlot hroom), on_bind _ hlook,
      on_packBits hindex]
    rfl
  · rw [hcreate, if_neg (Nat.not_lt_of_le hfew), on_bind_error _ (on_addSlot_full hfull)]
    rfl

theorem alive_eq (a : Allocator) (id : EntityId) : alive a id = a.alive id := by
  rw [alive, Allocator.alive, indexBits_eq, generationBits_eq]
  cases a.generations[id.index.toNat]? with
  | none => rfl
  | some generation => rfl

/-- **Destroying an id never lacks a result**, whatever the id and the allocator: an id that is alive
has a slot. -/
theorem on_destroy (a : Allocator) (id : EntityId) :
    (destroy id).on a = ((a.destroy id).1.mapError .refused, (a.destroy id).2) := by
  rw [destroy, on_bind _ on_get, alive_eq]
  cases halive : a.alive id with
  | true =>
    obtain ⟨hlt, hgeneration⟩ := (a.alive_iff id).mp halive
    have hlook := on_lookUp hlt
    rw [if_pos rfl, indexBits_eq, on_bind _ hlook, hgeneration, destroy_of_alive halive]
    rfl
  | false =>
    rw [if_neg Bool.false_ne_true, destroy_of_dead halive]
    rfl

end

theorem settle_mapError {α : Type} (outcome : α → Outcome)
    (r : Except AllocatorError α × Allocator) :
    settle outcome (r.1.mapError .refused, r.2) = .ok (Allocator.settle outcome r) := by
  obtain ⟨e | x, a⟩ := r <;> rfl

/-- **No action stops the run.** -/
theorem act_eq {a : Allocator} (h : Bounded a) (x : Action) : act a x = .ok (a.act x) := by
  cases x with
  | create => rw [act, on_create h, settle_mapError, Allocator.act]
  | destroy id => rw [act, on_destroy, settle_mapError, Allocator.act]
  | register s => rfl
  | unregister s => rfl

/-- **No list of actions stops the run**, and it comes to what it comes to with numbers. -/
theorem after_eq (actions : List Action) : after actions = .ok (History.after actions) := by
  induction actions using List.reverseRecOn with
  | nil => rfl
  | append_singleton actions x ih =>
    have hconcat : after (actions ++ [x]) = after actions >>= fun h => step h x := by
      rw [after, List.foldlM_append]
      refine congrArg _ (funext fun h => ?_)
      rw [List.foldlM_cons]
      exact bind_pure _
    rw [hconcat, ih, History.after_concat]
    change step (History.after actions) x = _
    rw [step, act_eq (bounded_after actions)]
    rfl

end Machine

/-! ## 5. How many ids there can be -/

/-- The slot of a new id is in the table, with the generation of the id. -/
theorem Bounded.entry_of_create {a : Allocator} (h : Bounded a) {id : EntityId}
    (hid : a.create.1 = .ok id) :
    a.create.2.generations[id.index.toNat]? = some id.generation := by
  obtain ⟨hgeneration, ⟨-, hqueue, hgenerations⟩ | ⟨-, hnew, -, hgenerations⟩⟩ :=
    h.created_cases (transition_of_create hid)
  · rw [hgenerations, getElem?_of_lt_size (h.queued_lt id.index (by simp [hqueue])), hgeneration]
  · have hzero : id.generation = 0 := by
      rw [hgeneration, generationOf, hnew]
      simp [size]
    rw [hgenerations, hnew, hzero]
    exact Array.getElem?_push_size

/-- **An id is refused exactly if there is no index left** and too few slots are queued. -/
theorem Bounded.create_eq_error_iff {a : Allocator} (h : Bounded a) {e : AllocatorError} :
    a.create.1 = .error e ↔
      e = .exhausted ∧ a.freeCount ≤ quarantine ∧ a.size = EntityId.indexCount := by
  obtain ⟨index, free, hmany, -, hcreate⟩ | ⟨-, hroom, hcreate⟩ | ⟨hfew, hfull, hcreate⟩ :=
    a.create_cases
  · rw [hcreate]
    constructor
    · intro herror
      cases herror
    · rintro ⟨-, hfew, -⟩
      exact absurd hmany (Nat.not_lt_of_le hfew)
  · rw [hcreate]
    constructor
    · intro herror
      cases herror
    · rintro ⟨-, -, hfull⟩
      exact absurd hroom (Nat.not_lt_of_le (Nat.le_of_eq hfull.symm))
  · rw [hcreate]
    constructor
    · rintro ⟨⟩
      exact ⟨rfl, hfew, Nat.le_antisymm h.size_le hfull⟩
    · rintro ⟨rfl, -, -⟩
      rfl

theorem snd_create_of_error {a : Allocator} {e : AllocatorError} (h : a.create.1 = .error e) :
    a.create.2 = a := by
  obtain ⟨index, free, -, -, hcreate⟩ | ⟨-, -, hcreate⟩ | ⟨-, -, hcreate⟩ := a.create_cases
  · rw [hcreate] at h
    cases h
  · rw [hcreate] at h
    cases h
  · rw [hcreate]

/-- **Indices never go wrong, and all of them can be used.**  After any actions, whichever ids were
given to be destroyed:

* no look-up, no conversion and no packing of an index stopped the run, and bits tell index and
  generation of an id;
* queued slots are slots of the allocator, and there are at most `2 ^ 24` slots;
* a new id comes apart into the index of its slot, which is the oldest of more than 1024 queued ones or
  the next one, and the generation that the table has for it, so it is alive;
* an id is refused exactly if no more than 1024 slots are queued and there are `2 ^ 24`, which changes
  nothing; if only held ids were destroyed, then at least `2 ^ 24 - 1024` ids are held;
* destroying an id that is not alive is refused and changes nothing. -/
theorem indices_never_go_wrong (actions : List Action) :
    Machine.after actions = .ok (History.after actions) ∧
      (∀ id, Machine.indexBits id = id.index ∧ Machine.generationBits id = id.generation) ∧
      (∀ slot ∈ (History.after actions).allocator.free.toList,
        slot.toNat < (History.after actions).allocator.size) ∧
      (History.after actions).allocator.size ≤ 2 ^ 24 ∧
      (∀ id, (History.after actions).allocator.create.1 = .ok id →
        ((1024 < (History.after actions).allocator.freeCount ∧
            (History.after actions).allocator.free.toList.head? = some id.index) ∨
          ((History.after actions).allocator.freeCount ≤ 1024 ∧
            id.index.toNat = (History.after actions).allocator.size)) ∧
        (History.after actions).allocator.create.2.generations[id.index.toNat]? =
          some id.generation ∧
        (History.after actions).allocator.create.2.alive id = true) ∧
      (∀ e, (History.after actions).allocator.create.1 = .error e ↔
        e = .exhausted ∧ (History.after actions).allocator.freeCount ≤ 1024 ∧
          (History.after actions).allocator.size = 2 ^ 24) ∧
      (∀ e, (History.after actions).allocator.create.1 = .error e →
        (History.after actions).allocator.create.2 = (History.after actions).allocator ∧
          (Disciplined actions → 2 ^ 24 - 1024 ≤ (History.after actions).held.card)) ∧
      ∀ id, (History.after actions).allocator.alive id = false →
        (History.after actions).allocator.destroy id =
          (.error (.dead id), (History.after actions).allocator) := by
  have hbounded := bounded_after actions
  refine ⟨Machine.after_eq actions,
    fun id => ⟨Machine.indexBits_eq id, Machine.generationBits_eq id⟩, hbounded.queued_lt,
    hbounded.size_le, ?_, fun e => hbounded.create_eq_error_iff, ?_, fun id => destroy_of_dead⟩
  · intro id hid
    have hentry := hbounded.entry_of_create hid
    refine ⟨?_, hentry, by rw [alive, hentry, beq_self_eq_true]⟩
    obtain ⟨-, ⟨hmany, hqueue, -⟩ | ⟨hfew, hnew, -⟩⟩ :=
      hbounded.created_cases (transition_of_create hid)
    · exact Or.inl ⟨hmany, by rw [hqueue, List.head?_cons]⟩
    · exact Or.inr ⟨hfew, hnew⟩
  · intro e herror
    refine ⟨snd_create_of_error herror, ?_⟩
    intro hdisciplined
    obtain ⟨-, hfew, hfull⟩ := hbounded.create_eq_error_iff.mp herror
    have hcard := (owns_after hdisciplined).card_add_freeCount
    rw [hfull, EntityId.indexCount] at hcard
    rw [quarantine] at hfew
    omega

/-- So many creations, one after the other. -/
def creations (n : Nat) : List Action := List.replicate n .create

theorem creations_succ (n : Nat) : creations (n + 1) = creations n ++ [.create] :=
  List.replicate_succ'

/-- Each of them adds a slot. -/
theorem after_creations {n : Nat} (h : n ≤ EntityId.indexCount) :
    (History.after (creations n)).allocator = ⟨Array.replicate n 0, .empty, .empty⟩ := by
  induction n with
  | zero => rfl
  | succ n ih =>
    rw [creations_succ, History.after_concat, History.step, ih (Nat.le_of_succ_le h), act,
      settle_snd]
    obtain ⟨index, free, hmany, -, -⟩ | ⟨-, -, hcreate⟩ | ⟨-, hfull, -⟩ :=
      create_cases ⟨Array.replicate n 0, .empty, .empty⟩
    · exact absurd hmany (by simp [freeCount, Queue.empty])
    · rw [hcreate, Array.replicate_succ]
    · rw [size, Array.size_replicate] at hfull
      exact absurd h (Nat.not_le_of_lt (Nat.lt_succ_of_le hfull))

theorem disciplined_creations (n : Nat) : Disciplined (creations n) := by
  induction n with
  | zero => exact .nil
  | succ n ih =>
    rw [creations_succ]
    exact ih.concat (by simp)

/-- When every index has been handed out, the next id is refused. -/
theorem indices_never_go_wrong_full :
    Disciplined (creations (2 ^ 24)) ∧
      (History.after (creations (2 ^ 24))).allocator.create.1 = .error .exhausted ∧
      2 ^ 24 - 1024 ≤ (History.after (creations (2 ^ 24))).held.card := by
  obtain ⟨-, -, -, -, -, hrefused, hheld, -⟩ := indices_never_go_wrong (creations (2 ^ 24))
  have hfull := after_creations (show 2 ^ 24 ≤ EntityId.indexCount from Nat.le_refl _)
  have hcreate := (hrefused .exhausted).mpr ⟨rfl, by
    rw [hfull]
    exact ⟨Nat.zero_le _, Array.size_replicate⟩⟩
  exact ⟨disciplined_creations _, hcreate, (hheld _ hcreate).2 (disciplined_creations _)⟩

end UnitBake.Allocator
