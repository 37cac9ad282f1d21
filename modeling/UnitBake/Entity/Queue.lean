/-
# A queue

The free-index queue of the specification (section 3).

First in, first out, with the length at hand.  The queue is two lists, the front in order and the
back reversed; `toList` is the view that its operations are described by.
-/
namespace UnitBake

/-- A queue of values, oldest first in `toList`. -/
structure Queue (α : Type) where
  front : List α
  back : List α
  size : Nat
  size_eq : size = front.length + back.length

namespace Queue

variable {α : Type}

/-- The values, oldest first. -/
def toList (q : Queue α) : List α := q.front ++ q.back.reverse

/-- No values. -/
def empty : Queue α := ⟨[], [], 0, rfl⟩

/-- Adds a value at the end. -/
def push (q : Queue α) (x : α) : Queue α :=
  ⟨q.front, x :: q.back, q.size + 1, by simp [q.size_eq]; omega⟩

/-- Takes the oldest value. -/
def pop? (q : Queue α) : Option (α × Queue α) :=
  match hf : q.front with
  | x :: front => some (x, ⟨front, q.back, q.size - 1, by simp [q.size_eq, hf]⟩)
  | [] =>
    match hb : q.back.reverse with
    | [] => none
    | x :: front =>
      some (x, ⟨front, [], q.size - 1, by
        have h := congrArg List.length hb
        simp at h
        simp [q.size_eq, hf, h]⟩)

@[simp] theorem toList_empty : (empty : Queue α).toList = [] := rfl

@[simp] theorem toList_push (q : Queue α) (x : α) : (q.push x).toList = q.toList ++ [x] := by
  simp [toList, push]

theorem length_toList (q : Queue α) : q.toList.length = q.size := by
  simp [toList, q.size_eq]

/-- Taking gives nothing exactly from an empty queue. -/
theorem pop?_eq_none_iff (q : Queue α) : q.pop? = none ↔ q.toList = [] := by
  unfold pop? toList
  split
  · next hf => simp [hf]
  · next hf =>
    split
    · next hb => simp [hf, hb]
    · next hb => simp [hf, hb]

/-- Taking gives the head of the view and leaves its tail. -/
theorem toList_of_pop? {q r : Queue α} {x : α} (h : q.pop? = some (x, r)) :
    q.toList = x :: r.toList := by
  unfold pop? at h
  split at h
  · next hf =>
    obtain ⟨rfl, rfl⟩ := Prod.mk.inj (Option.some.inj h)
    simp [toList, hf]
  · next hf =>
    split at h
    · cases h
    · next hb =>
      obtain ⟨rfl, rfl⟩ := Prod.mk.inj (Option.some.inj h)
      simp [toList, hf, hb]

end Queue

end UnitBake
