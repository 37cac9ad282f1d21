/-
# Computations that can fail

Computations of several steps are taken apart here: into their first step and the rest of them
(`bind_eq_ok`), or without the errors (`toOption_bind`), where only success matters.  What is said of
errors alone (`FailsOnly`) goes along with the steps in both directions: from the steps to the
computation (`FailsOnly.bind`), and from the computation to each step (`FailsOnly.of_bind`).  Where
the members of a list are checked in turn, the one that fails is told together with those that have
passed before it (`First`).
-/
namespace UnitBake

/-! ## 1. Results without their errors -/

theorem toOption_bind {ε α β : Type} (x : Except ε α) (f : α → Except ε β) :
    (x >>= f).toOption = x.toOption.bind fun a => (f a).toOption := by
  cases x <;> rfl

theorem toOption_map {ε α β : Type} (x : Except ε α) (f : α → β) :
    (x.map f).toOption = x.toOption.map f := by
  cases x <;> rfl

theorem toOption_mapError {ε ε' α : Type} (x : Except ε α) (f : ε → ε') :
    (x.mapError f).toOption = x.toOption := by
  cases x <;> rfl

theorem eq_ok_of_toOption {ε α : Type} {x : Except ε α} {a : α} (h : x.toOption = some a) :
    x = .ok a := by
  cases x with
  | error e => cases h
  | ok b => rw [Option.some.inj h]

theorem eq_error_of_toOption {ε α : Type} {x : Except ε α} (h : x.toOption = none) :
    ∃ e, x = .error e := by
  cases x with
  | error e => exact ⟨e, rfl⟩
  | ok b => cases h

/-! ## 2. Steps -/

/-- A computation in two steps succeeds if both steps do. -/
theorem bind_eq_ok {ε α β : Type} {x : Except ε α} {f : α → Except ε β} {b : β} :
    x >>= f = .ok b ↔ ∃ a, x = .ok a ∧ f a = .ok b := by
  cases x with
  | error e =>
    constructor
    · intro h
      cases h
    · rintro ⟨a, h, -⟩
      cases h
  | ok a =>
    constructor
    · intro h
      exact ⟨a, rfl, h⟩
    · rintro ⟨a', h, hf⟩
      obtain rfl := Except.ok.inj h
      exact hf

/-- It fails if one of them does, the second only after the first. -/
theorem bind_eq_error {ε α β : Type} {x : Except ε α} {f : α → Except ε β} {e : ε} :
    x >>= f = .error e ↔ x = .error e ∨ ∃ a, x = .ok a ∧ f a = .error e := by
  cases x with
  | error e' =>
    constructor
    · intro h
      exact Or.inl (congrArg Except.error (Except.error.inj h))
    · rintro (h | ⟨a, h, -⟩)
      · exact congrArg Except.error (Except.error.inj h)
      · cases h
  | ok a =>
    constructor
    · intro h
      exact Or.inr ⟨a, rfl, h⟩
    · rintro (h | ⟨a', h, hf⟩)
      · cases h
      · obtain rfl := Except.ok.inj h
        exact hf

theorem map_eq_ok {ε α β : Type} {x : Except ε α} {f : α → β} {b : β} :
    x.map f = .ok b ↔ ∃ a, x = .ok a ∧ f a = b := by
  cases x <;> simp [Except.map]

theorem map_eq_error {ε α β : Type} {x : Except ε α} {f : α → β} {e : ε} :
    x.map f = .error e ↔ x = .error e := by
  cases x <;> simp [Except.map]

theorem mapError_eq_ok {ε ε' α : Type} {x : Except ε α} {f : ε → ε'} {a : α} :
    x.mapError f = .ok a ↔ x = .ok a := by
  cases x with
  | error e =>
    constructor
    · intro h
      cases h
    · intro h
      cases h
  | ok b =>
    constructor
    · intro h
      rw [Except.ok.inj h]
    · intro h
      rw [Except.ok.inj h]
      rfl

theorem mapError_eq_error {ε ε' α : Type} {x : Except ε α} {f : ε → ε'} {e' : ε'} :
    x.mapError f = .error e' ↔ ∃ e, x = .error e ∧ e' = f e := by
  cases x with
  | error e =>
    constructor
    · intro h
      exact ⟨e, rfl, (Except.error.inj h).symm⟩
    · rintro ⟨_, h, rfl⟩
      rw [Except.error.inj h]
      rfl
  | ok a =>
    constructor
    · intro h
      cases h
    · rintro ⟨_, h, -⟩
      cases h

/-! ## 3. Errors -/

/-- If the computation fails, its error is one of these. -/
def FailsOnly {ε α : Type} (P : ε → Prop) (x : Except ε α) : Prop := ∀ e, x = .error e → P e

namespace FailsOnly

variable {ε α β : Type} {P : ε → Prop}

theorem of_ok {x : Except ε α} {a : α} (h : x = .ok a) : FailsOnly P x := by
  intro e he
  rw [h] at he
  cases he

theorem of_error {x : Except ε α} {e : ε} (h : x = .error e) (he : P e) : FailsOnly P x := by
  intro e' he'
  rw [h] at he'
  exact Except.error.inj he' ▸ he

theorem ok (a : α) : FailsOnly P (.ok a) := of_ok rfl

theorem error {e : ε} (he : P e) : FailsOnly P (.error e : Except ε α) := of_error rfl he

/-- A computation fails as its steps do. -/
theorem bind {x : Except ε α} {f : α → Except ε β} (hx : FailsOnly P x)
    (hf : ∀ a, FailsOnly P (f a)) : FailsOnly P (x >>= f) := by
  cases x with
  | error e => exact error (hx e rfl)
  | ok a => exact hf a

theorem map {x : Except ε α} (f : α → β) (hx : FailsOnly P x) : FailsOnly P (x.map f) := by
  cases x with
  | error e => exact error (hx e rfl)
  | ok a => exact ok (f a)

theorem mapError {ε' : Type} (x : Except ε' α) {f : ε' → ε} (hf : ∀ e, P (f e)) :
    FailsOnly P (x.mapError f) := by
  cases x with
  | error e => exact error (hf e)
  | ok a => exact ok a

/-- The steps that are taken fail as the computation does. -/
theorem of_bind {x : Except ε α} {f : α → Except ε β} (h : FailsOnly P (x >>= f)) :
    FailsOnly P x ∧ ∀ a, x = .ok a → FailsOnly P (f a) := by
  constructor
  · intro e he
    refine h e ?_
    rw [he]
    rfl
  · intro a ha
    rwa [ha] at h

theorem of_map {x : Except ε α} {f : α → β} (h : FailsOnly P (x.map f)) : FailsOnly P x := by
  intro e he
  refine h e ?_
  rw [he]
  rfl

end FailsOnly

/-! ## 4. Searching a list -/

/-- Some member of the list is as searched for, and all members before it are to be passed. -/
def First {α : Type} (Passed Found : α → Prop) (xs : List α) : Prop :=
  ∃ front x back, xs = front ++ x :: back ∧ (∀ y ∈ front, Passed y) ∧ Found x

namespace First

variable {α β : Type} {Passed Found : α → Prop}

@[simp] theorem nil_iff : First Passed Found [] ↔ False := by
  simp [First]

/-- The first member is as searched for, or it is passed. -/
theorem cons_iff {x : α} {xs : List α} :
    First Passed Found (x :: xs) ↔ Found x ∨ Passed x ∧ First Passed Found xs := by
  constructor
  · rintro ⟨front, y, back, hsplit, hfront, hy⟩
    rcases List.cons_eq_append_iff.mp hsplit with ⟨rfl, hcons⟩ | ⟨front, rfl, rfl⟩
    · obtain ⟨rfl, -⟩ := List.cons.inj hcons
      exact Or.inl hy
    · obtain ⟨hx, hfront⟩ := List.forall_mem_cons.mp hfront
      exact Or.inr ⟨hx, front, y, back, rfl, hfront, hy⟩
  · rintro (hx | ⟨hx, front, y, back, rfl, hfront, hy⟩)
    · exact ⟨[], x, xs, rfl, by simp, hx⟩
    · exact ⟨x :: front, y, back, rfl, List.forall_mem_cons.mpr ⟨hx, hfront⟩, hy⟩

theorem append_iff {xs ys : List α} :
    First Passed Found (xs ++ ys) ↔
      First Passed Found xs ∨ (∀ x ∈ xs, Passed x) ∧ First Passed Found ys := by
  induction xs with
  | nil => simp
  | cons x xs ih =>
    rw [List.cons_append, cons_iff, cons_iff, ih, List.forall_mem_cons, and_or_left, or_assoc,
      and_assoc]

/-- Lists in a list are searched one after the other. -/
theorem flatMap_iff {f : β → List α} {zs : List β} :
    First Passed Found (zs.flatMap f) ↔
      First (fun z => ∀ x ∈ f z, Passed x) (fun z => First Passed Found (f z)) zs := by
  induction zs with
  | nil => simp
  | cons z zs ih => rw [List.flatMap_cons, append_iff, cons_iff, ih]

/-- If not all members pass, there is a first that does not. -/
theorem of_not_forall {xs : List α} (h : ¬ ∀ x ∈ xs, Passed x) :
    First Passed (fun x => ¬ Passed x) xs := by
  induction xs with
  | nil => exact absurd (List.forall_mem_nil _) h
  | cons x xs ih =>
    rw [cons_iff]
    by_cases hx : Passed x
    · exact Or.inr ⟨hx, ih fun hxs => h (List.forall_mem_cons.mpr ⟨hx, hxs⟩)⟩
    · exact Or.inl hx

theorem exists_mem {xs : List α} (h : First Passed Found xs) : ∃ x ∈ xs, Found x := by
  obtain ⟨front, x, back, rfl, -, hx⟩ := h
  exact ⟨x, List.mem_append_right _ List.mem_cons_self, hx⟩

end First

end UnitBake
