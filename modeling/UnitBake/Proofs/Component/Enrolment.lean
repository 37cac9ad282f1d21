/-
# Registries that come of registrations

Registrations are asked for one after the other (`Registry.Enrolment`); one whose name collides with
another is refused and changes nothing.  Those that are not refused determine the registry: under a
type id it holds the latest accepted registration whose name hashes to it (`get?_after`), and all of
them have one name (`name_eq_of_accepted`).

So a name that was registered finds its own registration.  A name that was not finds one all the
same if it has the hash of one that was, and only then (`recognised_iff`, `get?_eq_none_iff`).
-/
import Mathlib.Data.List.Induction
import UnitBake.Component.Registry

namespace UnitBake.Registry

/-! ## 1. One registration -/

/-- A registration that is accepted is found under the hash of its name, and nothing else changes. -/
theorem get?_of_register {r : Registry} {name : String} {encoder : Encoder} {order : UInt32}
    {added : Traced Registry} (h : r.register name encoder order = .ok added) (t : TypeId) :
    added.result.types.get? t =
      if t = .ofName name then some ⟨name, order, encoder⟩ else r.types.get? t := by
  unfold register at h
  simp only at h
  split at h
  · obtain rfl := Except.ok.inj h
    exact Table.get?_insert ..
  · split at h
    · obtain rfl := Except.ok.inj h
      exact Table.get?_insert ..
    · cases h

/-! ## 2. Enrolments -/

/-- A registry and the registrations that were accepted, in order. -/
structure Enrolment where
  registry : Registry
  accepted : List Registration

namespace Enrolment

/-- Nothing has been asked for. -/
def start : Enrolment := ⟨.empty, []⟩

/-- One more registration is asked for. -/
def ask (e : Enrolment) (x : Registration) : Enrolment :=
  match e.registry.register x.name x.encoder x.spawnOrder with
  | .ok added => ⟨added.result, e.accepted ++ [x]⟩
  | .error _ => e

/-- What comes of registrations that are asked for in order. -/
def after (asked : List Registration) : Enrolment := asked.foldl ask start

theorem after_concat (asked : List Registration) (x : Registration) :
    after (asked ++ [x]) = (after asked).ask x := by
  rw [after, List.foldl_append]
  rfl

/-- A registration is accepted unless its name has the hash of another registered name. -/
theorem ask_cases (e : Enrolment) (x : Registration) :
    ((∀ y, e.registry.types.get? (.ofName x.name) = some y → y.name = x.name) ∧
        e.ask x = ⟨.ofTypes (e.registry.types.insert (.ofName x.name) x), e.accepted ++ [x]⟩) ∨
      ((∃ y, e.registry.types.get? (.ofName x.name) = some y ∧ y.name ≠ x.name) ∧
        e.ask x = e) := by
  cases hget : e.registry.types.get? (.ofName x.name) with
  | none =>
    left
    refine ⟨fun y hy => absurd hy (by simp), ?_⟩
    simp only [ask, register, hget]
  | some existing =>
    by_cases hname : existing.name = x.name
    · left
      refine ⟨fun y hy => Option.some.inj hy ▸ hname, ?_⟩
      simp only [ask, register, hget, if_pos hname]
    · right
      refine ⟨⟨existing, rfl, hname⟩, ?_⟩
      simp only [ask, register, hget, if_neg hname]

/-! ## 3. What a registry holds -/

/-- **The registry holds the latest accepted registration of each type id.** -/
theorem get?_after (asked : List Registration) (t : TypeId) :
    (after asked).registry.types.get? t =
      ((after asked).accepted.filter fun x => TypeId.ofName x.name == t).getLast? := by
  induction asked using List.reverseRecOn with
  | nil => rfl
  | append_singleton asked x ih =>
    rw [after_concat]
    obtain ⟨-, hask⟩ | ⟨-, hask⟩ := (after asked).ask_cases x
    · rw [hask, types_ofTypes, Table.get?_insert, List.filter_append]
      by_cases ht : t = .ofName x.name
      · simp [ht]
      · simp [ht, Ne.symm ht, ih]
    · rw [hask]
      exact ih

/-- What the registry holds under a type id was accepted, and its name has this id. -/
theorem mem_accepted_of_get? {asked : List Registration} {t : TypeId} {x : Registration}
    (h : (after asked).registry.types.get? t = some x) :
    x ∈ (after asked).accepted ∧ TypeId.ofName x.name = t := by
  rw [get?_after] at h
  obtain ⟨hmem, hname⟩ := List.mem_filter.mp (List.mem_of_getLast? h)
  exact ⟨hmem, by simpa using hname⟩

/-- Under the type id of an accepted registration the registry holds one. -/
theorem exists_get?_of_mem {asked : List Registration} {x : Registration}
    (h : x ∈ (after asked).accepted) :
    ∃ y, (after asked).registry.types.get? (.ofName x.name) = some y := by
  rw [get?_after]
  refine Option.ne_none_iff_exists'.mp fun hnone => ?_
  have hempty := List.getLast?_eq_none_iff.mp hnone
  exact absurd (List.mem_filter.mpr ⟨h, by simp⟩) (hempty ▸ List.not_mem_nil)

/-- **Accepted names with one hash are one name.** -/
theorem name_eq_of_accepted {asked : List Registration} {x y : Registration}
    (hx : x ∈ (after asked).accepted) (hy : y ∈ (after asked).accepted)
    (h : TypeId.ofName x.name = TypeId.ofName y.name) : x.name = y.name := by
  induction asked using List.reverseRecOn generalizing x y with
  | nil => exact absurd hx (by simp [after, start])
  | append_singleton asked z ih =>
    rw [after_concat] at hx hy
    obtain ⟨hfits, hask⟩ | ⟨-, hask⟩ := (after asked).ask_cases z
    · -- an accepted name agrees with what the registry held under its hash
      have hlast : ∀ w ∈ (after asked).accepted, TypeId.ofName w.name = TypeId.ofName z.name →
          w.name = z.name := by
        intro w hw hhash
        obtain ⟨held, hheld⟩ := exists_get?_of_mem hw
        obtain ⟨hmem, hname⟩ := mem_accepted_of_get? hheld
        rw [hhash] at hheld
        exact (ih hw hmem hname.symm).trans (hfits held hheld)
      rw [hask, List.mem_append, List.mem_singleton] at hx hy
      rcases hx with hx | rfl <;> rcases hy with hy | rfl
      · exact ih hx hy h
      · exact hlast x hx h
      · exact (hlast y hy h.symm).symm
      · rfl
    · rw [hask] at hx hy
      exact ih hx hy h

end Enrolment

/-! ## 4. Registered names -/

/-- A name is registered if a registration under it was accepted. -/
def Registered (asked : List Registration) (name : String) : Prop :=
  ∃ x ∈ (Enrolment.after asked).accepted, x.name = name

/-- What is found under the hash of a registered name is a registration of that name. -/
theorem Registered.name_of_get? {asked : List Registration} {name : String}
    (h : Registered asked name) {x : Registration}
    (hget : (Enrolment.after asked).registry.types.get? (.ofName name) = some x) :
    x.name = name := by
  obtain ⟨y, hy, rfl⟩ := h
  obtain ⟨hx, hhash⟩ := Enrolment.mem_accepted_of_get? hget
  exact Enrolment.name_eq_of_accepted hx hy hhash

/-- A name is recognised if it has the hash of a registered one. -/
def Recognised (asked : List Registration) (name : String) : Prop :=
  ∃ registered, Registered asked registered ∧ TypeId.ofName registered = .ofName name

/-- **Something is found under a name exactly if the name is recognised.** -/
theorem recognised_iff (asked : List Registration) (name : String) :
    Recognised asked name ↔
      ∃ x, (Enrolment.after asked).registry.types.get? (.ofName name) = some x := by
  constructor
  · rintro ⟨-, ⟨x, hx, rfl⟩, hhash⟩
    rw [← hhash]
    exact Enrolment.exists_get?_of_mem hx
  · rintro ⟨x, hget⟩
    obtain ⟨hx, hhash⟩ := Enrolment.mem_accepted_of_get? hget
    exact ⟨x.name, ⟨x, hx, rfl⟩, hhash⟩

theorem contains_iff (asked : List Registration) (name : String) :
    (Enrolment.after asked).registry.contains name = true ↔ Recognised asked name := by
  rw [recognised_iff]
  exact Option.isSome_iff_exists

/-- No encoder is found for a name that is not recognised, and only for those. -/
theorem get?_eq_none_iff (asked : List Registration) (name : String) :
    (Enrolment.after asked).registry.get? (.ofName name) = none ↔ ¬ Recognised asked name := by
  rw [recognised_iff, get?, Option.map_eq_none_iff, Option.eq_none_iff_forall_ne_some, not_exists]

end UnitBake.Registry
