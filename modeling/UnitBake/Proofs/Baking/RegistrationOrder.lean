/-
# The order of registrations never shows

A registry holds for every name its latest registration and nothing of those before it, and carries the
listing of what it holds in spawn order.  So each registered type has one slot, with the spawn order of the
latest registration of its name (`mem_spawnOrder_after`).

If no two names collide, no registration is refused (`accepted_eq_of_apart`), and what the registry
holds under a type id is a matter of the latest registration of the name with this id
(`getLast?_filter_typeId`).  Two lists of registrations that agree on the latest one of every name
therefore lead to one registry (`registry_eq_of_latest?`), whatever their order and whatever was
registered in between, and baking with one registry is one and the same.
-/
import UnitBake.Proofs.Baking.Requests
import UnitBake.Proofs.Component.Enrolment
import UnitBake.Proofs.Component.SpawnOrder

namespace UnitBake.Registry

/-! ## 1. The latest registration of a name -/

/-- The latest of some registrations of a name. -/
def latest? (registrations : List Registration) (name : String) : Option Registration :=
  (registrations.filter fun x => x.name == name).getLast?

/-- No two of the names collide. -/
def Apart (registrations : List Registration) : Prop :=
  ∀ x ∈ registrations, ∀ y ∈ registrations,
    TypeId.ofName x.name = TypeId.ofName y.name → x.name = y.name

theorem Apart.of_subset {registrations fewer : List Registration} (h : Apart registrations)
    (hsub : fewer ⊆ registrations) : Apart fewer :=
  fun x hx y hy => h x (hsub hx) y (hsub hy)

theorem apart_accepted (asked : List Registration) : Apart (Enrolment.after asked).accepted :=
  fun _ hx _ hy => Enrolment.name_eq_of_accepted hx hy

/-- What is found under a name was registered under it. -/
theorem name_of_latest? {registrations : List Registration} {name : String} {x : Registration}
    (h : latest? registrations name = some x) : x ∈ registrations ∧ x.name = name := by
  obtain ⟨hmem, hname⟩ := List.mem_filter.mp (List.mem_of_getLast? h)
  exact ⟨hmem, eq_of_beq hname⟩

/-- **Names that do not collide stand for their type ids**: the latest registration of a type id is
that of the name with this id. -/
theorem getLast?_filter_typeId {registrations names : List Registration} (h : Apart names)
    (hsub : registrations ⊆ names) {x : Registration} (hx : x ∈ names) :
    (registrations.filter fun y => TypeId.ofName y.name == .ofName x.name).getLast? =
      latest? registrations x.name := by
  rw [latest?]
  refine congrArg List.getLast? (List.filter_congr ?_)
  intro y hy
  rw [Bool.eq_iff_iff, beq_iff_eq, beq_iff_eq]
  constructor
  · intro hhash
    exact h y (hsub hy) x hx hhash
  · intro hname
    rw [hname]

/-! ## 2. The slots of a registry -/

/-- The registry holds the latest accepted registration of every name. -/
theorem get?_after_ofName {asked : List Registration} {x : Registration}
    (hx : x ∈ (Enrolment.after asked).accepted) :
    (Enrolment.after asked).registry.types.get? (.ofName x.name) =
      latest? (Enrolment.after asked).accepted x.name := by
  rw [Enrolment.get?_after]
  exact getLast?_filter_typeId (apart_accepted asked) (List.Subset.refl _) hx

/-- **The slots are those of the latest registrations.** -/
theorem mem_spawnOrder_after (asked : List Registration) (slot : SpawnSlot) :
    slot ∈ (Enrolment.after asked).registry.spawnOrder ↔
      ∃ name x, latest? (Enrolment.after asked).accepted name = some x ∧
        slot = ⟨x.spawnOrder, .ofName name⟩ := by
  rw [mem_spawnOrder]
  constructor
  · rintro ⟨x, hget, horder⟩
    obtain ⟨hx, htype⟩ := Enrolment.mem_accepted_of_get? hget
    refine ⟨x.name, x, ?_, ?_⟩
    · rw [← get?_after_ofName hx, htype]
      exact hget
    · rw [htype, horder]
  · rintro ⟨name, x, hlatest, rfl⟩
    obtain ⟨hx, rfl⟩ := name_of_latest? hlatest
    exact ⟨x, (get?_after_ofName hx).trans hlatest, rfl⟩

/-- Each registered type has one slot. -/
theorem typeIds_spawnOrder_perm (r : Registry) :
    (r.spawnOrder.map (·.typeId)).Perm r.types.keys := by
  have hperm := r.spawnOrder_perm.map (·.typeId)
  rw [slotsOf, List.map_map] at hperm
  exact hperm

/-! ## 3. Registries with the same latest registrations -/

/-- If no names collide, no registration is refused. -/
theorem accepted_eq_of_apart {asked : List Registration} (h : Apart asked) :
    (Enrolment.after asked).accepted = asked := by
  induction asked using List.reverseRecOn with
  | nil => rfl
  | append_singleton asked x ih =>
    have haccepted := ih (h.of_subset (List.subset_append_left _ _))
    rw [Enrolment.after_concat]
    obtain ⟨-, hask⟩ | ⟨⟨y, hget, hname⟩, -⟩ := (Enrolment.after asked).ask_cases x
    · rw [hask, haccepted]
    · obtain ⟨hy, hhash⟩ := Enrolment.mem_accepted_of_get? hget
      rw [haccepted] at hy
      exact absurd (h y (by simp [hy]) x (by simp) hhash) hname

/-- **The latest registrations determine the registry**, if no names collide. -/
theorem registry_eq_of_latest? {asked asked' : List Registration} (h : Apart (asked ++ asked'))
    (hlatest : ∀ name, latest? asked name = latest? asked' name) :
    (Enrolment.after asked).registry = (Enrolment.after asked').registry := by
  have hsub : asked ⊆ asked ++ asked' := List.subset_append_left _ _
  have hsub' : asked' ⊆ asked ++ asked' := List.subset_append_right _ _
  refine ext_types (Table.ext_get? ?_)
  intro t
  rw [Enrolment.get?_after, Enrolment.get?_after, accepted_eq_of_apart (h.of_subset hsub),
    accepted_eq_of_apart (h.of_subset hsub')]
  by_cases ht : ∃ x ∈ asked ++ asked', TypeId.ofName x.name = t
  · obtain ⟨x, hx, rfl⟩ := ht
    rw [getLast?_filter_typeId h hsub hx, getLast?_filter_typeId h hsub' hx, hlatest]
  · -- no name has this id, in either list
    have hnone : ∀ xs : List Registration, xs ⊆ asked ++ asked' →
        (xs.filter fun x => TypeId.ofName x.name == t) = [] := by
      intro xs hxs
      refine List.filter_eq_nil_iff.mpr fun x hx htype => ?_
      exact ht ⟨x, hxs hx, eq_of_beq htype⟩
    rw [hnone asked hsub, hnone asked' hsub']

/-- Two registries give the same answers, and any job is baked alike with both, whatever the content
and from any batch: with the same faults and events to the same batch, and to the same bytes in the
end. -/
structure Alike (r r' : Registry) : Prop where
  lookup? (name : String) : r.lookup? name = r'.lookup? name
  contains (name : String) : r.contains name = r'.contains name
  get? (t : TypeId) : r.get? t = r'.get? t
  name? (t : TypeId) : r.name? t = r'.name? t
  size : r.size = r'.size
  spawnOrder : r.spawnOrder = r'.spawnOrder
  serveAll (source : Source) (depth : Nat) (batch : Batch) (requests : List Request) :
    (Baker.mk r source depth).serveAll batch requests =
      (Baker.mk r' source depth).serveAll batch requests
  finalize (source : Source) (depth : Nat) (batch : Batch) :
    (Baker.mk r source depth).finalize batch = (Baker.mk r' source depth).finalize batch

theorem alike_of_eq {r r' : Registry} (h : r = r') : Alike r r' := by
  subst h
  exact ⟨fun _ => rfl, fun _ => rfl, fun _ => rfl, fun _ => rfl, rfl, rfl, fun _ _ _ _ => rfl,
    fun _ _ _ => rfl⟩

/-- **The order of registrations never shows.**

After any registrations, of which those that collide are refused, each type id of the registry has one
slot in the spawn order, with the order of the latest accepted registration of its name, and the slots
rise by order and type id.

Two lists of registrations of names that do not collide, with the same latest registration of every
name, lead to registries that are alike. -/
theorem registration_order_never_shows :
    (∀ asked : List Registration,
      ((Enrolment.after asked).registry.spawnOrder.map (·.typeId)).Perm
        (Enrolment.after asked).registry.types.keys ∧
      (Enrolment.after asked).registry.types.keys.Nodup ∧
      (∀ slot, slot ∈ (Enrolment.after asked).registry.spawnOrder ↔
        ∃ name x, latest? (Enrolment.after asked).accepted name = some x ∧
          slot = ⟨x.spawnOrder, .ofName name⟩) ∧
      (Enrolment.after asked).registry.spawnOrder.Pairwise SpawnSlot.Before) ∧
    ∀ asked asked' : List Registration, Apart (asked ++ asked') →
      (∀ name, latest? asked name = latest? asked' name) →
      Alike (Enrolment.after asked).registry (Enrolment.after asked').registry := by
  constructor
  · intro asked
    exact ⟨typeIds_spawnOrder_perm _, Table.nodup_keys _, mem_spawnOrder_after asked,
      spawnOrder_sorted _⟩
  · intro asked asked' h hlatest
    exact alike_of_eq (registry_eq_of_latest? h hlatest)

/-- Two names, one of which is registered again with another order. -/
def replacing : List Registration :=
  [⟨"a", 1, byteEncoder⟩, ⟨"b", 2, byteEncoder⟩, ⟨"a", 3, byteEncoder⟩]

/-- The latest registrations of both, the other way round. -/
def direct : List Registration := [⟨"a", 3, byteEncoder⟩, ⟨"b", 2, byteEncoder⟩]

/-- Both lead to one spawn order, in which `b` comes first. -/
theorem registration_order_never_shows_replacing :
    Apart (replacing ++ direct) ∧
      (∀ name, latest? replacing name = latest? direct name) ∧
      (Enrolment.after replacing).registry.spawnOrder =
        (Enrolment.after direct).registry.spawnOrder ∧
      (Enrolment.after direct).registry.spawnOrder = [⟨2, .ofName "b"⟩, ⟨3, .ofName "a"⟩] := by
  have hapart : Apart (replacing ++ direct) := by
    unfold Apart
    decide +kernel
  have hlatest : ∀ name, latest? replacing name = latest? direct name := by
    intro name
    by_cases ha : "a" = name
    · subst ha
      rfl
    · by_cases hb : "b" = name
      · subst hb
        rfl
      · simp [latest?, replacing, direct, ha, hb]
  obtain ⟨-, halike⟩ := registration_order_never_shows
  exact ⟨hapart, hlatest, (halike replacing direct hapart hlatest).spawnOrder, by decide +kernel⟩

end UnitBake.Registry
