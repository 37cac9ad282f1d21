/-
# The spawn order is the map of registrations in another order

What a `Registry` carries says of its listing that it holds one slot for each registered type
(`Registry.mem_spawnOrder`), and that the slots rise strictly by spawn order and then by type id
(`Registry.spawnOrder_sorted`).  So a registered type is never missing from it, and the order of two
types is decided by their registrations alone (`Registry.Precedes`).
-/
import UnitBake.Component.Registry

namespace UnitBake.Registry

/-- **Every registered type has its slot**, and every slot is that of a registered type. -/
theorem mem_spawnOrder (r : Registry) (s : SpawnSlot) :
    s ∈ r.spawnOrder ↔
      ∃ registration, r.types.get? s.typeId = some registration ∧
        registration.spawnOrder = s.spawnOrder := by
  rw [r.spawnOrder_perm.mem_iff, slotsOf, List.mem_map]
  constructor
  · rintro ⟨⟨t, registration⟩, hmem, rfl⟩
    exact ⟨registration, (r.types.mem_entries_iff t registration).mp hmem, rfl⟩
  · rintro ⟨registration, hget, horder⟩
    refine ⟨(s.typeId, registration), (r.types.mem_entries_iff _ _).mpr hget, ?_⟩
    rw [horder]

/-- Both types are registered, and the first comes before the second by spawn order and then by
type id. -/
def Precedes (r : Registry) (t u : TypeId) : Prop :=
  ∃ a b, r.types.get? t = some a ∧ r.types.get? u = some b ∧
    SpawnSlot.Before ⟨a.spawnOrder, t⟩ ⟨b.spawnOrder, u⟩

/-- No type precedes itself. -/
theorem not_precedes_self (r : Registry) (t : TypeId) : ¬ r.Precedes t t := by
  rintro ⟨a, b, ha, hb, h⟩
  have hab : a = b := Option.some.inj (ha.symm.trans hb)
  subst hab
  exact SpawnSlot.not_before_self _ h

/-- The types of the spawn order precede one another as they stand. -/
theorem spawnOrder_precedes (r : Registry) :
    r.spawnOrder.Pairwise fun s t => r.Precedes s.typeId t.typeId := by
  refine (List.pairwise_iff_forall_sublist.mpr ?_)
  intro s t hsub
  have hbefore := (List.pairwise_iff_forall_sublist.mp r.spawnOrder_sorted) hsub
  obtain ⟨a, ha, hao⟩ := (r.mem_spawnOrder s).mp (hsub.subset List.mem_cons_self)
  obtain ⟨b, hb, hbo⟩ :=
    (r.mem_spawnOrder t).mp (hsub.subset (List.mem_cons_of_mem _ List.mem_cons_self))
  exact ⟨a, b, ha, hb, by rw [hao, hbo]; exact hbefore⟩

end UnitBake.Registry
