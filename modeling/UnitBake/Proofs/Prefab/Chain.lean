/-
# The chain of a unit

`Prefab.chain` walks from parent to parent.  What it finds is what the parents' names lead to in the
source, from the unit up to a root (`Prefab.ancestry_of_ancestors`).
Neither the chain nor what becomes of it depends on the name of the unit, which only faults and events
show (`Prefab.toOption_resolve`).
-/
import UnitBake.Prefab
import UnitBake.Proofs.Result

namespace UnitBake.Prefab

/-! ## 1. Ancestors -/

/-- `ancestors` are the ancestors of a document, the parent first: each is read from the source under
the name that the document before it gives for its parent, and the last names none. -/
inductive Ancestry (source : Source) : Document → List Document → Prop where
  | root {d : Document} (h : d.parent = none) : Ancestry source d []
  | child {d document : Document} {parent : String} {tree : Json} {rest : List Document}
      (hparent : d.parent = some parent) (hread : source.readUnit parent = .ok tree)
      (hdocument : Document.ofJson tree parent = .ok document)
      (hrest : Ancestry source document rest) : Ancestry source d (document :: rest)

/-- The walk from parent to parent finds the ancestors, and no more than are allowed. -/
theorem ancestry_of_ancestors {source : Source} {tooDeep : Fault} :
    ∀ {allowed : Nat} {d : Document} {documents : List Document},
      ancestors source tooDeep allowed d = .ok documents →
        Ancestry source d documents ∧ documents.length ≤ allowed
  | allowed, d, documents, h => by
    rw [ancestors] at h
    cases hparent : d.parent with
    | none =>
      simp only [hparent] at h
      rw [← Except.ok.inj h]
      exact ⟨Ancestry.root hparent, Nat.zero_le _⟩
    | some parent =>
      simp only [hparent] at h
      cases allowed with
      | zero => cases h
      | succ allowed =>
        obtain ⟨tree, hread, h⟩ := bind_eq_ok.mp h
        obtain ⟨document, hdocument, h⟩ := bind_eq_ok.mp h
        obtain ⟨rest, hrest, h⟩ := bind_eq_ok.mp h
        obtain ⟨hancestry, hlength⟩ := ancestry_of_ancestors hrest
        rw [← Except.ok.inj h]
        exact ⟨Ancestry.child hparent hread hdocument hancestry, Nat.succ_le_succ hlength⟩

/-- The chain of a unit is the unit before its ancestors. -/
theorem ancestry_of_chain {source : Source} {limit : Nat} {unit : String} {leaf : Document}
    {documents : List Document} (h : chain source limit unit leaf = .ok documents) :
    ∃ above, documents = leaf :: above ∧ Ancestry source leaf above ∧
      above.length ≤ limit - 1 := by
  rw [chain] at h
  obtain ⟨above, hwalk, rfl⟩ := map_eq_ok.mp h
  exact ⟨above, rfl, ancestry_of_ancestors hwalk⟩

end Prefab

/-! ## 2. Resolution does not see the name of the unit -/

namespace Prefab

theorem toOption_ancestors (source : Source) (e e' : Fault) :
    ∀ (allowed : Nat) (d : Document),
      (ancestors source e allowed d).toOption = (ancestors source e' allowed d).toOption
  | 0, d => by
    rw [ancestors, ancestors]
    cases d.parent <;> rfl
  | allowed + 1, d => by
    rw [ancestors, ancestors]
    cases d.parent with
    | none => rfl
    | some parent =>
      simp only [toOption_bind, toOption_ancestors source e e' allowed]

theorem toOption_chain (source : Source) (limit : Nat) (u u' : String) (leaf : Document) :
    (chain source limit u leaf).toOption = (chain source limit u' leaf).toOption := by
  rw [chain, chain, toOption_map, toOption_map,
    toOption_ancestors source (.prefabTooDeep u limit) (.prefabTooDeep u' limit)]

/-- Applying overrides names the unit in events only. -/
theorem result_apply (u u' : String) (root : List Component) :
    ∀ (overrides : List (String × Component)) (working : List Component),
      (apply u root overrides working).result = (apply u' root overrides working).result
  | [], _ => rfl
  | (key, replacement) :: rest, working => by
    rw [apply, apply]
    cases Document.overrideId key with
    | error e => rfl
    | ok id =>
      simp only []
      cases root.findIdx? fun c => c.id == some id with
      | some place => exact result_apply u u' root rest _
      | none => exact result_apply u u' root rest working

theorem result_resolveChain (u u' : String) (documents : List Document) :
    (resolveChain u documents).result = (resolveChain u' documents).result := by
  match documents with
  | [] => rfl
  | [_] => rfl
  | _ :: _ :: _ => exact result_apply u u' _ _ _

theorem toOption_ofJson (tree : Json) (u u' : String) :
    (Document.ofJson tree u).toOption = (Document.ofJson tree u').toOption := by
  rw [Document.ofJson, Document.ofJson, toOption_mapError, toOption_mapError]

/-- The result of a resolution is that of its chain, where there is one. -/
theorem result_resolve (source : Source) (limit : Nat) (tree : Json) (u : String) :
    (resolve source limit tree u).result =
      (Document.ofJson tree u >>= chain source limit u) >>= fun documents =>
        (resolveChain u documents).result := by
  rw [resolve]
  cases Document.ofJson tree u >>= chain source limit u <;> rfl

/-- **The components of a unit do not depend on its name.** -/
theorem toOption_resolve (source : Source) (limit : Nat) (tree : Json) (u u' : String) :
    (resolve source limit tree u).result.toOption =
      (resolve source limit tree u').result.toOption := by
  simp only [result_resolve, toOption_bind, toOption_ofJson tree u u',
    toOption_chain source limit u u', result_resolveChain u u']

end UnitBake.Prefab
