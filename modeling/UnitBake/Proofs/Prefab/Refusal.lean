/-
# Why a unit is refused

`Prefab.resolve` goes through its documents twice: from the unit up to the root to load them, and from
the root down to apply their overrides.  It refuses a unit for the first of these that fails
(`Prefab.Refused`):

* the shape of the unit;
* for each document from the unit up, what the walk can be held by: the limit, the parent, the shape of
  the parent (`Prefab.Held`);
* if there is a parent, the keys of the overrides, document by document from the root down, and in each
  by rising bytes.  Every key is read, also if nothing has its id or a later override takes its place.

`Prefab.result_resolve_eq_error_iff` says that a unit is refused for no other reason, and
`Prefab.exists_resolve_iff` that it is resolved if there is none.
-/
import UnitBake.Proofs.Bytes.Utf8Order
import UnitBake.Proofs.Prefab.Overrides
import UnitBake.Proofs.Prefab.Walk

namespace UnitBake

/-! ## 1. Keys of overrides -/

/-- A search of a table goes by rising keys. -/
theorem Table.first_entries_iff {α : Type} {Passed Found : String × α → Prop} (t : Table String α) :
    First Passed Found t.entries ↔
      ∃ key v, t.get? key = some v ∧ Found (key, v) ∧
        ∀ key' v', t.get? key' = some v' → utf8 key' < utf8 key → Passed (key', v') := by
  constructor
  · rintro ⟨front, ⟨key, v⟩, back, hsplit, hfront, hfound⟩
    have hsorted := t.sorted
    rw [hsplit] at hsorted
    have hback := (List.pairwise_cons.mp (List.pairwise_append.mp hsorted).2.1).1
    refine ⟨key, v, (t.mem_entries_iff key v).mp (by simp [hsplit]), hfound, ?_⟩
    intro key' v' hget hlt
    have hmem := (t.mem_entries_iff key' v').mpr hget
    rw [hsplit] at hmem
    -- what stands at the key or after it is not smaller
    rcases List.mem_append.mp hmem with hmem | hmem
    · exact hfront _ hmem
    · rcases List.mem_cons.mp hmem with heq | hmem
      · obtain ⟨rfl, -⟩ := Prod.mk.inj heq
        exact absurd hlt Std.lt_irrefl
      · exact absurd (Std.lt_trans (utf8_lt_iff.mp hlt) (hback _ hmem)) Std.lt_irrefl
  · rintro ⟨key, v, hget, hfound, hpassed⟩
    obtain ⟨front, back, hsplit⟩ := List.append_of_mem ((t.mem_entries_iff key v).mpr hget)
    refine ⟨front, (key, v), back, hsplit, ?_, hfound⟩
    intro o ho
    have hsorted := t.sorted
    have hmem := (t.mem_entries_iff o.1 o.2).mp (by simp [hsplit, ho])
    rw [hsplit] at hsorted
    have hlt := (List.pairwise_append.mp hsorted).2.2 o ho _ List.mem_cons_self
    exact hpassed o.1 o.2 hmem (utf8_lt_iff.mpr hlt)

namespace Document

/-- All keys of the overrides of a document are read as ids. -/
def KeysRead (d : Document) : Prop :=
  ∀ key c, d.overrides.get? key = some c → ∃ g, overrideId key = .ok g

/-- Of the overrides of a document the first whose key is not read as an id, by the bytes of the keys,
gives this fault, which tells the whole key. -/
def Miskeyed (d : Document) (fault : Fault) : Prop :=
  ∃ key c e, d.overrides.get? key = some c ∧
    Guid.read (String.ofList (key.toList.drop 1)) = .error e ∧ fault = .malformedKey key e ∧
    ∀ key' c', d.overrides.get? key' = some c' → utf8 key' < utf8 key →
      ∃ g, overrideId key' = .ok g

theorem overrideId_eq_error_iff {key : String} {fault : Fault} :
    overrideId key = .error fault ↔
      ∃ e, Guid.read (String.ofList (key.toList.drop 1)) = .error e ∧
        fault = .malformedKey key e :=
  mapError_eq_error

theorem keysRead_iff {d : Document} :
    d.KeysRead ↔ ∀ o ∈ d.overrides.entries, ∃ g, overrideId o.1 = .ok g := by
  constructor
  · intro h o ho
    exact h o.1 o.2 ((d.overrides.mem_entries_iff o.1 o.2).mp ho)
  · intro h key c hget
    exact h (key, c) ((d.overrides.mem_entries_iff key c).mpr hget)

theorem miskeyed_iff {d : Document} {fault : Fault} :
    d.Miskeyed fault ↔
      First (fun o => ∃ g, overrideId o.1 = .ok g) (fun o => overrideId o.1 = .error fault)
        d.overrides.entries := by
  rw [Table.first_entries_iff]
  constructor
  · rintro ⟨key, c, e, hget, hread, rfl, hpassed⟩
    exact ⟨key, c, hget, overrideId_eq_error_iff.mpr ⟨e, hread, rfl⟩, hpassed⟩
  · rintro ⟨key, c, hget, hkey, hpassed⟩
    obtain ⟨e, hread, rfl⟩ := overrideId_eq_error_iff.mp hkey
    exact ⟨key, c, e, hget, hread, rfl, hpassed⟩

end Document

namespace Prefab

/-- Applying overrides fails at the first key that is not read as an id, wherever it stands. -/
theorem result_apply_eq_error_iff {unit : String} {root : List Component} {fault : Fault} :
    ∀ {os : List (String × Component)} {working : List Component},
      (apply unit root os working).result = .error fault ↔
        First (fun o => ∃ g, Document.overrideId o.1 = .ok g)
          (fun o => Document.overrideId o.1 = .error fault) os
  | [], working => by simp [apply]
  | (key, c) :: rest, working => by
    rw [First.cons_iff]
    rcases apply_step unit root key c rest working with
      ⟨e, hkey, happly⟩ | ⟨g, working', told, hkey, -, happly⟩
    · simp [happly, hkey]
    · simpa [happly, hkey] using result_apply_eq_error_iff

/-- Overrides are applied if all their keys are read as ids. -/
theorem exists_apply_iff {unit : String} {root : List Component} :
    ∀ {os : List (String × Component)} {working : List Component},
      (∃ resolved, (apply unit root os working).result = .ok resolved) ↔
        ∀ o ∈ os, ∃ g, Document.overrideId o.1 = .ok g
  | [], working => by simp [apply]
  | (key, c) :: rest, working => by
    rw [List.forall_mem_cons]
    rcases apply_step unit root key c rest working with
      ⟨e, hkey, happly⟩ | ⟨g, working', told, hkey, -, happly⟩
    · simp [happly, hkey]
    · simpa [happly, hkey] using exists_apply_iff

/-- A chain fails at the keys of its documents, from the root down; a chain of one document has none
that count. -/
theorem result_resolveChain_eq_error_iff {unit : String} {leaf : Document} {above : List Document}
    {fault : Fault} :
    (resolveChain unit (leaf :: above)).result = .error fault ↔
      above ≠ [] ∧ First Document.KeysRead (Document.Miskeyed · fault) (leaf :: above).reverse := by
  cases above with
  | nil => simp [resolveChain]
  | cons parent rest =>
    have hkeys : ∀ d : Document, (∀ o ∈ d.overrides.entries, ∃ g, Document.overrideId o.1 = .ok g) ↔
        d.KeysRead := fun d => Document.keysRead_iff.symm
    rw [resolveChain, result_apply_eq_error_iff, overrides, First.flatMap_iff]
    simp only [hkeys, ← Document.miskeyed_iff, ne_eq, reduceCtorEq, not_false_eq_true, true_and]

/-! ## 2. Refusal -/

/-- The documents of a unit given by its tree: itself and those above it up to the root, if all can be
read and there are no more than the limit. -/
structure Loads (source : Source) (limit : Nat) (tree : Json) (leaf : Document)
    (above : List Document) : Prop where
  read : Document.read tree = .ok leaf
  ancestry : Ancestry source leaf above
  allowed : above.length ≤ limit - 1

/-- What a unit is refused for, which is the first of these that fails. -/
inductive Refused (source : Source) (limit : Nat) (tree : Json) (unit : String) : Fault → Prop where
  /-- The unit has the wrong shape. -/
  | shape {e : ShapeError} (hread : Document.read tree = .error e) :
      Refused source limit tree unit (.document unit (.shape e))
  /-- The walk is held, after going up as far as it could. -/
  | held {leaf top : Document} {above : List Document} {left : Nat} {fault : Fault}
      (hread : Document.read tree = .ok leaf) (hclimb : Climb source leaf above top)
      (hleft : limit - 1 = above.length + left)
      (hheld : Held source (.prefabTooDeep unit limit) left top fault) :
      Refused source limit tree unit fault
  /-- A key of an override is not read as an id. -/
  | key {leaf : Document} {above : List Document} {fault : Fault}
      (hloads : Loads source limit tree leaf above) (hparent : above ≠ [])
      (hkey : First Document.KeysRead (Document.Miskeyed · fault) (leaf :: above).reverse) :
      Refused source limit tree unit fault

section

variable {source : Source} {limit : Nat} {tree : Json} {unit : String}

theorem loads_iff {documents : List Document} :
    (Document.ofJson tree unit >>= chain source limit unit) = .ok documents ↔
      ∃ leaf above, documents = leaf :: above ∧ Loads source limit tree leaf above := by
  constructor
  · intro h
    obtain ⟨leaf, hleaf, hchain⟩ := bind_eq_ok.mp h
    obtain ⟨above, rfl, hancestry, hlength⟩ := ancestry_of_chain hchain
    exact ⟨leaf, above, rfl, ofJson_eq_ok_iff.mp hleaf, hancestry, hlength⟩
  · rintro ⟨leaf, above, rfl, hread, hancestry, hlength⟩
    refine bind_eq_ok.mpr ⟨leaf, ofJson_eq_ok_iff.mpr hread, ?_⟩
    rw [chain, ancestors_eq_ok_iff.mpr ⟨hancestry, hlength⟩]
    rfl

/-- **A unit is refused for the first thing that fails, and for nothing else.** -/
theorem result_resolve_eq_error_iff {fault : Fault} :
    (resolve source limit tree unit).result = .error fault ↔
      Refused source limit tree unit fault := by
  rw [result_resolve]
  constructor
  · intro h
    rcases bind_eq_error.mp h with h | ⟨documents, hdocuments, h⟩
    · rcases bind_eq_error.mp h with hleaf | ⟨leaf, hleaf, hchain⟩
      · obtain ⟨e, hread, rfl⟩ := ofJson_eq_error_iff.mp hleaf
        exact .shape hread
      · obtain ⟨above, top, left, hclimb, hleft, hheld⟩ :=
          ancestors_eq_error_iff.mp (map_eq_error.mp hchain)
        exact .held (ofJson_eq_ok_iff.mp hleaf) hclimb hleft hheld
    · obtain ⟨leaf, above, rfl, hloads⟩ := loads_iff.mp hdocuments
      obtain ⟨hparent, hkey⟩ := result_resolveChain_eq_error_iff.mp h
      exact .key hloads hparent hkey
  · rintro (hread | ⟨hread, hclimb, hleft, hheld⟩ | ⟨hloads, hparent, hkey⟩)
    · exact bind_eq_error.mpr (.inl (bind_eq_error.mpr
        (.inl (ofJson_eq_error_iff.mpr ⟨_, hread, rfl⟩))))
    · refine bind_eq_error.mpr (.inl (bind_eq_error.mpr
        (.inr ⟨_, ofJson_eq_ok_iff.mpr hread, map_eq_error.mpr ?_⟩)))
      exact ancestors_eq_error_iff.mpr ⟨_, _, _, hclimb, hleft, hheld⟩
    · exact bind_eq_error.mpr (.inr ⟨_, loads_iff.mpr ⟨_, _, rfl, hloads⟩,
        result_resolveChain_eq_error_iff.mpr ⟨hparent, hkey⟩⟩)

/-- A unit is resolved if its documents load, and then as the chain of these is. -/
theorem result_resolve_eq_ok_iff {resolved : List Component} :
    (resolve source limit tree unit).result = .ok resolved ↔
      ∃ leaf above, Loads source limit tree leaf above ∧
        (resolveChain unit (leaf :: above)).result = .ok resolved := by
  rw [result_resolve, bind_eq_ok]
  constructor
  · rintro ⟨documents, hdocuments, hresolved⟩
    obtain ⟨leaf, above, rfl, hloads⟩ := loads_iff.mp hdocuments
    exact ⟨leaf, above, hloads, hresolved⟩
  · rintro ⟨leaf, above, hloads, hresolved⟩
    exact ⟨leaf :: above, loads_iff.mpr ⟨leaf, above, rfl, hloads⟩, hresolved⟩

/-- A chain is resolved if the keys of its documents are read, or if it is a unit alone. -/
theorem exists_resolveChain_iff {leaf : Document} {above : List Document} :
    (∃ resolved, (resolveChain unit (leaf :: above)).result = .ok resolved) ↔
      (above ≠ [] → ∀ d ∈ leaf :: above, d.KeysRead) := by
  cases above with
  | nil => simp [resolveChain]
  | cons parent rest =>
    rw [resolveChain, exists_apply_iff]
    simp only [overrides, List.forall_mem_flatMap, List.mem_reverse, ← Document.keysRead_iff]
    simp

end

end Prefab

end UnitBake
