/-
# Tables: finite maps kept sorted by key

A `Table κ α` is a list of entries whose keys rise strictly, so that a table is the map it stands
for: two tables with the same look-ups are equal (`Table.ext_get?`).  Everything that must come out
"in order of the keys" (the members of an object, the overrides of a document, the registered
types) is read off `entries`.

The single-pass insertion `Entries.put` replaces the value of a key that is already there.  Its
look-up lemmas need no sortedness; sortedness is what `Entries.put_sorted` preserves.
-/
namespace UnitBake

/-! ## 1. Insertion into a list of entries -/

namespace Entries

variable {κ α : Type} [LT κ] [DecidableLT κ] [DecidableEq κ]

/-- Puts `v` under `k` before the first larger key, replacing the entry of `k` if there is one. -/
def put (k : κ) (v : α) : List (κ × α) → List (κ × α)
  | [] => [(k, v)]
  | (k', v') :: rest =>
    if k < k' then (k, v) :: (k', v') :: rest
    else if k = k' then (k, v) :: rest
    else (k', v') :: put k v rest

/-- The keys rise strictly. -/
def Sorted (es : List (κ × α)) : Prop := es.Pairwise fun a b => a.1 < b.1

theorem mem_put {k : κ} {v : α} {e : κ × α} {es : List (κ × α)} (h : e ∈ put k v es) :
    e = (k, v) ∨ e ∈ es := by
  induction es with
  | nil => simpa [put] using h
  | cons hd tl ih =>
    obtain ⟨k', v'⟩ := hd
    rw [put] at h
    split at h
    · simpa using h
    · split at h
      · simp only [List.mem_cons] at h ⊢
        exact h.imp id Or.inr
      · rcases List.mem_cons.mp h with rfl | h
        · exact Or.inr List.mem_cons_self
        · exact (ih h).imp id (List.mem_cons_of_mem _)

omit [LT κ] [DecidableLT κ] in
/-- Looking up in a list steps past an entry of another key. -/
theorem lookup_cons_of_ne {k k' : κ} (h : k ≠ k') (v : α) (es : List (κ × α)) :
    ((k', v) :: es).lookup k = es.lookup k := by
  simp [List.lookup_cons, beq_eq_false_iff_ne.mpr h]

/-- The key that was put is found. -/
theorem lookup_put_self (k : κ) (v : α) (es : List (κ × α)) :
    (put k v es).lookup k = some v := by
  induction es with
  | nil => simp [put]
  | cons hd tl ih =>
    obtain ⟨k', v'⟩ := hd
    rw [put]
    split
    · simp
    · split
      · simp
      · next _ hne => rw [lookup_cons_of_ne hne, ih]

/-- Every other key is looked up as before. -/
theorem lookup_put_of_ne {k k' : κ} (v : α) (h : k' ≠ k) (es : List (κ × α)) :
    (put k v es).lookup k' = es.lookup k' := by
  induction es with
  | nil => rw [put, lookup_cons_of_ne h]
  | cons hd tl ih =>
    obtain ⟨k₁, v₁⟩ := hd
    rw [put]
    split
    · rw [lookup_cons_of_ne h]
    · split
      · next _ heq => subst heq; rw [lookup_cons_of_ne h, lookup_cons_of_ne h]
      · simp only [List.lookup_cons, ih]

variable [LE κ] [Std.IsLinearOrder κ] [Std.LawfulOrderLT κ]

/-- Putting keeps the keys rising. -/
theorem put_sorted (k : κ) (v : α) {es : List (κ × α)} (h : Sorted es) : Sorted (put k v es) := by
  induction es with
  | nil => simp [put, Sorted]
  | cons hd tl ih =>
    obtain ⟨k', v'⟩ := hd
    obtain ⟨hhd, htl⟩ := List.pairwise_cons.mp h
    rw [put]
    split
    · next hlt =>
      refine List.pairwise_cons.mpr ⟨?_, h⟩
      intro e he
      rcases List.mem_cons.mp he with rfl | he
      · exact hlt
      · exact Std.lt_trans hlt (hhd e he)
    · split
      · next heq =>
        subst heq
        exact List.pairwise_cons.mpr ⟨hhd, htl⟩
      · next hnlt hne =>
        refine List.pairwise_cons.mpr ⟨?_, ih htl⟩
        intro e he
        rcases mem_put he with rfl | he
        · rcases Std.lt_trichotomy k k' with h' | h' | h'
          · exact absurd h' hnlt
          · exact absurd h' hne
          · exact h'
        · exact hhd e he

/-- A key that is larger than all others is put at the end. -/
theorem put_of_forall_lt {k : κ} {v : α} : ∀ {es : List (κ × α)}, (∀ e ∈ es, e.1 < k) →
    put k v es = es ++ [(k, v)]
  | [], _ => rfl
  | (k', v') :: es, h => by
    obtain ⟨hk, hes⟩ := List.forall_mem_cons.mp h
    have hnlt : ¬ k < k' := fun hlt => Std.lt_irrefl (Std.lt_trans hlt hk)
    have hne : k ≠ k' := by
      rintro rfl
      exact Std.lt_irrefl hk
    rw [put, if_neg hnlt, if_neg hne, put_of_forall_lt hes, List.cons_append]

omit [DecidableLT κ] [Std.IsLinearOrder κ] in
/-- A sorted list holds the key of its head nowhere in its tail. -/
theorem lookup_tail_eq_none {e : κ × α} {es : List (κ × α)} (h : Sorted (e :: es)) :
    es.lookup e.1 = none := by
  rw [List.lookup_eq_none_iff]
  intro x hx
  have hlt := (List.pairwise_cons.mp h).1 x hx
  refine bne_iff_ne.mpr fun heq => ?_
  rw [heq] at hlt
  exact Std.lt_irrefl hlt

omit [DecidableLT κ] [Std.IsLinearOrder κ] in
/-- In a sorted list an entry is a member exactly when its key is looked up to its value. -/
theorem mem_iff_lookup {es : List (κ × α)} (h : Sorted es) (k : κ) (v : α) :
    (k, v) ∈ es ↔ es.lookup k = some v := by
  induction es with
  | nil => simp
  | cons hd tl ih =>
    obtain ⟨k', v'⟩ := hd
    have htl := (List.pairwise_cons.mp h).2
    by_cases hk : k = k'
    · subst hk
      have hnone := lookup_tail_eq_none h
      have hnot : (k, v) ∉ tl := by
        intro hm
        rw [ih htl, hnone] at hm
        cases hm
      simp [hnot, eq_comm]
    · simp [lookup_cons_of_ne hk, hk, ih htl]

end Entries

/-! ## 2. Tables -/

/-- A finite map, kept as its entries by strictly rising key. -/
structure Table (κ α : Type) [LT κ] where
  entries : List (κ × α)
  sorted : Entries.Sorted entries

namespace Table

variable {κ α : Type} [LT κ]

instance : Inhabited (Table κ α) := ⟨⟨[], List.Pairwise.nil⟩⟩

/-- The table without entries. -/
def empty : Table κ α := ⟨[], List.Pairwise.nil⟩

/-- How many keys there are. -/
def size (t : Table κ α) : Nat := t.entries.length

/-- The keys, rising. -/
def keys (t : Table κ α) : List κ := t.entries.map Prod.fst

/-- Whether there is no key. -/
def isEmpty (t : Table κ α) : Bool := t.entries.isEmpty

@[ext] theorem ext {s t : Table κ α} (h : s.entries = t.entries) : s = t := by
  cases s; cases t; cases h; rfl

@[simp] theorem entries_empty : (empty : Table κ α).entries = [] := rfl

variable [DecidableEq κ]

/-- The value under `k`. -/
def get? (t : Table κ α) (k : κ) : Option α := t.entries.lookup k

/-- Whether `k` is a key. -/
def contains (t : Table κ α) (k : κ) : Bool := (t.get? k).isSome

@[simp] theorem get?_empty (k : κ) : (empty : Table κ α).get? k = none := rfl

variable [DecidableLT κ] [LE κ] [Std.IsLinearOrder κ] [Std.LawfulOrderLT κ]

/-- Puts `v` under `k`, replacing what was there. -/
def insert (t : Table κ α) (k : κ) (v : α) : Table κ α :=
  ⟨Entries.put k v t.entries, Entries.put_sorted k v t.sorted⟩

/-- The table of a list of pairs; of two pairs with one key the later one counts. -/
def ofList (es : List (κ × α)) : Table κ α := es.foldl (fun t e => t.insert e.1 e.2) empty

@[simp] theorem get?_insert_self (t : Table κ α) (k : κ) (v : α) :
    (t.insert k v).get? k = some v :=
  Entries.lookup_put_self k v t.entries

theorem get?_insert_of_ne (t : Table κ α) {k k' : κ} (v : α) (h : k' ≠ k) :
    (t.insert k v).get? k' = t.get? k' :=
  Entries.lookup_put_of_ne v h t.entries

theorem get?_insert (t : Table κ α) (k k' : κ) (v : α) :
    (t.insert k v).get? k' = if k' = k then some v else t.get? k' := by
  split
  · next h => rw [h, get?_insert_self]
  · next h => exact get?_insert_of_ne t v h

/-- Entries that rise beyond those of a table are put behind them. -/
theorem entries_foldl_insert : ∀ {es : List (κ × α)} {t : Table κ α},
    Entries.Sorted (t.entries ++ es) →
      (es.foldl (fun t e => t.insert e.1 e.2) t).entries = t.entries ++ es
  | [], t, _ => (List.append_nil t.entries).symm
  | e :: es, t, h => by
    have hput : (t.insert e.1 e.2).entries = t.entries ++ [e] :=
      Entries.put_of_forall_lt fun e' he' =>
        (List.pairwise_append.mp h).2.2 e' he' e List.mem_cons_self
    have hsorted : Entries.Sorted ((t.insert e.1 e.2).entries ++ es) := by
      rwa [hput, List.append_assoc]
    rw [List.foldl_cons, entries_foldl_insert hsorted, hput, List.append_assoc]
    rfl

/-- A table is that of its entries. -/
theorem ofList_entries (t : Table κ α) : ofList t.entries = t :=
  ext (entries_foldl_insert t.sorted)

omit [DecidableLT κ] [Std.IsLinearOrder κ] in
/-- An entry is a member exactly when its key is looked up to its value. -/
theorem mem_entries_iff (t : Table κ α) (k : κ) (v : α) :
    (k, v) ∈ t.entries ↔ t.get? k = some v :=
  Entries.mem_iff_lookup t.sorted k v

omit [DecidableEq κ] [DecidableLT κ] [Std.IsLinearOrder κ] in
/-- No key occurs twice. -/
theorem nodup_keys (t : Table κ α) : t.keys.Nodup := by
  refine List.pairwise_map.mpr (t.sorted.imp ?_)
  intro a b hlt heq
  rw [heq] at hlt
  exact Std.lt_irrefl hlt

omit [DecidableLT κ] in
/-- Two tables with the same look-ups are equal. -/
theorem ext_get? {s t : Table κ α} (h : ∀ k, s.get? k = t.get? k) : s = t := by
  have hnodup : ∀ u : Table κ α, u.entries.Nodup := fun u =>
    List.Pairwise.of_map Prod.fst (fun _ _ hne heq => hne (congrArg Prod.fst heq)) u.nodup_keys
  have hperm : s.entries.Perm t.entries := by
    refine (List.perm_ext_iff_of_nodup (hnodup s) (hnodup t)).mpr ?_
    intro e
    rw [s.mem_entries_iff, t.mem_entries_iff, h]
  refine ext (hperm.eq_of_pairwise ?_ s.sorted t.sorted)
  intro a b _ _ hab hba
  exact absurd (Std.lt_trans hab hba) Std.lt_irrefl

end Table

end UnitBake
