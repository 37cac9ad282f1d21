/-
# What the values of a record were read from

`Shape.values` fills the slots of a record member by member, or takes the items of a list one after
the other.  Here its result is told without slots: a tree gives something for a field, its last member
of the field's name or its item at the field's place (`given?`), and the value of the field is what its
reader makes of that, or its default where nothing is given (`Reads`).

`reads_of_values` says so of every record whose fields have different names.  Of two fields with one
name the later would never be filled.  For objects it is an invariant of the slots (`Slots.Filled`),
kept by one member (`Slots.filled_store`) and so by all (`Slots.filled_storeAll`).  The other way round,
an object without a name that occurs twice is read to whatever values its members give
(`values_of_reads`).
-/
import UnitBake.Shape.Record

namespace UnitBake.Shape

/-! ## 1. What a tree gives for a field -/

/-- The last of the members of one name. -/
def lastMember? (name : String) (members : List (String × Json)) : Option Json :=
  (members.filter fun m => m.1 == name).getLast?.map (·.2)

theorem lastMember?_concat (name key : String) (v : Json) (members : List (String × Json)) :
    lastMember? name (members ++ [(key, v)]) =
      if key = name then some v else lastMember? name members := by
  unfold lastMember?
  rw [List.filter_append]
  by_cases h : key = name
  · simp [h]
  · simp [h]

/-- What a tree gives for the field of a name at a place: an object its last member of that name, a
list its item at that place. -/
def given? (v : Json) (place : Nat) (name : String) : Option Json :=
  match v with
  | .object members => lastMember? name members
  | .list items => items[place]?
  | _ => none

/-- The values of the fields, of which the first is at the given place, are read from what the tree
gives for them, or are the defaults where it gives nothing. -/
def Reads (v : Json) : Nat → (fields : List Field) → Values fields → Prop
  | _, [], _ => True
  | place, f :: fs, (x, xs) =>
    (match given? v place f.name with
      | some w => f.read w = .ok x
      | none => f.default = some x) ∧
    Reads v (place + 1) fs xs

/-- The value of a field is read from what the tree gives for it. -/
def Gives {α : Type} (v : Json) (place : Nat) (name : String) (read : Json → Except ShapeError α)
    (x : α) : Prop :=
  ∃ w, given? v place name = some w ∧ read w = .ok x

/-- A field that must be given was given. -/
theorem Reads.required {α : Type} {v : Json} {place : Nat} {name : String}
    {read : Json → Except ShapeError α} {fields : List Field} {x : α} {xs : Values fields}
    (h : Reads v place (Shape.required name read :: fields) (x, xs)) :
    Gives v place name read x ∧ Reads v (place + 1) fields xs := by
  obtain ⟨hfirst, hrest⟩ := h
  refine ⟨?_, hrest⟩
  change (match given? v place name with
    | some w => read w = .ok x
    | none => none = some x) at hfirst
  unfold Gives
  cases hgiven : given? v place name with
  | none =>
    rw [hgiven] at hfirst
    cases hfirst
  | some w =>
    rw [hgiven] at hfirst
    exact ⟨w, rfl, hfirst⟩

/-! ## 2. Lists -/

/-- The items that are left are those from the place of the first field on. -/
theorem reads_of_fromItems {record : String} {count size : Nat} {items : List Json} :
    ∀ {fields : List Field} {place : Nat} {left : List Json} {xs : Values fields},
      left = items.drop place → fromItems record count size place fields left = .ok xs →
        Reads (.list items) place fields xs
  | [], _, _, _, _, _ => trivial
  | f :: fs, place, left, (x, xs), hleft, h => by
    have hitem : given? (.list items) place f.name = left.head? := by
      rw [hleft, List.head?_drop]
      rfl
    have hnext : left.tail = items.drop (place + 1) := by
      rw [hleft, List.tail_drop]
    cases left with
    | nil =>
      rw [fromItems] at h
      split at h
      · cases h
      · next y hdefault =>
        split at h
        · next ys hys =>
          obtain ⟨rfl, rfl⟩ := Prod.mk.inj (Except.ok.inj h)
          refine ⟨?_, reads_of_fromItems hnext hys⟩
          rw [hitem]
          exact hdefault
        · cases h
    | cons w rest =>
      rw [fromItems] at h
      split at h
      · cases h
      · next y hread =>
        split at h
        · next ys hys =>
          obtain ⟨rfl, rfl⟩ := Prod.mk.inj (Except.ok.inj h)
          refine ⟨?_, reads_of_fromItems hnext hys⟩
          rw [hitem]
          exact hread
        · cases h

/-! ## 3. Objects -/

/-- A slot is filled with the value of the last member of its field, and empty without such a
member. -/
def Slots.Filled (members : List (String × Json)) :
    (fields : List Field) → Slots fields → Prop
  | [], _ => True
  | f :: fs, (x, rest) =>
    (match lastMember? f.name members with
      | some w => ∃ y, f.read w = .ok y ∧ x = some y
      | none => x = none) ∧
    Slots.Filled members fs rest

theorem Slots.filled_empty : ∀ fields : List Field, Slots.Filled [] fields (Slots.empty fields)
  | [] => trivial
  | _ :: fs => ⟨rfl, Slots.filled_empty fs⟩

/-- A member that is no field leaves the slots right as they are. -/
theorem Slots.filled_of_notMem {members : List (String × Json)} {key : String} {v : Json} :
    ∀ {fields : List Field} {slots : Slots fields}, key ∉ fields.map Field.name →
      Slots.Filled members fields slots → Slots.Filled (members ++ [(key, v)]) fields slots
  | [], _, _, _ => trivial
  | f :: fs, (x, rest), hkey, h => by
    obtain ⟨hne, hkey⟩ := List.ne_and_not_mem_of_not_mem_cons hkey
    obtain ⟨hfirst, hrest⟩ := h
    refine ⟨?_, Slots.filled_of_notMem hkey hrest⟩
    rw [lastMember?_concat, if_neg hne]
    exact hfirst

/-- **One member** fills the slot of its field and leaves the others. -/
theorem Slots.filled_store {members : List (String × Json)} {key : String} {v : Json} :
    ∀ {fields : List Field} {slots slots' : Slots fields}, (fields.map Field.name).Nodup →
      Slots.Filled members fields slots → Slots.store key v fields slots = .ok slots' →
        Slots.Filled (members ++ [(key, v)]) fields slots'
  | [], _, _, _, _, _ => trivial
  | f :: fs, (x, rest), (x', rest'), hnodup, hfilled, h => by
    obtain ⟨hname, hnodup⟩ := List.nodup_cons.mp hnodup
    obtain ⟨hfirst, hrest⟩ := hfilled
    rw [Slots.store] at h
    split at h
    · next hkey =>
      subst hkey
      split at h
      · next y hread =>
        obtain ⟨rfl, rfl⟩ := Prod.mk.inj (Except.ok.inj h)
        refine ⟨?_, Slots.filled_of_notMem hname hrest⟩
        rw [lastMember?_concat, if_pos rfl]
        exact ⟨y, hread, rfl⟩
      · cases h
    · next hkey =>
      split at h
      · next rest'' hstore =>
        obtain ⟨rfl, rfl⟩ := Prod.mk.inj (Except.ok.inj h)
        refine ⟨?_, Slots.filled_store hnodup hrest hstore⟩
        rw [lastMember?_concat, if_neg (Ne.symm hkey)]
        exact hfirst
      · cases h

/-- **All members** are stored as each is. -/
theorem Slots.filled_storeAll {fields : List Field} (hnodup : (fields.map Field.name).Nodup) :
    ∀ {more members : List (String × Json)} {slots slots' : Slots fields},
      Slots.Filled members fields slots → Slots.storeAll fields more slots = .ok slots' →
        Slots.Filled (members ++ more) fields slots'
  | [], members, slots, slots', hfilled, h => by
    obtain rfl := Except.ok.inj h
    rwa [List.append_nil]
  | (key, v) :: more, members, slots, slots', hfilled, h => by
    rw [Slots.storeAll] at h
    split at h
    · next next hstore =>
      have hall := Slots.filled_storeAll hnodup (Slots.filled_store hnodup hfilled hstore) h
      rwa [List.append_assoc] at hall
    · cases h

/-- What filled slots hold is read from the members, and an empty one gets its default. -/
theorem Slots.reads_of_values {members : List (String × Json)} :
    ∀ {fields : List Field} {slots : Slots fields} {xs : Values fields} (place : Nat),
      Slots.Filled members fields slots → Slots.values fields slots = .ok xs →
        Reads (.object members) place fields xs
  | [], _, _, _, _, _ => trivial
  | f :: fs, (x, rest), (y, ys), place, hfilled, h => by
    obtain ⟨hfirst, hrest⟩ := hfilled
    rw [Slots.values] at h
    split at h
    · cases h
    · next z hslot =>
      split at h
      · next zs hvalues =>
        obtain ⟨rfl, rfl⟩ := Prod.mk.inj (Except.ok.inj h)
        refine ⟨?_, Slots.reads_of_values (place + 1) hrest hvalues⟩
        rw [given?]
        cases hmember : lastMember? f.name members with
        | none =>
          rw [hmember] at hfirst
          subst hfirst
          exact hslot
        | some w =>
          rw [hmember] at hfirst
          obtain ⟨z, hread, rfl⟩ := hfirst
          obtain rfl := Option.some.inj hslot
          exact hread
      · cases h

/-! ## 4. Records -/

/-- **The values of a record are read from what the tree gives for its fields.** -/
theorem reads_of_values {record : String} {fields : List Field} {v : Json} {xs : Values fields}
    (hnodup : (fields.map Field.name).Nodup) (h : values record fields v = .ok xs) :
    Reads v 0 fields xs := by
  cases v with
  | object members =>
    rw [values] at h
    split at h
    · next slots hstore =>
      have hfilled := Slots.filled_storeAll hnodup (Slots.filled_empty fields) hstore
      exact Slots.reads_of_values 0 hfilled h
    · cases h
  | list items => exact reads_of_fromItems rfl h
  | null => cases h
  | bool b => cases h
  | number n => cases h
  | text s => cases h

/-! ## 5. Objects that are read -/

/-- Where no name occurs twice, every member is the last of its name. -/
theorem lastMember?_of_mem {key : String} {v : Json} : ∀ {members : List (String × Json)},
    (members.map Prod.fst).Nodup → (key, v) ∈ members → lastMember? key members = some v
  | m :: members, hnodup, h => by
    obtain ⟨hfresh, hnodup⟩ := List.nodup_cons.mp hnodup
    rcases List.mem_cons.mp h with rfl | h
    · have hnone : members.filter (fun m => m.1 == key) = [] := by
        refine List.filter_eq_nil_iff.mpr fun m hm heq => hfresh ?_
        exact List.mem_map.mpr ⟨m, hm, eq_of_beq heq⟩
      have hone : ((key, v) :: members).filter (fun m => m.1 == key) = [(key, v)] := by
        rw [List.filter_cons, if_pos (beq_self_eq_true key), hnone]
      rw [lastMember?, hone]
      rfl
    · have hne : (m.1 == key) = false := by
        refine beq_eq_false_iff_ne.mpr fun heq => hfresh ?_
        rw [heq]
        exact List.mem_map_of_mem h
      rw [lastMember?, List.filter_cons_of_neg (by simp [hne]), ← lastMember?]
      exact lastMember?_of_mem hnodup h

/-- What an object gives for a field is read. -/
theorem Reads.read_lastMember? {members : List (String × Json)} :
    ∀ {fields : List Field} {xs : Values fields} {place : Nat},
      Reads (.object members) place fields xs → ∀ f ∈ fields, ∀ w,
        lastMember? f.name members = some w → ∃ x, f.read w = .ok x
  | [], _, _, _, _, hf, _, _ => absurd hf List.not_mem_nil
  | f :: fs, (x, xs), place, ⟨hfirst, hrest⟩, f', hf', w, hw => by
    rcases List.mem_cons.mp hf' with rfl | hf'
    · rw [given?, hw] at hfirst
      exact ⟨x, hfirst⟩
    · exact hrest.read_lastMember? f' hf' w hw

/-- A member is stored if the field of its name reads it. -/
theorem Slots.exists_store {key : String} {v : Json} : ∀ {fields : List Field},
    (∀ f ∈ fields, f.name = key → ∃ x, f.read v = .ok x) → ∀ slots : Slots fields,
      ∃ slots', Slots.store key v fields slots = .ok slots'
  | [], _, _ => ⟨(), rfl⟩
  | f :: fs, h, (x, rest) => by
    obtain ⟨hf, hfs⟩ := List.forall_mem_cons.mp h
    obtain ⟨rest', hrest⟩ := Slots.exists_store hfs rest
    rw [Slots.store]
    split
    · next hkey =>
      obtain ⟨y, hread⟩ := hf hkey
      rw [hread]
      exact ⟨_, rfl⟩
    · rw [hrest]
      exact ⟨_, rfl⟩

theorem Slots.exists_storeAll {fields : List Field} : ∀ {members : List (String × Json)},
    (∀ m ∈ members, ∀ f ∈ fields, f.name = m.1 → ∃ x, f.read m.2 = .ok x) →
      ∀ slots : Slots fields, ∃ slots', Slots.storeAll fields members slots = .ok slots'
  | [], _, slots => ⟨slots, rfl⟩
  | (key, v) :: members, h, slots => by
    obtain ⟨hfirst, hrest⟩ := List.forall_mem_cons.mp h
    obtain ⟨slots', hstore⟩ := Slots.exists_store hfirst slots
    rw [Slots.storeAll, hstore]
    exact Slots.exists_storeAll hrest slots'

/-- Filled slots hold what is read from the members, or the defaults. -/
theorem Slots.values_of_filled {members : List (String × Json)} :
    ∀ {fields : List Field} {slots : Slots fields} {xs : Values fields} {place : Nat},
      Slots.Filled members fields slots → Reads (.object members) place fields xs →
        Slots.values fields slots = .ok xs
  | [], _, _, _, _, _ => rfl
  | f :: fs, (x, rest), (y, ys), place, ⟨hslot, hfilled⟩, ⟨hfirst, hreads⟩ => by
    have hy : x.or f.default = some y := by
      rw [given?] at hfirst
      cases hmember : lastMember? f.name members with
      | none =>
        rw [hmember] at hslot hfirst
        subst hslot
        exact hfirst
      | some w =>
        rw [hmember] at hslot hfirst
        obtain ⟨z, hread, rfl⟩ := hslot
        obtain rfl := Except.ok.inj (hread.symm.trans hfirst)
        rfl
    rw [Slots.values, hy]
    simp only [Slots.values_of_filled hfilled hreads]

/-- **An object is read to the values that its members give**, if no member stands twice. -/
theorem values_of_reads {record : String} {fields : List Field} {members : List (String × Json)}
    {xs : Values fields} (hfields : (fields.map Field.name).Nodup)
    (hmembers : (members.map Prod.fst).Nodup) (h : Reads (.object members) 0 fields xs) :
    values record fields (.object members) = .ok xs := by
  have hread : ∀ m ∈ members, ∀ f ∈ fields, f.name = m.1 → ∃ x, f.read m.2 = .ok x := by
    intro m hm f hf hname
    refine h.read_lastMember? f hf m.2 ?_
    rw [hname]
    exact lastMember?_of_mem hmembers hm
  obtain ⟨slots, hstore⟩ := Slots.exists_storeAll hread (Slots.empty fields)
  have hfilled := Slots.filled_storeAll hfields (Slots.filled_empty fields) hstore
  rw [values, hstore]
  exact Slots.values_of_filled hfilled h

end UnitBake.Shape
