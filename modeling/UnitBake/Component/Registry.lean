/-
# The registry of component types

The `ComponentTypeRegistry` of the specification (section 4.2): `register`, `lookup`, `get`, `name`,
`contains` and `spawn_order`.

The registry holds one registration for each type id, and beside them the listing of the types in spawn
order, which fixes the order of the sections in a blob.  Both are views of one set of registrations:
every time a type is registered the listing is made anew, and a `Registry` carries the proof that it
lists the registered types, each once, and in order.  This determines the listing (`Registry.ext_types`),
so the order in which registrations were made never shows.

Types are told apart by the hashes of their names.  A second name with the hash of a registered one
cannot be registered, but it is looked up to the registered one.
-/
import UnitBake.Component.Encoder
import UnitBake.Component.TypeId
import UnitBake.Event
import UnitBake.Table

namespace UnitBake

/-- A registered type. -/
structure Registration where
  name : String
  spawnOrder : UInt32
  encoder : Encoder

/-- The place of a type in the spawn order. -/
structure SpawnSlot where
  spawnOrder : UInt32
  typeId : TypeId
deriving DecidableEq, Repr

namespace SpawnSlot

/-- Slots are compared by their order, then by their type id. -/
def Before (a b : SpawnSlot) : Prop :=
  a.spawnOrder < b.spawnOrder ∨ (a.spawnOrder = b.spawnOrder ∧ a.typeId < b.typeId)

instance (a b : SpawnSlot) : Decidable (a.Before b) :=
  inferInstanceAs (Decidable (_ ∨ (_ ∧ _)))

theorem before_trans {a b c : SpawnSlot} (hab : a.Before b) (hbc : b.Before c) : a.Before c := by
  rcases hab with hab | ⟨hab, hab'⟩
  · rcases hbc with hbc | ⟨hbc, -⟩
    · exact Or.inl (UInt32.lt_trans hab hbc)
    · exact Or.inl (hbc ▸ hab)
  · rcases hbc with hbc | ⟨hbc, hbc'⟩
    · exact Or.inl (hab ▸ hbc)
    · exact Or.inr ⟨hab.trans hbc, Std.lt_trans hab' hbc'⟩

theorem not_before_self (a : SpawnSlot) : ¬ a.Before a := by
  rintro (h | ⟨-, h⟩)
  · exact UInt32.lt_irrefl _ h
  · exact Std.lt_irrefl h

/-- Slots of different types are ordered one way or the other. -/
theorem before_of_not_before {a b : SpawnSlot} (hne : a.typeId ≠ b.typeId) (h : ¬ a.Before b) :
    b.Before a := by
  rcases Std.lt_trichotomy a.spawnOrder b.spawnOrder with hlt | heq | hgt
  · exact absurd (Or.inl hlt) h
  · rcases Std.lt_trichotomy a.typeId b.typeId with hlt' | heq' | hgt'
    · exact absurd (Or.inr ⟨heq, hlt'⟩) h
    · exact absurd heq' hne
    · exact Or.inr ⟨heq.symm, hgt'⟩
  · exact Or.inl hgt

/-- Puts a slot before the first that it comes before. -/
def insertInto (s : SpawnSlot) : List SpawnSlot → List SpawnSlot
  | [] => [s]
  | t :: rest => if s.Before t then s :: t :: rest else t :: insertInto s rest

/-- Inserting adds the slot and nothing else. -/
theorem insertInto_perm (s : SpawnSlot) (slots : List SpawnSlot) :
    (s.insertInto slots).Perm (s :: slots) := by
  induction slots with
  | nil => exact List.Perm.refl _
  | cons t rest ih =>
    rw [insertInto]
    split
    · exact List.Perm.refl _
    · exact (ih.cons t).trans (List.Perm.swap s t rest)

/-- Inserting a slot of a type that is not there yet keeps the slots rising. -/
theorem insertInto_sorted {s : SpawnSlot} {slots : List SpawnSlot}
    (hnew : ∀ t ∈ slots, s.typeId ≠ t.typeId) (h : slots.Pairwise Before) :
    (s.insertInto slots).Pairwise Before := by
  induction slots with
  | nil => simp [insertInto]
  | cons t rest ih =>
    obtain ⟨ht, hrest⟩ := List.pairwise_cons.mp h
    rw [insertInto]
    split
    · next hst =>
      refine List.pairwise_cons.mpr ⟨?_, h⟩
      intro u hu
      rcases List.mem_cons.mp hu with rfl | hu
      · exact hst
      · exact before_trans hst (ht u hu)
    · next hst =>
      have hts : t.Before s := before_of_not_before (hnew t List.mem_cons_self) hst
      refine List.pairwise_cons.mpr
        ⟨?_, ih (fun u hu => hnew u (List.mem_cons_of_mem _ hu)) hrest⟩
      intro u hu
      rcases List.mem_cons.mp ((insertInto_perm s rest).mem_iff.mp hu) with rfl | hu
      · exact hts
      · exact ht u hu

/-- Slots in order. -/
def sort (slots : List SpawnSlot) : List SpawnSlot := slots.foldr insertInto []

theorem sort_perm : ∀ slots : List SpawnSlot, (sort slots).Perm slots
  | [] => List.Perm.refl _
  | s :: rest => (insertInto_perm s (sort rest)).trans ((sort_perm rest).cons s)

/-- Slots of different types rise when they are sorted. -/
theorem sort_sorted : ∀ {slots : List SpawnSlot}, slots.Pairwise (fun s t => s.typeId ≠ t.typeId) →
    (sort slots).Pairwise Before
  | [], _ => List.Pairwise.nil
  | s :: rest, h => by
    obtain ⟨hs, hrest⟩ := List.pairwise_cons.mp h
    exact insertInto_sorted (fun t ht => hs t ((sort_perm rest).mem_iff.mp ht)) (sort_sorted hrest)

end SpawnSlot

/-- Two names with one hash. -/
structure NameCollision where
  registered : String
  name : String
deriving DecidableEq, Repr

/-- The text of the failure. -/
def NameCollision.message (c : NameCollision) : String :=
  "assertion `left == right` failed: component type hash collision between '" ++ c.registered ++
    "' and '" ++ c.name ++ "'\n  left: " ++ Text.quoted c.registered ++ "\n right: " ++
    Text.quoted c.name

/-- The slot of every registered type, by rising type id. -/
def slotsOf (types : Table TypeId Registration) : List SpawnSlot :=
  types.entries.map fun e => ⟨e.2.spawnOrder, e.1⟩

/-- The registered types by their ids, and their listing: lowest order first, ties by type id. -/
structure Registry where
  types : Table TypeId Registration
  spawnOrder : List SpawnSlot
  spawnOrder_perm : spawnOrder.Perm (slotsOf types)
  spawnOrder_sorted : spawnOrder.Pairwise SpawnSlot.Before

namespace Registry

/-- The registry of some types, with their listing. -/
def ofTypes (types : Table TypeId Registration) : Registry where
  types := types
  spawnOrder := SpawnSlot.sort (slotsOf types)
  spawnOrder_perm := SpawnSlot.sort_perm _
  spawnOrder_sorted :=
    SpawnSlot.sort_sorted (List.pairwise_map.mpr (List.pairwise_map.mp types.nodup_keys))

@[simp] theorem types_ofTypes (types : Table TypeId Registration) : (ofTypes types).types = types :=
  rfl

/-- **The registered types determine the listing.** -/
theorem ext_types {r r' : Registry} (h : r.types = r'.types) : r = r' := by
  have hperm : r.spawnOrder.Perm r'.spawnOrder := by
    refine r.spawnOrder_perm.trans ?_
    rw [h]
    exact r'.spawnOrder_perm.symm
  have hlisting : r.spawnOrder = r'.spawnOrder := by
    refine hperm.eq_of_pairwise ?_ r.spawnOrder_sorted r'.spawnOrder_sorted
    intro a b _ _ hab hba
    exact absurd (SpawnSlot.before_trans hab hba) a.not_before_self
  cases r
  cases r'
  cases h
  cases hlisting
  rfl

/-- No types. -/
def empty : Registry := .ofTypes .empty

/-- Registers an encoder for a name, replacing an earlier registration of the same name.  The listing is
made anew. -/
def register (r : Registry) (name : String) (encoder : Encoder) (spawnOrder : UInt32) :
    Except NameCollision (Traced Registry) :=
  let id := TypeId.ofName name
  let added : Registry := .ofTypes (r.types.insert id ⟨name, spawnOrder, encoder⟩)
  match r.types.get? id with
  | none => .ok ⟨added, []⟩
  | some existing =>
    if existing.name = name then .ok ⟨added, [.encoderReplaced name]⟩
    else .error ⟨existing.name, name⟩

/-- The encoder of a type. -/
def get? (r : Registry) (id : TypeId) : Option Encoder := (r.types.get? id).map (·.encoder)

/-- The encoder found for a name. -/
def lookup? (r : Registry) (name : String) : Option Encoder := r.get? (.ofName name)

/-- The name a type was registered under. -/
def name? (r : Registry) (id : TypeId) : Option String := (r.types.get? id).map (·.name)

/-- Whether a name has the hash of a registered type. -/
def contains (r : Registry) (name : String) : Bool := r.types.contains (.ofName name)

/-- How many types are registered. -/
def size (r : Registry) : Nat := r.types.size

/-- Whether no type is registered. -/
def isEmpty (r : Registry) : Bool := r.types.isEmpty

/-- Names and orders in spawn order, as they are shown to a developer. -/
def debug (r : Registry) : String :=
  let entry (s : SpawnSlot) : String :=
    Text.quoted ((r.name? s.typeId).getD "") ++ ": " ++ toString s.spawnOrder.toNat
  "\x7b" ++ String.intercalate ", " (r.spawnOrder.map entry) ++ "\x7d"

end Registry

end UnitBake
