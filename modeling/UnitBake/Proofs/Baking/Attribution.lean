/-
# Which document a fault belongs to

A unit given by its tree is named by the number of units before it, and a document that fails is not
counted.  So the name in a fault tells how many documents have baked before, and no more:

* documents that fail have one name if no document between them bakes
  (`Baker.nameAfter_append_eq_iff`);
* the units that are compiled are numbered without gaps (`Baker.compiled_bakeAll`), so the name of a
  document that fails goes to the next one that bakes.

What does tell the faults apart is their order: there is one for each document that fails, in the order
of the documents.  `Baker.faults_attributed` collects this, and `Baker.names_shared` is a run in which
the names alone are no help.  All of it is about runs whose count of units does not overflow.
-/
import UnitBake.Proofs.Baking.Atomicity
import UnitBake.Proofs.Baking.Faults
import UnitBake.Proofs.Baking.FirstFault

namespace UnitBake

/-! ## 1. Names of units -/

/-- Different numbers give different names. -/
theorem unitName_inj {m n : Nat} : unitName m = unitName n ↔ m = n := by
  refine ⟨fun h => ?_, congrArg unitName⟩
  have hdigits : Nat.repr m = Nat.repr n := (String.append_right_inj "#").mp h
  have hvalue := congrArg (fun s => Nat.ofDigitChars 10 s.toList 0) hdigits
  simpa using hvalue

/-- The unit that a fault names. -/
def Fault.unit? : Fault → Option String
  | .inUnit unit _ => some unit
  | _ => none

/-- The name and the index of a unit that was compiled. -/
def Event.compiled? : Event → Option (String × UInt32)
  | .unitCompiled name index => some (name, index)
  | _ => none

namespace Prefab

theorem compiled_apply (unit : String) (root : List Component) :
    ∀ (os : List (String × Component)) (working : List Component),
      (apply unit root os working).events.filterMap Event.compiled? = []
  | [], _ => rfl
  | (key, c) :: rest, working => by
    rcases apply_step unit root key c rest working with
      ⟨e, -, happly⟩ | ⟨g, working', told, -, rfl | rfl, happly⟩
    · rw [happly]
      rfl
    · rw [happly]
      exact compiled_apply unit root rest working'
    · rw [happly]
      exact compiled_apply unit root rest working'

/-- Resolution compiles nothing. -/
theorem compiled_resolve (source : Source) (limit : Nat) (tree : Json) (unit : String) :
    (resolve source limit tree unit).events.filterMap Event.compiled? = [] := by
  rw [resolve]
  cases Document.ofJson tree unit >>= chain source limit unit with
  | error e => rfl
  | ok documents =>
    rcases documents with _ | ⟨leaf, _ | ⟨parent, rest⟩⟩
    · rfl
    · rfl
    · exact compiled_apply unit _ _ _

end Prefab

namespace Baker

variable {b : Baker}

/-! ## 2. The units that are compiled -/

/-- The documents that bake are those that come to a unit. -/
theorem length_filterMap_unit? (b : Baker) (trees : List Json) :
    (trees.filterMap b.unit?).length = (trees.filter b.bakes).length := by
  rw [List.length_filterMap_eq_countP, List.countP_eq_length_filter]
  rfl

/-- The documents that bake are counted. -/
theorem units_bakeAll (b : Baker) (batch : Batch) (trees : List Json) :
    (b.bakeAll batch trees).batch.units =
      batch.units + UInt32.ofNat (trees.filter b.bakes).length := by
  rw [batch_bakeAll, Batch.units_addUnits, length_filterMap_unit?]

theorem units_bakeTree (b : Baker) (batch : Batch) (tree : Json) :
    (b.bakeTree batch tree).batch.units =
      batch.units + if b.bakes tree = true then 1 else 0 := by
  have hbatch : (b.bakeTree batch tree).batch = batch.addUnits (b.unit? tree).toList :=
    batch_bakeNamed batch _
  rw [hbatch, Batch.units_addUnits]
  cases h : b.unit? tree with
  | none => simp [not_bakes_iff.mpr h]
  | some unit => simp [bakes_iff.mpr ⟨unit, h⟩]

/-- A document that bakes is compiled under its name and number, and nothing else is. -/
theorem compiled_bakeTree (b : Baker) (batch : Batch) (tree : Json) :
    (b.bakeTree batch tree).events.filterMap Event.compiled? =
      if b.bakes tree = true then [(unitName batch.units.toNat, batch.units)] else [] := by
  have hevents : (b.encodeUnit tree (unitName batch.units.toNat)).events.filterMap
      Event.compiled? = [] := Prefab.compiled_resolve _ _ _ _
  have hfailure : (b.bakeNamed batch tree (unitName batch.units.toNat)).failure = none ↔
      b.bakes tree = true := failure_bakeNamed batch _
  change (b.bakeNamed batch tree (unitName batch.units.toNat)).events.filterMap _ = _
  rw [bakeNamed] at hfailure ⊢
  cases hresult : (b.encodeUnit tree (unitName batch.units.toNat)).result with
  | error inner =>
    simp only [hresult, reduceCtorEq, false_iff] at hfailure
    rw [if_neg hfailure]
    exact hevents
  | ok instances =>
    simp only [hresult, true_iff] at hfailure
    rw [if_pos hfailure, List.filterMap_append, hevents]
    rfl

/-- **The units that are compiled are numbered without gaps.** -/
theorem compiled_bakeAll (b : Baker) : ∀ (trees : List Json) {batch : Batch} {n : Nat},
    batch.units = UInt32.ofNat n →
    (b.bakeAll batch trees).events.filterMap Event.compiled? =
      (List.range' n (trees.filter b.bakes).length).map fun k =>
        (unitName (UInt32.ofNat k).toNat, UInt32.ofNat k)
  | [], batch, n, hunits => by simp [bakeAll]
  | tree :: rest, batch, n, hunits => by
    have hnext := units_bakeTree b batch tree
    rw [bakeAll, List.filterMap_append, compiled_bakeTree]
    by_cases hbakes : b.bakes tree = true
    · have hn : (b.bakeTree batch tree).batch.units = UInt32.ofNat (n + 1) := by
        rw [hnext, if_pos hbakes, hunits, UInt32.ofNat_add]
        rfl
      rw [compiled_bakeAll b rest hn, if_pos hbakes, List.filter_cons_of_pos hbakes,
        List.length_cons, List.range'_succ, List.map_cons, hunits]
      rfl
    · have hn : (b.bakeTree batch tree).batch.units = UInt32.ofNat n := by
        rw [hnext, if_neg hbakes, hunits, UInt32.add_zero]
      rw [compiled_bakeAll b rest hn, if_neg hbakes, List.filter_cons_of_neg hbakes,
        List.nil_append]

/-- The units that are compiled in a run, by their names and indices. -/
theorem unitCompiled_mem_bakeAll_iff {trees : List Json}
    (hfew : (trees.filter b.bakes).length < 2 ^ 32) {name : String} {index : UInt32} :
    .unitCompiled name index ∈ (b.bakeAll .empty trees).events ↔
      ∃ k < (trees.filter b.bakes).length, name = unitName k ∧ index = UInt32.ofNat k := by
  have hcompiled : .unitCompiled name index ∈ (b.bakeAll .empty trees).events ↔
      (name, index) ∈ (b.bakeAll .empty trees).events.filterMap Event.compiled? := by
    rw [List.mem_filterMap]
    constructor
    · intro h
      exact ⟨_, h, rfl⟩
    · rintro ⟨event, hmem, hevent⟩
      cases event with
      | unitCompiled name' index' =>
        obtain ⟨rfl, rfl⟩ := Prod.mk.inj (Option.some.inj hevent)
        exact hmem
      | _ => cases hevent
  have hempty : Batch.empty.units = UInt32.ofNat 0 := rfl
  rw [hcompiled, compiled_bakeAll b trees hempty, List.mem_map]
  constructor
  · rintro ⟨k, hk, heq⟩
    have hlt : k < (trees.filter b.bakes).length := by simpa using List.mem_range'_1.mp hk
    obtain ⟨rfl, rfl⟩ := Prod.mk.inj heq
    exact ⟨k, hlt, by rw [UInt32.toNat_ofNat_of_lt' (Nat.lt_trans hlt hfew)], rfl⟩
  · rintro ⟨k, hlt, rfl, rfl⟩
    refine ⟨k, List.mem_range'_1.mpr ⟨Nat.zero_le k, by simpa using hlt⟩, ?_⟩
    rw [UInt32.toNat_ofNat_of_lt' (Nat.lt_trans hlt hfew)]

/-! ## 3. Faults and documents -/

/-- A document that fails does not count. -/
theorem length_filter_bakes_append {front rest : List Json} {tree : Json}
    (htree : b.bakes tree = false) :
    ((front ++ tree :: rest).filter b.bakes).length =
      (front.filter b.bakes).length + (rest.filter b.bakes).length := by
  rw [List.filter_append, List.filter_cons_of_neg (by simp [htree]), List.length_append]

/-- The name under which a document is baked that comes behind others: how many of them bake. -/
def nameAfter (b : Baker) (front : List Json) : String := unitName (front.filter b.bakes).length

/-- The name of a document moves on with each document that bakes. -/
theorem nameAfter_append_eq_iff {front between : List Json} {tree : Json}
    (htree : b.bakes tree = false) :
    b.nameAfter front = b.nameAfter (front ++ tree :: between) ↔
      ∀ t ∈ between, b.bakes t = false := by
  rw [nameAfter, nameAfter, unitName_inj, length_filter_bakes_append htree]
  constructor
  · intro h t ht
    have hnil : between.filter b.bakes = [] := List.length_eq_zero_iff.mp (by omega)
    simpa using List.filter_eq_nil_iff.mp hnil t ht
  · intro h
    have hnil : between.filter b.bakes = [] := List.filter_eq_nil_iff.mpr (by simpa using h)
    rw [hnil]
    rfl

/-- The fault of a document that fails is that of its first step that fails, under its name. -/
theorem failure_bakeAll_of_fails {front rest : List Json} {tree : Json}
    (hfew : (front.filter b.bakes).length < 2 ^ 32) (htree : b.bakes tree = false) :
    ∃ inner, b.FirstFault tree (b.nameAfter front) inner ∧
      (b.bakeAll .empty (front ++ tree :: rest)).failure[
        (front.filter fun tree => !b.bakes tree).length]? =
          some (inner.within (b.nameAfter front)) := by
  have hunits : (b.bakeMany .empty (front.filter b.bakes)).batch.units.toNat =
      (front.filter b.bakes).length := by
    have hempty : Batch.empty.units = 0 := rfl
    rw [batch_bakeMany_filter, units_bakeAll, hempty, UInt32.zero_add,
      UInt32.toNat_ofNat_of_lt' hfew]
  rw [failure_bakeAll_getElem? b .empty front rest htree, bakeTree, hunits]
  change ∃ inner, b.FirstFault tree (b.nameAfter front) inner ∧
    (b.bakeNamed _ tree (b.nameAfter front)).failure = some (inner.within (b.nameAfter front))
  cases hfailure : (b.bakeNamed (b.bakeMany .empty (front.filter b.bakes)).batch tree
      (b.nameAfter front)).failure with
  | none =>
    rw [(failure_bakeNamed _ _).mp hfailure] at htree
    cases htree
  | some fault =>
    obtain ⟨inner, hresult, rfl⟩ := failure_bakeNamed_eq_some_iff.mp hfailure
    exact ⟨inner, result_encodeUnit_eq_error_iff.mp hresult, rfl⟩

/-- **Faults belong to documents by their order, and their names tell how many units were before.**
There is one fault for each document that fails, in the order of the documents, and it is that of the
first step that fails, under the name of the document.  Two documents that fail have one name just if
no document between them bakes, and the name is also that of a unit just if a later document bakes,
which then has the number of the name. -/
theorem faults_attributed (b : Baker) (trees : List Json)
    (hfew : (trees.filter b.bakes).length < 2 ^ 32) :
    (b.bakeAll .empty trees).failure.length = (trees.filter fun tree => !b.bakes tree).length ∧
      (∀ front tree rest, trees = front ++ tree :: rest → b.bakes tree = false →
        ∃ inner, b.FirstFault tree (b.nameAfter front) inner ∧
          (b.bakeAll .empty trees).failure[(front.filter fun tree => !b.bakes tree).length]? =
            some (inner.within (b.nameAfter front)) ∧
          (inner.Bare → inner.within (b.nameAfter front) = .inUnit (b.nameAfter front) inner)) ∧
      (∀ front tree between tree' rest, trees = front ++ tree :: (between ++ tree' :: rest) →
        b.bakes tree = false → b.bakes tree' = false →
          (b.nameAfter front = b.nameAfter (front ++ tree :: between) ↔
            ∀ t ∈ between, b.bakes t = false)) ∧
      (∀ front tree rest index, trees = front ++ tree :: rest → b.bakes tree = false →
        (.unitCompiled (b.nameAfter front) index ∈ (b.bakeAll .empty trees).events ↔
          index = UInt32.ofNat (front.filter b.bakes).length ∧ ∃ t ∈ rest, b.bakes t = true)) := by
  refine ⟨length_failure_bakeAll b trees .empty, ?_, ?_, ?_⟩
  · rintro front tree rest rfl htree
    have hfront : (front.filter b.bakes).length < 2 ^ 32 := by
      rw [length_filter_bakes_append htree] at hfew
      omega
    obtain ⟨inner, hfirst, hfailure⟩ := failure_bakeAll_of_fails hfront htree
    exact ⟨inner, hfirst, hfailure, fun hbare => hbare.within _⟩
  · rintro front tree between tree' rest - htree -
    exact nameAfter_append_eq_iff htree
  · rintro front tree rest index rfl htree
    have hlater : 0 < (rest.filter b.bakes).length ↔ ∃ t ∈ rest, b.bakes t = true :=
      List.length_filter_pos_iff
    rw [unitCompiled_mem_bakeAll_iff hfew, length_filter_bakes_append htree, ← hlater]
    constructor
    · rintro ⟨k, hk, hname, rfl⟩
      obtain rfl := unitName_inj.mp hname
      exact ⟨rfl, by omega⟩
    · rintro ⟨rfl, hpos⟩
      exact ⟨_, by omega, rfl, rfl⟩

/-- Two documents of an unknown type with nothing between them, and one that bakes. -/
def namesakes : List Json := [byteUnit [("x", 1)], byteUnit [("y", 2)], byteUnit [("a", 3)]]

/-- **The names in faults tell neither the documents that fail apart nor those from units.** -/
theorem names_shared :
    (byteBaker.bakeAll .empty namesakes).failure.map Fault.unit? = [some "#0", some "#0"] ∧
      ¬ ((byteBaker.bakeAll .empty namesakes).failure.filterMap Fault.unit?).Nodup ∧
      .unitCompiled "#0" 0 ∈ (byteBaker.bakeAll .empty namesakes).events := by
  decide +kernel

/-- The two faults stand in the order of their documents; their name is that of the unit. -/
theorem faults_attributed_namesakes :
    (∃ inner inner', byteBaker.FirstFault (byteUnit [("x", 1)]) "#0" inner ∧
        byteBaker.FirstFault (byteUnit [("y", 2)]) "#0" inner' ∧
        (byteBaker.bakeAll .empty namesakes).failure[0]? = some (inner.within "#0") ∧
        (byteBaker.bakeAll .empty namesakes).failure[1]? = some (inner'.within "#0")) ∧
      byteBaker.nameAfter [] = byteBaker.nameAfter [byteUnit [("x", 1)]] ∧
      .unitCompiled "#0" 0 ∈ (byteBaker.bakeAll .empty namesakes).events := by
  have hx : byteBaker.bakes (byteUnit [("x", 1)]) = false := by decide +kernel
  have hy : byteBaker.bakes (byteUnit [("y", 2)]) = false := by decide +kernel
  have ha : byteBaker.bakes (byteUnit [("a", 3)]) = true := by decide +kernel
  obtain ⟨-, hfault, hname, hunit⟩ :=
    faults_attributed byteBaker namesakes (by decide +kernel)
  obtain ⟨inner, hfirst, hfailure, -⟩ := hfault [] _ _ rfl hx
  obtain ⟨inner', hfirst', hfailure', -⟩ := hfault [byteUnit [("x", 1)]] _ _ rfl hy
  have hnames : byteBaker.nameAfter [] = byteBaker.nameAfter [byteUnit [("x", 1)]] :=
    (hname [] _ [] _ _ rfl hx hy).mpr (by simp)
  have hplace : [byteUnit [("x", 1)]].filter (fun tree => !byteBaker.bakes tree) =
      [byteUnit [("x", 1)]] := by
    simp [hx]
  rw [← hnames] at hfirst' hfailure'
  rw [hplace] at hfailure'
  exact ⟨⟨inner, inner', hfirst, hfirst', hfailure, hfailure'⟩, hnames,
    (hunit [] _ _ 0 rfl hx).mpr ⟨rfl, byteUnit [("a", 3)], by simp, ha⟩⟩

end Baker

end UnitBake
