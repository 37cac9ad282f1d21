/-
# A unit that fails leaves no trace

Whether a document bakes, and what it adds, is a matter of the baker and the document
(`Baker.unit?`): neither the batch so far nor the name under which the unit is baked has a say.  That
is what makes the two ways of baking several documents agree.  Passing over the documents that fail
(`bakeAll`) reaches the batch that the others reach by themselves, and stopping at the first that
fails (`bakeMany`) reaches the batch of the documents before it.

`Baker.baking_atomic` collects this.  The faults need their own account, because a fault does show the
name of its unit and so the number of units before it: `failure_bakeAll_append` cuts the faults of a
run where the run is cut, and `failure_bakeMany` finds the one fault of a run that stops.
-/
import Mathlib.Data.List.Basic
import Mathlib.Data.List.TakeWhile
import UnitBake.Proofs.Baking.Unit

namespace UnitBake

namespace Baker

/-! ## 1. The documents that bake -/

theorem filterMap_unit?_filter (b : Baker) (trees : List Json) :
    (trees.filter b.bakes).filterMap b.unit? = trees.filterMap b.unit? := by
  rw [List.filterMap_filter]
  refine List.filterMap_congr ?_
  intro tree _
  unfold bakes
  cases b.unit? tree <;> rfl

/-- The documents that bake all bake when they are baked by themselves. -/
theorem takeWhile_filter_bakes (b : Baker) (trees : List Json) :
    (trees.filter b.bakes).takeWhile b.bakes = trees.filter b.bakes :=
  List.takeWhile_eq_self_iff.mpr fun _ h => (List.mem_filter.mp h).2

theorem dropWhile_filter_bakes (b : Baker) (trees : List Json) :
    (trees.filter b.bakes).dropWhile b.bakes = [] :=
  List.dropWhile_eq_nil_iff.mpr fun _ h => (List.mem_filter.mp h).2

/-- The documents up to the first that fails all bake. -/
theorem dropWhile_takeWhile_bakes (b : Baker) (trees : List Json) :
    (trees.takeWhile b.bakes).dropWhile b.bakes = [] :=
  List.dropWhile_eq_nil_iff.mpr fun _ h => List.mem_takeWhile_imp h

/-- Passing over the documents that fail is baking the others by themselves. -/
theorem batch_bakeMany_filter (b : Baker) (batch : Batch) (trees : List Json) :
    (b.bakeMany batch (trees.filter b.bakes)).batch = (b.bakeAll batch trees).batch := by
  rw [batch_bakeMany, batch_bakeAll, takeWhile_filter_bakes, filterMap_unit?_filter]

theorem batch_bakeMany_takeWhile (b : Baker) (batch : Batch) (trees : List Json) :
    (b.bakeMany batch (trees.takeWhile b.bakes)).batch = (b.bakeMany batch trees).batch := by
  rw [batch_bakeMany, batch_bakeMany, List.takeWhile_idem]

/-! ## 2. The faults of a run -/

/-- **The fault of a run that stops** is the one of the first document that fails, baked where the
documents before it lead. -/
theorem failure_bakeMany (b : Baker) : ∀ (trees : List Json) (batch : Batch),
    (b.bakeMany batch trees).failure =
      (trees.dropWhile b.bakes).head?.bind fun tree =>
        (b.bakeTree (b.bakeMany batch (trees.takeWhile b.bakes)).batch tree).failure
  | [], _ => rfl
  | tree :: rest, batch => by
    have hfailure : (b.bakeTree batch tree).failure = none ↔ b.bakes tree = true :=
      failure_bakeNamed batch _
    by_cases hbakes : b.bakes tree = true
    · rw [List.dropWhile_cons_of_pos hbakes, List.takeWhile_cons_of_pos hbakes]
      simp only [bakeMany, hfailure.mpr hbakes, failure_bakeMany b rest]
    · rw [List.dropWhile_cons_of_neg hbakes, List.takeWhile_cons_of_neg hbakes]
      obtain ⟨fault, hfault⟩ := Option.ne_none_iff_exists'.mp (fun h => hbakes (hfailure.mp h))
      simp only [bakeMany, hfault, List.head?_cons, Option.bind_some]

/-- Documents that all bake are baked without a fault. -/
theorem failure_bakeMany_of_dropWhile {b : Baker} {trees : List Json}
    (h : trees.dropWhile b.bakes = []) (batch : Batch) :
    (b.bakeMany batch trees).failure = none := by
  rw [failure_bakeMany, h]
  rfl

/-- The faults of a run are those of its front and those of the rest, baked where the front led. -/
theorem failure_bakeAll_append (b : Baker) : ∀ (front rest : List Json) (batch : Batch),
    (b.bakeAll batch (front ++ rest)).failure =
      (b.bakeAll batch front).failure ++
        (b.bakeAll (b.bakeAll batch front).batch rest).failure
  | [], _, _ => rfl
  | tree :: front, rest, batch => by
    simp only [List.cons_append, bakeAll, failure_bakeAll_append b front rest,
      List.append_assoc]

/-- There is one fault for each document that fails. -/
theorem length_failure_bakeAll (b : Baker) : ∀ (trees : List Json) (batch : Batch),
    (b.bakeAll batch trees).failure.length = (trees.filter fun tree => !b.bakes tree).length
  | [], _ => rfl
  | tree :: rest, batch => by
    have hfailure : (b.bakeTree batch tree).failure = none ↔ b.bakes tree = true :=
      failure_bakeNamed batch _
    have hrest := length_failure_bakeAll b rest (b.bakeTree batch tree).batch
    simp only [bakeAll, List.length_append, hrest]
    by_cases hbakes : b.bakes tree = true
    · rw [List.filter_cons_of_neg (by simp [hbakes]), hfailure.mpr hbakes]
      simp
    · rw [List.filter_cons_of_pos (by simp [hbakes])]
      obtain ⟨fault, hfault⟩ := Option.ne_none_iff_exists'.mp (fun h => hbakes (hfailure.mp h))
      rw [hfault, List.length_cons, Option.toList_some, List.length_singleton]
      omega

/-- **The faults stand in the order of the documents.**  The fault of a document that fails comes
behind as many faults as documents before it failed, and it is the one the document gives where the
documents before it that bake lead. -/
theorem failure_bakeAll_getElem? (b : Baker) (batch : Batch) (front rest : List Json)
    {tree : Json} (h : b.bakes tree = false) :
    (b.bakeAll batch (front ++ tree :: rest)).failure[
        (front.filter fun tree => !b.bakes tree).length]? =
      (b.bakeTree (b.bakeMany batch (front.filter b.bakes)).batch tree).failure := by
  have hfailure : ∀ batch, (b.bakeTree batch tree).failure = none ↔ b.bakes tree = true :=
    fun batch => failure_bakeNamed batch _
  rw [failure_bakeAll_append, batch_bakeMany_filter,
    List.getElem?_append_right (by rw [length_failure_bakeAll]), length_failure_bakeAll,
    Nat.sub_self, bakeAll]
  cases hfault : (b.bakeTree (b.bakeAll batch front).batch tree).failure with
  | none => rw [(hfailure _).mp hfault] at h; cases h
  | some fault => rfl

/-! ## 3. Atomicity -/

/-- A unit that fails leaves the batch as it was. -/
theorem batch_bakeNamed_of_failure {b : Baker} {batch : Batch} {tree : Json} {name : String}
    (h : (b.bakeNamed batch tree name).failure ≠ none) :
    (b.bakeNamed batch tree name).batch = batch := by
  have hunit : b.unit? tree = none :=
    not_bakes_iff.mp (Bool.eq_false_iff.mpr fun hbakes =>
      h ((failure_bakeNamed batch name).mpr hbakes))
  exact (bakeNamed_of_none batch hunit name).2

/-- **Baking is atomic, and the ways of baking several documents agree.**  From any batch:

* under any name, a document that comes to a unit adds that unit and does not fail, and one that comes
  to nothing fails and adds nothing;
* a unit of the content is baked like its document;
* a failure leaves the batch as it was;
* passing over failures reaches the batch of the documents that bake, with one fault for each of the
  others, in their order;
* stopping at a failure reaches the batch of the longest front that bakes, with the fault of the
  document behind it. -/
theorem baking_atomic (b : Baker) (batch : Batch) :
    (∀ tree name,
      match b.unit? tree with
      | some unit =>
        (b.bakeNamed batch tree name).failure = none ∧
          (b.bakeNamed batch tree name).batch = batch.addUnit unit
      | none =>
        (b.bakeNamed batch tree name).failure ≠ none ∧
          (b.bakeNamed batch tree name).batch = batch) ∧
    (∀ name tree, b.source.readUnit name = .ok tree →
      ((b.bakePath batch name).failure = none ↔ (b.bakeTree batch tree).failure = none) ∧
        (b.bakePath batch name).batch = (b.bakeTree batch tree).batch) ∧
    (∀ tree, (b.bakeTree batch tree).failure ≠ none → (b.bakeTree batch tree).batch = batch) ∧
    (∀ name, (b.bakePath batch name).failure ≠ none → (b.bakePath batch name).batch = batch) ∧
    (∀ trees,
      (b.bakeAll batch trees).batch = (b.bakeMany batch (trees.filter b.bakes)).batch ∧
        (b.bakeMany batch (trees.filter b.bakes)).failure = none ∧
        (b.bakeAll batch trees).failure.length =
          (trees.filter fun tree => !b.bakes tree).length ∧
        ∀ front tree rest, trees = front ++ tree :: rest → b.bakes tree = false →
          (b.bakeAll batch trees).failure[(front.filter fun tree => !b.bakes tree).length]? =
            (b.bakeTree (b.bakeMany batch (front.filter b.bakes)).batch tree).failure) ∧
    (∀ trees,
      (b.bakeMany batch trees).batch = (b.bakeMany batch (trees.takeWhile b.bakes)).batch ∧
        (b.bakeMany batch (trees.takeWhile b.bakes)).failure = none ∧
        (b.bakeMany batch trees).failure =
          (trees.dropWhile b.bakes).head?.bind fun tree =>
            (b.bakeTree (b.bakeMany batch (trees.takeWhile b.bakes)).batch tree).failure) := by
  refine ⟨?_, ?_, ?_, ?_, ?_, ?_⟩
  · intro tree name
    cases h : b.unit? tree with
    | some unit => exact bakeNamed_of_some batch h name
    | none =>
      obtain ⟨⟨fault, hfault⟩, hbatch⟩ := bakeNamed_of_none batch h name
      exact ⟨by rw [hfault]; exact Option.some_ne_none fault, hbatch⟩
  · intro name tree h
    simp only [bakePath, h, bakeTree, failure_bakeNamed, batch_bakeNamed, and_self]
  · intro tree h
    exact batch_bakeNamed_of_failure h
  · intro name h
    unfold bakePath at h ⊢
    cases hread : b.source.readUnit name with
    | error fault => rfl
    | ok tree =>
      rw [hread] at h
      exact batch_bakeNamed_of_failure h
  · intro trees
    refine ⟨(batch_bakeMany_filter b batch trees).symm,
      failure_bakeMany_of_dropWhile (dropWhile_filter_bakes b trees) batch,
      length_failure_bakeAll b trees batch, ?_⟩
    rintro front tree rest rfl h
    exact failure_bakeAll_getElem? b batch front rest h
  · intro trees
    exact ⟨(batch_bakeMany_takeWhile b batch trees).symm,
      failure_bakeMany_of_dropWhile (dropWhile_takeWhile_bakes b trees) batch,
      failure_bakeMany b trees batch⟩

/-- A document that fails between two that bake. -/
theorem baking_atomic_byteBaker :
    byteBaker.bakes (byteUnit [("a", 3), ("c", 4)]) = false ∧
      (byteBaker.bakeAll .empty
        [byteUnit [("a", 1)], byteUnit [("a", 3), ("c", 4)], byteUnit [("b", 2)]]).failure[0]? =
        (byteBaker.bakeTree (byteBaker.bakeMany .empty [byteUnit [("a", 1)]]).batch
          (byteUnit [("a", 3), ("c", 4)])).failure := by
  have hfails : byteBaker.bakes (byteUnit [("a", 3), ("c", 4)]) = false := by decide +kernel
  have hbakes : byteBaker.bakes (byteUnit [("a", 1)]) = true := by decide +kernel
  obtain ⟨-, -, -, -, hall, -⟩ := baking_atomic byteBaker .empty
  obtain ⟨-, -, -, hfault⟩ :=
    hall [byteUnit [("a", 1)], byteUnit [("a", 3), ("c", 4)], byteUnit [("b", 2)]]
  have h := hfault [byteUnit [("a", 1)]] _ _ rfl hfails
  rw [List.filter_cons_of_neg (by simp [hbakes]), List.filter_cons_of_pos hbakes] at h
  exact ⟨hfails, h⟩

end Baker

end UnitBake
