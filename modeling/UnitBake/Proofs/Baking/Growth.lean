/-
# Content that grows

Resources and units are added to content in memory, no unit in the place of one that was there.  What
the content had is still found and comes to the same (`MemorySource.Extends`), and that is all that a
document needs that bakes, or that fails for another reason than missing content
(`Builtin.found_of_encodeUnit`).  So such a document comes to the same afterwards, with its faults and
events, and a job without faults gives the same blob: `Builtin.kept_by_additions`.

It stops at missing content, as it must: an addition can be what a document waited for.
-/
import UnitBake.Proofs.Baking.Queries

namespace UnitBake

/-! ## 1. Additions -/

/-- What is added to content. -/
inductive Addition where
  | unit (name : String) (tree : Json)
  | resource (kind name : String)

/-- No unit of the content is replaced. -/
def Addition.NewTo (m : MemorySource) : Addition → Prop
  | .unit name _ => m.units.get? name = none
  | .resource _ _ => True

instance (m : MemorySource) : ∀ a : Addition, Decidable (a.NewTo m)
  | .unit name _ => inferInstanceAs (Decidable (m.units.get? name = none))
  | .resource _ _ => inferInstanceAs (Decidable True)

namespace MemorySource

/-- Adds to the content. -/
def add (m : MemorySource) : Addition → MemorySource
  | .unit name tree => m.insertUnit name tree
  | .resource kind name => m.insertResource kind name

/-- Adds to the content, one after the other. -/
def addAll (m : MemorySource) (additions : List Addition) : MemorySource := additions.foldl add m

/-- In memory a unit cannot be read only if it is not there. -/
theorem onlyLacks (m : MemorySource) : m.source.OnlyLacks := by
  intro name fault h
  change m.readUnit name = .error fault at h
  unfold readUnit at h
  split at h
  · cases h
  · cases h
    exact ⟨"unit", name, rfl⟩

/-! ## 2. What growing content keeps -/

/-- Whatever one content has, the other has too. -/
structure Extends (m m' : MemorySource) : Prop where
  units : ∀ name tree, m.units.get? name = some tree → m'.units.get? name = some tree
  resources : ∀ r ∈ m.resources, r ∈ m'.resources

theorem Extends.refl (m : MemorySource) : m.Extends m := ⟨fun _ _ h => h, fun _ h => h⟩

/-- **One addition keeps what was there.** -/
theorem Extends.add {m m' : MemorySource} (h : m.Extends m') :
    ∀ {a : Addition}, a.NewTo m → m.Extends (m'.add a)
  | .unit name tree, hnew => by
    refine ⟨?_, h.resources⟩
    intro other kept hkept
    have hne : other ≠ name := by
      rintro rfl
      rw [show m.units.get? other = none from hnew] at hkept
      cases hkept
    exact (Table.get?_insert_of_ne _ _ hne).trans (h.units other kept hkept)
  | .resource kind name, _ => ⟨h.units, fun r hr => List.mem_cons_of_mem _ (h.resources r hr)⟩

/-- **Any number of additions keeps what was there**, also where one is added over another. -/
theorem Extends.addAll {m : MemorySource} : ∀ {additions : List Addition} {m' : MemorySource},
    m.Extends m' → (∀ a ∈ additions, a.NewTo m) → m.Extends (m'.addAll additions)
  | [], _, h, _ => h
  | a :: rest, m', h, hnew => by
    obtain ⟨ha, hrest⟩ := List.forall_mem_cons.mp hnew
    have hstep : m.Extends ((m'.add a).addAll rest) := Extends.addAll (h.add ha) hrest
    exact hstep

theorem Extends.readUnit {m m' : MemorySource} (h : m.Extends m') {name : String} {tree : Json}
    (htree : m.readUnit name = .ok tree) : m'.readUnit name = .ok tree := by
  unfold MemorySource.readUnit at htree ⊢
  cases hget : m.units.get? name with
  | none => rw [hget] at htree; cases htree
  | some kept =>
    rw [hget] at htree
    rw [h.units name kept hget]
    exact htree

theorem Extends.resourceExists {m m' : MemorySource} (h : m.Extends m') {kind name : String}
    (hexists : m.resourceExists kind name = true) : m'.resourceExists kind name = true := by
  simp only [MemorySource.resourceExists, Table.contains, Bool.or_eq_true, Bool.and_eq_true,
    Option.isSome_iff_exists, List.contains_iff_mem] at hexists ⊢
  refine hexists.imp ?_ (h.resources _)
  rintro ⟨hkind, tree, htree⟩
  exact ⟨hkind, tree, h.units name tree htree⟩

/-- **What was found is answered as before.** -/
theorem Extends.agree {m m' : MemorySource} (h : m.Extends m') :
    ∀ {q : Query}, q.Found m.source → q.Agree m.source m'.source
  | .unit _, ⟨_, htree⟩ => htree.trans (h.readUnit htree).symm
  | .resource _ _, hexists => Eq.trans hexists (h.resourceExists hexists).symm

end MemorySource

/-! ## 3. What bakes goes on baking -/

namespace Builtin

variable {m m' : MemorySource} {depth : Nat}

/-- A document that is not held up by missing content comes to the same in content that extends it. -/
theorem encodeUnit_of_extends (h : m.Extends m') {tree : Json} {name : String}
    (hunhindered : Unhindered ((baker m.source depth).encodeUnit tree name).result) :
    (baker m'.source depth).encodeUnit tree name =
      (baker m.source depth).encodeUnit tree name := by
  have hfound := found_of_encodeUnit m.onlyLacks hunhindered
  exact (encodeUnit_congr (fun q hq => h.agree (hfound q hq)) name).symm

/-- A unit of the content too. -/
theorem bakePath_of_extends (h : m.Extends m') {batch : Batch} {name : String}
    (hfault : ∀ fault, ((baker m.source depth).bakePath batch name).failure = some fault →
      ¬ fault.Missing) :
    (baker m'.source depth).bakePath batch name = (baker m.source depth).bakePath batch name := by
  simp only [Baker.bakePath, source_baker] at hfault ⊢
  cases hread : m.source.readUnit name with
  | error fault =>
    rw [hread] at hfault
    exact absurd ((fault.missing_within name).mpr (m.onlyLacks name fault hread)) (hfault _ rfl)
  | ok tree =>
    have hread' : m'.source.readUnit name = .ok tree := h.readUnit hread
    simp only [hread] at hfault
    simp only [hread']
    rw [Baker.bakeNamed, Baker.bakeNamed, encodeUnit_of_extends h]
    intro fault hresult
    rw [← fault.missing_within name]
    refine hfault _ ?_
    rw [Baker.bakeNamed, hresult]

/-- A job without faults is served alike, and so its blob is the same. -/
theorem serveAll_of_extends (h : m.Extends m') {batch : Batch} {requests : List Request}
    (hnone : ∀ faults ∈ ((baker m.source depth).serveAll batch requests).failure, faults = []) :
    (baker m'.source depth).serveAll batch requests =
      (baker m.source depth).serveAll batch requests := by
  have hfound := found_of_serveAll m.onlyLacks hnone
  exact (serveAll_congr batch fun q hq => h.agree (hfound q hq)).symm

/-- **Adding content changes nothing that bakes.**  Let anything be added to content in memory, no
unit in the place of one that was there.  Then, with the built-in types and any limit on inheritance:

* a document that is encoded is encoded to the same instances, with the same events;
* a document that fails for another reason than missing content fails with the same fault;
* units of the content that bake, or fail for another reason, have the same outcome;
* a job without faults has none afterwards, and its blob is the same. -/
theorem kept_by_additions (m : MemorySource) (additions : List Addition)
    (hnew : ∀ a ∈ additions, a.NewTo m) (depth : Nat) :
    (∀ tree name instances,
      ((baker m.source depth).encodeUnit tree name).result = .ok instances →
        ((baker (m.addAll additions).source depth).encodeUnit tree name).result = .ok instances ∧
        ((baker (m.addAll additions).source depth).encodeUnit tree name).events =
          ((baker m.source depth).encodeUnit tree name).events) ∧
    (∀ tree name fault,
      ((baker m.source depth).encodeUnit tree name).result = .error fault →
      (∀ kind missing, fault.root ≠ .missingResource kind missing) →
        ((baker (m.addAll additions).source depth).encodeUnit tree name).result = .error fault) ∧
    (∀ batch name,
      (∀ fault, ((baker m.source depth).bakePath batch name).failure = some fault →
        ∀ kind missing, fault.root ≠ .missingResource kind missing) →
      (baker (m.addAll additions).source depth).bakePath batch name =
        (baker m.source depth).bakePath batch name) ∧
    ∀ batch requests,
      (∀ faults ∈ ((baker m.source depth).serveAll batch requests).failure, faults = []) →
        (baker (m.addAll additions).source depth).serveAll batch requests =
            (baker m.source depth).serveAll batch requests ∧
          (baker (m.addAll additions).source depth).finalize
              ((baker (m.addAll additions).source depth).serveAll batch requests).batch =
            (baker m.source depth).finalize
              ((baker m.source depth).serveAll batch requests).batch := by
  have hextends : m.Extends (m.addAll additions) := (MemorySource.Extends.refl m).addAll hnew
  have hmissing : ∀ fault : Fault,
      (∀ kind missing, fault.root ≠ .missingResource kind missing) → ¬ fault.Missing :=
    fun fault h ⟨kind, missing, hroot⟩ => h kind missing hroot
  refine ⟨?_, ?_, ?_, ?_⟩
  · intro tree name instances hresult
    rw [encodeUnit_of_extends hextends (.of_ok hresult)]
    exact ⟨hresult, rfl⟩
  · intro tree name fault hresult hroot
    rw [encodeUnit_of_extends hextends (.of_error hresult (hmissing fault hroot))]
    exact hresult
  · intro batch name hroot
    exact bakePath_of_extends hextends fun fault hfault => hmissing fault (hroot fault hfault)
  · intro batch requests hnone
    have hsame := serveAll_of_extends hextends hnone
    refine ⟨hsame, ?_⟩
    rw [hsame]
    rfl

/-- A camera unit and a mesh. -/
def cameraContent : MemorySource :=
  (MemorySource.empty.insertUnit "eye" (Baker.cameraUnit "perspective" 60)).insertResource "mesh"
    "cube"

/-- A unit with a mesh that inherits from the camera unit. -/
def watcher : Json :=
  .object [("components", .list [.object [("data", .object [("geometry_name", .text "body"),
    ("material", .text "plain"), ("mesh_resource", .text "cube"), ("visible", .bool true)]),
    ("type", .text "mesh_renderer")]]), ("prefab", .text "eye")]

/-- Two units, one of them twice, and a mesh that has the name of a unit. -/
def newContent : List Addition :=
  [.unit "ear" watcher, .unit "ear" (.list []), .resource "mesh" "eye", .unit "nose" watcher]

/-- What inherits from the content goes on baking, and what is wrong in itself stays wrong. -/
theorem kept_by_additions_watcher :
    ((baker (cameraContent.addAll newContent).source 4).finalize
        ((baker (cameraContent.addAll newContent).source 4).serveAll .empty
          [.path "eye", .tree watcher]).batch).result =
      ((baker cameraContent.source 4).finalize
        ((baker cameraContent.source 4).serveAll .empty
          [.path "eye", .tree watcher]).batch).result ∧
    ((baker (cameraContent.addAll newContent).source 4).encodeUnit
        (Baker.cameraUnit "fisheye" 75) "fish").result =
      .error (.unknownVariant "projection" "fisheye") := by
  have hnew : ∀ a ∈ newContent, a.NewTo cameraContent := by decide +kernel
  obtain ⟨-, hfault, -, hjob⟩ := kept_by_additions cameraContent newContent hnew 4
  constructor
  · have hnone : ∀ faults ∈ ((baker cameraContent.source 4).serveAll .empty
        [.path "eye", .tree watcher]).failure, faults = [] := by
      decide +kernel
    rw [(hjob _ _ hnone).2]
  · refine hfault _ _ _ ?_ ?_
    · decide +kernel
    · intro kind missing h
      cases h

end Builtin

end UnitBake
