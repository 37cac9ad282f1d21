/-
# The spelling of a document does not matter

A document may be given in several spellings: as an object or as a list, with members that are no
fields, with ids in capitals or in braces, with defaults written out.  Whatever the spelling, what is
made of a tree goes through `Document.read`, and the tree that a document is written to reads as the
one that it was read from.

So two contents whose units read alike (`Source.ReadsAlike`) lead to the same chains, whatever the
spellings of the parents (`Prefab.resolve_of_readsAlike`), and a unit bakes alike from trees that read
alike (`Baker.bakeNamed_of_readsAlike`).

Encoders are given the content and could look at the spelling of a unit in it.  Those of the built-in
types ask for resources only (`Builtin.indifferent`); of others it must be said that they take no notice
(`Registry.Indifferent`).
-/
import UnitBake.Proofs.Baking.Queries
import UnitBake.Proofs.Document.RoundTrip

namespace UnitBake

/-! ## 1. Contents that read alike -/

theorem Document.toJson_injective : Function.Injective toJson := by
  intro d d' h
  have hread := d.read_toJson
  rw [h, d'.read_toJson] at hread
  exact (Except.ok.inj hread).symm

theorem Document.ofJson_congr {v w : Json} (h : read v = read w) (path : String) :
    ofJson v path = ofJson w path := by
  rw [ofJson, h, ofJson]

namespace Source

/-- The units of two contents read alike: each to the same document or with the same error, or it
cannot be read at all for the same reason. -/
def ReadsAlike (s s' : Source) : Prop :=
  ∀ name, (s.readUnit name).map Document.read = (s'.readUnit name).map Document.read

/-- The content with another tree for one unit. -/
def replaceUnit (s : Source) (unit : String) (tree : Json) : Source :=
  { s with readUnit := fun name => if name = unit then .ok tree else s.readUnit name }

theorem readUnit_replaceUnit (s : Source) (unit : String) (tree : Json) (name : String) :
    (s.replaceUnit unit tree).readUnit name =
      if name = unit then .ok tree else s.readUnit name := rfl

variable {s s' : Source}

theorem ReadsAlike.refl (s : Source) : s.ReadsAlike s := fun _ => rfl

theorem ReadsAlike.cases (h : s.ReadsAlike s') (name : String) :
    (∃ fault, s.readUnit name = .error fault ∧ s'.readUnit name = .error fault) ∨
      ∃ v w, s.readUnit name = .ok v ∧ s'.readUnit name = .ok w ∧
        Document.read v = Document.read w := by
  have hname := h name
  cases hs : s.readUnit name with
  | error fault =>
    rw [hs] at hname
    exact Or.inl ⟨fault, rfl, map_eq_error.mp hname.symm⟩
  | ok v =>
    rw [hs] at hname
    obtain ⟨w, hw, hread⟩ := map_eq_ok.mp hname.symm
    exact Or.inr ⟨v, w, rfl, hw, hread.symm⟩

/-- A unit may be replaced by a tree that reads alike. -/
theorem readsAlike_replaceUnit {unit : String} {v w : Json} (hunit : s.readUnit unit = .ok v)
    (hread : Document.read v = Document.read w) : s.ReadsAlike (s.replaceUnit unit w) := by
  intro name
  rw [readUnit_replaceUnit]
  by_cases hname : name = unit
  · rw [hname, hunit, if_pos rfl]
    exact congrArg Except.ok hread
  · rw [if_neg hname]

end Source

/-! ## 2. Resolution -/

namespace Prefab

variable {s s' : Source}

/-- The walk from parent to parent leads to the same documents. -/
theorem ancestors_of_readsAlike (h : s.ReadsAlike s') (e : Fault) :
    ∀ (allowed : Nat) (d : Document), ancestors s e allowed d = ancestors s' e allowed d
  | allowed, d => by
    rw [ancestors, ancestors]
    cases d.parent with
    | none => rfl
    | some parent =>
      cases allowed with
      | zero => rfl
      | succ allowed =>
        rcases h.cases parent with ⟨fault, hs, hs'⟩ | ⟨v, w, hs, hs', hread⟩
        · simp only [hs, hs', bind, Except.bind]
        · simp only [hs, hs', bind, Except.bind, Document.ofJson_congr hread,
            ancestors_of_readsAlike h e allowed]

/-- **A unit is resolved alike** from a tree that reads alike, in content that reads alike: to the same
components with the same events, or to the same fault. -/
theorem resolve_of_readsAlike (h : s.ReadsAlike s') {v w : Json}
    (hread : Document.read v = Document.read w) (limit : Nat) (unit : String) :
    resolve s limit v unit = resolve s' limit w unit := by
  have hchain : chain s limit unit = chain s' limit unit := by
    funext leaf
    rw [chain, chain, ancestors_of_readsAlike h]
  rw [resolve, resolve, Document.ofJson_congr hread, hchain]

end Prefab

/-! ## 3. Encoders -/

/-- The registered encoders return the same, whichever of two contents they are given. -/
def Registry.Indifferent (r : Registry) (s s' : Source) : Prop :=
  ∀ t encoder, r.get? t = some encoder →
    ∀ component data, encoder ⟨component, s⟩ data = encoder ⟨component, s'⟩ data

theorem Registry.Indifferent.refl (r : Registry) (s : Source) : r.Indifferent s s :=
  fun _ _ _ _ _ => rfl

namespace Builtin

/-- What a component refers to is a resource. -/
theorem Kind.exists_resource {k : Kind} {data : Json} {q : Query} (h : q ∈ k.query? data) :
    ∃ kind name, q = .resource kind name := by
  cases k with
  | transform => cases h
  | camera => cases h
  | light => cases h
  | meshRenderer =>
    obtain ⟨m, -, rfl⟩ := Option.map_eq_some_iff.mp h
    exact ⟨_, _, rfl⟩
  | spriteRenderer =>
    obtain ⟨r, -, rfl⟩ := Option.map_eq_some_iff.mp h
    exact ⟨_, _, rfl⟩
  | script =>
    obtain ⟨n, -, rfl⟩ := Option.map_eq_some_iff.mp h
    exact ⟨_, _, rfl⟩
  | stateMachine =>
    obtain ⟨n, -, rfl⟩ := Option.map_eq_some_iff.mp h
    exact ⟨_, _, rfl⟩

/-- **The built-in encoders ask for resources only.** -/
theorem indifferent {s s' : Source} (h : s.resourceExists = s'.resourceExists) :
    registry.Indifferent s s' := by
  intro t encoder hget component data
  obtain ⟨k, -, rfl⟩ := exists_kind_of_get? hget
  refine Kind.encode_congr fun q hq => ?_
  obtain ⟨kind, name, rfl⟩ := Kind.exists_resource hq
  exact congrFun (congrFun h kind) name

end Builtin

/-! ## 4. Baking -/

namespace Baker

variable {b : Baker} {s : Source}

theorem encodeComponent_of_indifferent (h : b.registry.Indifferent b.source s) (c : Component) :
    { b with source := s }.encodeComponent c = b.encodeComponent c := by
  simp only [encodeComponent]
  cases hget : b.registry.get? (.ofName c.typeName) with
  | none => rfl
  | some encoder => simp only [h _ _ hget]

theorem encodeAll_of_indifferent (h : b.registry.Indifferent b.source s) :
    ∀ components : List Component,
      { b with source := s }.encodeAll components = b.encodeAll components
  | [] => rfl
  | c :: rest => by
    rw [encodeAll, encodeAll, encodeComponent_of_indifferent h, encodeAll_of_indifferent h rest]

/-- **A unit bakes alike** from a tree that reads alike, in content that reads alike. -/
theorem bakeNamed_of_readsAlike (hs : b.source.ReadsAlike s)
    (h : b.registry.Indifferent b.source s) {v w : Json}
    (hread : Document.read v = Document.read w) (batch : Batch) (name : String) :
    { b with source := s }.bakeNamed batch w name = b.bakeNamed batch v name := by
  have hencode : { b with source := s }.encodeAll = b.encodeAll :=
    funext (encodeAll_of_indifferent h)
  have hunit : { b with source := s }.encodeUnit w name = b.encodeUnit v name := by
    rw [encodeUnit, encodeUnit, hencode, Prefab.resolve_of_readsAlike hs hread]
  rw [bakeNamed, bakeNamed, hunit]

/-- So does a unit of the content. -/
theorem bakePath_of_readsAlike (hs : b.source.ReadsAlike s)
    (h : b.registry.Indifferent b.source s) (batch : Batch) (name : String) :
    { b with source := s }.bakePath batch name = b.bakePath batch name := by
  rw [bakePath, bakePath]
  rcases hs.cases name with ⟨fault, hfault, hfault'⟩ | ⟨v, w, hv, hw, hread⟩
  · simp only [hfault, hfault']
  · simp only [hv, hw]
    exact bakeNamed_of_readsAlike hs h hread batch name

end Baker

/-! ## 5. Written documents -/

namespace Document

/-- **Documents survive being written.**  A written document reads back, so two documents are never
written alike.  And if a tree is read to a document, then the tree that the document is written to

* is what it comes to when it is read and written again;
* is resolved, and bakes under any name, as the first tree does;
* may take the place of the first tree as a unit of the content, say as the parent of others: units
  are resolved as before, and bake as before if the encoders take no notice, as the built-in ones do.

Resolving and baking alike includes faults, events and the batch. -/
theorem survives_writing :
    (∀ d : Document, read d.toJson = .ok d) ∧
    (∀ d d' : Document, d.toJson = d'.toJson → d = d') ∧
    ∀ v d, read v = .ok d →
      (∀ d', read d.toJson = .ok d' → d'.toJson = d.toJson) ∧
      (∀ source limit unit,
        Prefab.resolve source limit d.toJson unit = Prefab.resolve source limit v unit) ∧
      (∀ (b : Baker) batch name, b.bakeNamed batch d.toJson name = b.bakeNamed batch v name) ∧
      ∀ (source : Source) parent, source.readUnit parent = .ok v →
        (∀ limit tree unit,
          Prefab.resolve (source.replaceUnit parent d.toJson) limit tree unit =
            Prefab.resolve source limit tree unit) ∧
        (∀ registry depth, registry.Indifferent source (source.replaceUnit parent d.toJson) →
          ∀ batch,
            (∀ tree name,
              (Baker.mk registry (source.replaceUnit parent d.toJson) depth).bakeNamed batch tree
                  name =
                (Baker.mk registry source depth).bakeNamed batch tree name) ∧
            ∀ name,
              (Baker.mk registry (source.replaceUnit parent d.toJson) depth).bakePath batch name =
                (Baker.mk registry source depth).bakePath batch name) ∧
        ∀ depth batch,
          (∀ tree name,
            (Builtin.baker (source.replaceUnit parent d.toJson) depth).bakeNamed batch tree name =
              (Builtin.baker source depth).bakeNamed batch tree name) ∧
          ∀ name,
            (Builtin.baker (source.replaceUnit parent d.toJson) depth).bakePath batch name =
              (Builtin.baker source depth).bakePath batch name := by
  refine ⟨read_toJson, fun d d' h => toJson_injective h, ?_⟩
  intro v d hv
  have hread : read v = read d.toJson := hv.trans d.read_toJson.symm
  refine ⟨?_, ?_, ?_, ?_⟩
  · intro d' hd'
    rw [Except.ok.inj (d.read_toJson.symm.trans hd')]
  · intro source limit unit
    exact Prefab.resolve_of_readsAlike (.refl source) hread.symm limit unit
  · intro b batch name
    exact Baker.bakeNamed_of_readsAlike (.refl b.source) (.refl b.registry b.source) hread batch name
  · intro source parent hparent
    have hsource := Source.readsAlike_replaceUnit hparent hread
    -- a registry that takes no notice bakes alike, and the built-in one is such
    have hbakes : ∀ (registry : Registry) (depth : Nat),
        registry.Indifferent source (source.replaceUnit parent d.toJson) → ∀ batch,
          (∀ tree name,
            (Baker.mk registry (source.replaceUnit parent d.toJson) depth).bakeNamed batch tree
                name =
              (Baker.mk registry source depth).bakeNamed batch tree name) ∧
          ∀ name,
            (Baker.mk registry (source.replaceUnit parent d.toJson) depth).bakePath batch name =
              (Baker.mk registry source depth).bakePath batch name := by
      intro registry depth hregistry batch
      refine ⟨fun tree name => ?_, fun name => ?_⟩
      · exact Baker.bakeNamed_of_readsAlike (b := ⟨registry, source, depth⟩) hsource hregistry rfl
          batch name
      · exact Baker.bakePath_of_readsAlike (b := ⟨registry, source, depth⟩) hsource hregistry batch
          name
    refine ⟨?_, hbakes, ?_⟩
    · intro limit tree unit
      exact (Prefab.resolve_of_readsAlike hsource rfl limit unit).symm
    · intro depth batch
      exact hbakes Builtin.registry depth (Builtin.indifferent rfl) batch

/-- A unit given as a list, in which everything is told. -/
def listed : Json :=
  .list [.null, .object [], .list [.list [.null, .text "a", .ofNat 9]]]

/-- The content with that unit, which `heir` inherits from. -/
def listedContent : Source := (MemorySource.empty.insertUnit "base" listed).source

/-- A unit without components of its own. -/
def heir : Json := .object [("prefab", .text "base")]

/-- The list may be replaced by the object that it is written to, and the unit bakes as before. -/
theorem survives_writing_listed :
    (Baker.mk byteBaker.registry (listedContent.replaceUnit "base" (byteUnit [("a", 9)]))
        4).bakeNamed .empty heir "heir" =
      (Baker.mk byteBaker.registry listedContent 4).bakeNamed .empty heir "heir" ∧
    ((Baker.mk byteBaker.registry listedContent 4).bakeNamed .empty heir "heir").failure = none := by
  obtain ⟨-, -, hwritten⟩ := survives_writing
  have hread : read listed = .ok ⟨none, .empty, [⟨none, "a", .ofNat 9⟩]⟩ := by rfl
  have hencoder : ∀ t encoder, byteBaker.registry.get? t = some encoder → encoder = byteEncoder := by
    intro t encoder hget
    obtain ⟨r, hr, rfl⟩ := Option.map_eq_some_iff.mp hget
    simp only [byteBaker, Registry.types_ofTypes, Table.get?_insert, Table.get?_empty] at hr
    split at hr
    · rw [← Option.some.inj hr]
    · split at hr
      · rw [← Option.some.inj hr]
      · cases hr
  obtain ⟨-, -, -, hreplaced⟩ := hwritten _ _ hread
  obtain ⟨-, hbakes, -⟩ := hreplaced listedContent "base" (by rfl)
  refine ⟨(hbakes byteBaker.registry 4 ?_ .empty).1 heir "heir", by decide +kernel⟩
  intro t encoder hget component data
  rw [hencoder t encoder hget]
  rfl

end Document

end UnitBake
