/-
# What baking asks of the content

Baking sees the content through two questions only: what the tree of a unit is, and whether there is a
resource.  For the built-in types `Builtin.queries` lists the questions that one document leads to:
the parents that are read on the way to its root, then the resources that its components refer to, up
to the first component that fails.  The list is right in both directions.

* **Nothing else is asked.**  Two sources that answer these questions alike bake the document alike,
  with the same fault or instances and the same events (`Builtin.encodeUnit_congr`), and the same
  holds of whole jobs (`Builtin.serveAll_congr`).
* **All of it is needed.**  A document that bakes, or that fails for another reason than that
  something is missing, has found whatever it asked for (`Builtin.found_of_encodeUnit`,
  `Builtin.found_of_serve`).
-/
import UnitBake.Proofs.Baking.BuiltinRecords

namespace UnitBake

/-! ## 1. Questions and answers -/

/-- What is asked of a source. -/
inductive Query where
  | unit (name : String)
  | resource (kind name : String)
deriving DecidableEq, Repr

namespace Query

/-- The name of what is asked for. -/
def name : Query → String
  | unit name => name
  | resource _ name => name

/-- Two sources answer alike. -/
def Agree (s s' : Source) : Query → Prop
  | unit name => s.readUnit name = s'.readUnit name
  | resource kind name => s.resourceExists kind name = s'.resourceExists kind name

/-- What is asked for is there. -/
def Found (s : Source) : Query → Prop
  | unit name => ∃ tree, s.readUnit name = .ok tree
  | resource kind name => s.resourceExists kind name = true

end Query

/-- The fault comes of something that is missing from the content. -/
def Fault.Missing (fault : Fault) : Prop :=
  ∃ kind name, fault.root = .missingResource kind name

/-- Naming a unit does not change what a fault comes of. -/
theorem Fault.missing_within (unit : String) (fault : Fault) :
    (fault.within unit).Missing ↔ fault.Missing := by
  simp only [Missing, root_within]

/-- Units cannot be read only if they are not there. -/
def Source.OnlyLacks (s : Source) : Prop := ∀ name, FailsOnly Fault.Missing (s.readUnit name)

/-- The computation does not fail because something is missing. -/
abbrev Unhindered {α : Type} (x : Except Fault α) : Prop := FailsOnly (fun fault => ¬ fault.Missing) x

/-! ## 2. The way to the root -/

namespace Prefab

/-- The units that are read on the way from a document to its root. -/
def queries (source : Source) : Nat → Document → List Query
  | allowed, d =>
    match d.parent with
    | none => []
    | some parent =>
      match allowed with
      | 0 => []
      | allowed + 1 =>
        .unit parent ::
          match source.readUnit parent >>= fun tree => Document.ofJson tree parent with
          | .error _ => []
          | .ok document => queries source allowed document

theorem ancestors_congr {s s' : Source} {e : Fault} : ∀ {allowed : Nat} {d : Document},
    (∀ q ∈ queries s allowed d, q.Agree s s') →
      ancestors s e allowed d = ancestors s' e allowed d
  | allowed, d, h => by
    rw [ancestors, ancestors]
    rw [queries] at h
    cases hparent : d.parent with
    | none => rfl
    | some parent =>
      cases allowed with
      | zero => rfl
      | succ allowed =>
        simp only [hparent] at h ⊢
        have hread : s.readUnit parent = s'.readUnit parent := h _ List.mem_cons_self
        rw [← hread]
        cases htree : s.readUnit parent with
        | error fault => rfl
        | ok tree =>
          cases hdocument : Document.ofJson tree parent with
          | error fault => simp [bind, Except.bind, hdocument]
          | ok document =>
            have hrest : ancestors s e allowed document = ancestors s' e allowed document := by
              refine ancestors_congr fun q hq => h q (List.mem_cons_of_mem _ ?_)
              simpa [bind, Except.bind, htree, hdocument] using hq
            simp [bind, Except.bind, hdocument, hrest]

/-- A walk that is not held up by a missing unit has found all parents. -/
theorem found_of_ancestors {s : Source} (hs : s.OnlyLacks) {e : Fault} :
    ∀ {allowed : Nat} {d : Document}, Unhindered (ancestors s e allowed d) →
      ∀ q ∈ queries s allowed d, q.Found s
  | allowed, d, h => by
    rw [ancestors] at h
    rw [queries]
    cases hparent : d.parent with
    | none => exact fun q hq => by cases hq
    | some parent =>
      cases allowed with
      | zero => exact fun q hq => by cases hq
      | succ allowed =>
        simp only [hparent] at h ⊢
        obtain ⟨hread, h⟩ := h.of_bind
        cases htree : s.readUnit parent with
        | error fault => exact absurd (hs parent fault htree) (hread fault htree)
        | ok tree =>
          obtain ⟨-, h⟩ := (h tree htree).of_bind
          refine List.forall_mem_cons.mpr ⟨⟨tree, htree⟩, ?_⟩
          cases hdocument : Document.ofJson tree parent with
          | error fault => simp [bind, Except.bind, hdocument]
          | ok document =>
            intro q hq
            simp only [bind, Except.bind, hdocument] at hq
            exact found_of_ancestors hs (h document hdocument).of_bind.1 q hq

section

variable {s s' : Source} {limit : Nat} {tree : Json} {u : String}

/-- **Nothing else is asked by resolution.** -/
theorem resolve_congr
    (h : ∀ d, Document.read tree = .ok d → ∀ q ∈ queries s (limit - 1) d, q.Agree s s') :
    resolve s limit tree u = resolve s' limit tree u := by
  rw [resolve, resolve, Document.ofJson]
  cases hread : Document.read tree with
  | error e => rfl
  | ok d =>
    have hchain : chain s limit u d = chain s' limit u d := by
      rw [chain, chain, ancestors_congr (h d hread)]
    simp only [bind, Except.bind, Except.mapError, hchain]

theorem found_of_resolve (hs : s.OnlyLacks)
    (h : Unhindered (resolve s limit tree u).result) {d : Document}
    (hread : Document.read tree = .ok d) : ∀ q ∈ queries s (limit - 1) d, q.Found s := by
  have hdocument : Document.ofJson tree u = .ok d := by rw [Document.ofJson, hread]; rfl
  rw [result_resolve, hdocument] at h
  exact found_of_ancestors hs h.of_bind.1.of_map

end

end Prefab

/-! ## 3. The encoders of the built-in types -/

section

variable {α : Type} {read : Json → Except ShapeError α} {kind : String} {name : α → String}
  {bytes : α → List UInt8} {component : String} {s s' : Source} {data : Json}

/-- An encoder that requires one resource asks for that alone. -/
theorem encode_referring_congr
    (h : ∀ x, read data = .ok x →
      s.resourceExists kind (name x) = s'.resourceExists kind (name x)) :
    (do
      let x ← (EncodeContext.mk component s).parse read data
      (EncodeContext.mk component s).require kind (name x)
      return bytes x) =
    (do
      let x ← (EncodeContext.mk component s').parse read data
      (EncodeContext.mk component s').require kind (name x)
      return bytes x) := by
  simp only [EncodeContext.parse, EncodeContext.require]
  cases hread : read data with
  | error e => rfl
  | ok x => simp only [Except.mapError, bind, Except.bind, h x hread]

/-- If the resource is not there, that is the fault. -/
theorem found_of_encode_referring
    (h : Unhindered (do
      let x ← (EncodeContext.mk component s).parse read data
      (EncodeContext.mk component s).require kind (name x)
      return bytes x)) {x : α} (hread : read data = .ok x) :
    s.resourceExists kind (name x) = true := by
  have hparse : (EncodeContext.mk component s).parse read data = .ok x := by
    rw [EncodeContext.parse, hread]
    rfl
  obtain ⟨hrequire, -⟩ := (h.of_bind.2 x hparse).of_bind
  by_contra hnot
  refine hrequire (.missingResource kind (name x)) ?_ ⟨kind, name x, rfl⟩
  exact if_neg hnot

end

namespace Builtin

namespace Kind

/-- The encoder of a type. -/
def encode : Kind → Encoder
  | transform => Transform.encode
  | camera => Camera.encode
  | meshRenderer => MeshRenderer.encode
  | spriteRenderer => SpriteRenderer.encode
  | light => Light.encode
  | script => Reference.script.encode
  | stateMachine => Reference.stateMachine.encode

/-- The resource that the data of a component refers to. -/
def query? : Kind → Json → Option Query
  | meshRenderer, data => (MeshRenderer.read data).toOption.map fun m => .resource "mesh" m.mesh
  | spriteRenderer, data =>
    (SpriteRenderer.read data).toOption.map fun s => .resource "sprite" s.sprite
  | script, data => (Reference.script.read data).toOption.map (.resource Reference.script.kind)
  | stateMachine, data =>
    (Reference.stateMachine.read data).toOption.map (.resource Reference.stateMachine.kind)
  | _, _ => none

/-- The type with an id. -/
def ofTypeId? (t : TypeId) : Option Kind := all.find? fun k => k.typeId == t

theorem typeId_of_ofTypeId? {t : TypeId} {k : Kind} (h : ofTypeId? t = some k) : k.typeId = t := by
  unfold ofTypeId? at h
  have htype := List.find?_some h
  exact eq_of_beq htype

theorem ofTypeId?_typeId (k : Kind) : ofTypeId? k.typeId = some k := by
  cases h : ofTypeId? k.typeId with
  | none => exact absurd (beq_self_eq_true _) (List.find?_eq_none.mp h k (mem_all k))
  | some k' => rw [eq_of_typeId_eq (typeId_of_ofTypeId? h)]

theorem exists_of_mem_types {entry : String × Encoder × UInt32} (h : entry ∈ types) :
    ∃ k : Kind, k.name = entry.1 ∧ k.encode = entry.2.1 := by
  simp only [types, List.mem_cons, List.not_mem_nil, or_false] at h
  rcases h with rfl | rfl | rfl | rfl | rfl | rfl | rfl
  · exact ⟨transform, rfl, rfl⟩
  · exact ⟨camera, rfl, rfl⟩
  · exact ⟨meshRenderer, rfl, rfl⟩
  · exact ⟨spriteRenderer, rfl, rfl⟩
  · exact ⟨light, rfl, rfl⟩
  · exact ⟨script, rfl, rfl⟩
  · exact ⟨stateMachine, rfl, rfl⟩

variable {k : Kind} {s s' : Source} {component : String} {data : Json}

theorem encode_congr (h : ∀ q ∈ k.query? data, q.Agree s s') :
    k.encode ⟨component, s⟩ data = k.encode ⟨component, s'⟩ data := by
  cases k with
  | transform => rfl
  | camera => rfl
  | light => rfl
  | meshRenderer =>
    refine encode_referring_congr fun m hm => h (.resource "mesh" m.mesh) ?_
    simp [query?, hm, Except.toOption]
  | spriteRenderer =>
    refine encode_referring_congr fun r hr => h (.resource "sprite" r.sprite) ?_
    simp [query?, hr, Except.toOption]
  | script =>
    refine encode_referring_congr fun n hn => h (.resource Reference.script.kind n) ?_
    simp [query?, hn, Except.toOption]
  | stateMachine =>
    refine encode_referring_congr fun n hn => h (.resource Reference.stateMachine.kind n) ?_
    simp [query?, hn, Except.toOption]

theorem found_of_encode (h : Unhindered (k.encode ⟨component, s⟩ data)) :
    ∀ q ∈ k.query? data, q.Found s := by
  cases k with
  | transform => exact fun q hq => by cases hq
  | camera => exact fun q hq => by cases hq
  | light => exact fun q hq => by cases hq
  | meshRenderer =>
    intro q hq
    obtain ⟨m, hm, rfl⟩ := Option.map_eq_some_iff.mp hq
    exact found_of_encode_referring h (eq_ok_of_toOption hm)
  | spriteRenderer =>
    intro q hq
    obtain ⟨r, hr, rfl⟩ := Option.map_eq_some_iff.mp hq
    exact found_of_encode_referring h (eq_ok_of_toOption hr)
  | script =>
    intro q hq
    obtain ⟨n, hn, rfl⟩ := Option.map_eq_some_iff.mp hq
    exact found_of_encode_referring h (eq_ok_of_toOption hn)
  | stateMachine =>
    intro q hq
    obtain ⟨n, hn, rfl⟩ := Option.map_eq_some_iff.mp hq
    exact found_of_encode_referring h (eq_ok_of_toOption hn)

end Kind

/-- What is registered is the encoder of a built-in type. -/
theorem exists_kind_of_get? {t : TypeId} {encoder : Encoder} (h : registry.get? t = some encoder) :
    ∃ k : Kind, k.typeId = t ∧ encoder = k.encode := by
  obtain ⟨r, hr, rfl⟩ := Option.map_eq_some_iff.mp h
  rcases get?_registerAll hr with hempty | ⟨e, he, htype, rfl⟩
  · cases hempty
  · obtain ⟨k, hname, hencode⟩ := Kind.exists_of_mem_types he
    refine ⟨k, ?_, hencode.symm⟩
    rw [Kind.typeId, hname]
    exact htype

/-! ## 4. Documents -/

/-- The resource that a component refers to. -/
def query? (c : Component) : Option Query :=
  (Kind.ofTypeId? (.ofName c.typeName)).bind fun k => k.query? c.data

/-- Every built-in type is registered. -/
theorem get?_typeId (k : Kind) : registry.get? k.typeId = some k.encode := by
  have hsome : (registry.get? k.typeId).isSome = true := by
    cases k <;> decide +kernel
  obtain ⟨encoder, hget⟩ := Option.isSome_iff_exists.mp hsome
  obtain ⟨k', htype, rfl⟩ := exists_kind_of_get? hget
  rw [hget, Kind.eq_of_typeId_eq htype]

variable {s s' : Source} {depth : Nat}

@[simp] theorem source_baker (s : Source) (depth : Nat) : (baker s depth).source = s := rfl

theorem encodeComponent_congr {c : Component} (h : ∀ q ∈ query? c, q.Agree s s') :
    (baker s depth).encodeComponent c = (baker s' depth).encodeComponent c := by
  simp only [Baker.encodeComponent, baker]
  cases hget : registry.get? (.ofName c.typeName) with
  | none => rfl
  | some encoder =>
    obtain ⟨k, htype, rfl⟩ := exists_kind_of_get? hget
    have hquery : query? c = k.query? c.data := by rw [query?, ← htype, k.ofTypeId?_typeId]; rfl
    rw [hquery] at h
    simp only [Kind.encode_congr h]

theorem found_of_encodeComponent {c : Component}
    (h : Unhindered ((baker s depth).encodeComponent c)) : ∀ q ∈ query? c, q.Found s := by
  intro q hq
  obtain ⟨k, hk, hq⟩ := Option.bind_eq_some_iff.mp hq
  simp only [Baker.encodeComponent, baker, ← Kind.typeId_of_ofTypeId? hk, get?_typeId] at h
  exact Kind.found_of_encode (FailsOnly.of_map h) q hq

/-- The resources that components refer to, up to the first component that fails. -/
def componentQueries (source : Source) (depth : Nat) : List Component → List Query
  | [] => []
  | c :: rest =>
    (query? c).toList ++
      match (baker source depth).encodeComponent c with
      | .error _ => []
      | .ok _ => componentQueries source depth rest

theorem encodeAll_congr : ∀ {components : List Component},
    (∀ q ∈ componentQueries s depth components, q.Agree s s') →
      (baker s depth).encodeAll components = (baker s' depth).encodeAll components
  | [], _ => rfl
  | c :: rest, h => by
    rw [componentQueries] at h
    have hfirst : (baker s depth).encodeComponent c = (baker s' depth).encodeComponent c :=
      encodeComponent_congr fun q hq => h q (List.mem_append_left _ (Option.mem_toList.mpr hq))
    rw [Baker.encodeAll, Baker.encodeAll, ← hfirst]
    cases hc : (baker s depth).encodeComponent c with
    | error fault => rfl
    | ok i =>
      have hrest : (baker s depth).encodeAll rest = (baker s' depth).encodeAll rest := by
        refine encodeAll_congr fun q hq => h q (List.mem_append_right _ ?_)
        simpa only [hc] using hq
      rw [hrest]

theorem found_of_encodeAll : ∀ {components : List Component},
    Unhindered ((baker s depth).encodeAll components) →
      ∀ q ∈ componentQueries s depth components, q.Found s
  | [], _ => fun q hq => by cases hq
  | c :: rest, h => by
    rw [Baker.encodeAll] at h
    obtain ⟨hfirst, h⟩ := h.of_bind
    intro q hq
    rcases List.mem_append.mp hq with hq | hq
    · exact found_of_encodeComponent hfirst q (Option.mem_toList.mp hq)
    · split at hq
      · cases hq
      · next i hi => exact found_of_encodeAll (h i hi).of_bind.1 q hq

/-- **What is asked for one document.** -/
def queries (source : Source) (depth : Nat) (tree : Json) : List Query :=
  match Document.read tree with
  | .error _ => []
  | .ok d =>
    Prefab.queries source (depth - 1) d ++
      componentQueries source depth (((baker source depth).components? tree).getD [])

variable {tree : Json}

/-- **Nothing else is asked.**  Where two sources agree on the questions of a document, it comes to
the same, under any name. -/
theorem encodeUnit_congr (h : ∀ q ∈ queries s depth tree, q.Agree s s') (name : String) :
    (baker s depth).encodeUnit tree name = (baker s' depth).encodeUnit tree name := by
  rw [queries] at h
  have hresolve : Prefab.resolve s depth tree name = Prefab.resolve s' depth tree name := by
    refine Prefab.resolve_congr fun d hd q hq => h q ?_
    simp only [hd]
    exact List.mem_append_left _ hq
  have hencode : ∀ components,
      (Prefab.resolve s depth tree name).result = .ok components →
        (baker s depth).encodeAll components = (baker s' depth).encodeAll components := by
    intro components hcomponents
    have hsome : (baker s depth).components? tree = some components := by
      rw [Baker.components?, Prefab.toOption_resolve _ _ tree "" name]
      exact congrArg Except.toOption hcomponents
    cases hread : Document.read tree with
    | error e =>
      rw [Prefab.result_resolve, Document.ofJson, hread] at hcomponents
      cases hcomponents
    | ok d =>
      refine encodeAll_congr fun q hq => h q ?_
      simp only [hread, hsome, Option.getD_some]
      exact List.mem_append_right _ hq
  simp only [Baker.encodeUnit, baker] at hencode ⊢
  rw [← hresolve]
  cases hcomponents : (Prefab.resolve s depth tree name).result with
  | error fault => rfl
  | ok components => simp only [bind, Except.bind, hencode components hcomponents]

/-- **All of it is needed.**  A document that is not held up by missing content has found what it
asked for. -/
theorem found_of_encodeUnit (hs : s.OnlyLacks) {name : String}
    (h : Unhindered ((baker s depth).encodeUnit tree name).result) :
    ∀ q ∈ queries s depth tree, q.Found s := by
  obtain ⟨hresolve, hencode⟩ := FailsOnly.of_bind h
  intro q hq
  rw [queries] at hq
  cases hread : Document.read tree with
  | error e => simp only [hread, List.not_mem_nil] at hq
  | ok d =>
    simp only [hread] at hq
    rcases List.mem_append.mp hq with hq | hq
    · exact Prefab.found_of_resolve hs hresolve hread q hq
    · cases hcomponents : (baker s depth).components? tree with
      | none => simp [hcomponents, componentQueries] at hq
      | some components =>
        rw [hcomponents, Option.getD_some] at hq
        rw [Baker.components?, Prefab.toOption_resolve _ _ tree "" name] at hcomponents
        exact found_of_encodeAll (hencode components (eq_ok_of_toOption hcomponents)) q hq

/-! ## 5. Jobs -/

/-- What is asked for a request. -/
def queriesOf (source : Source) (depth : Nat) : Request → List Query
  | .tree tree => queries source depth tree
  | .path name =>
    .unit name ::
      match source.readUnit name with
      | .error _ => []
      | .ok tree => queries source depth tree
  | .many trees => trees.flatMap (queries source depth)
  | .all trees => trees.flatMap (queries source depth)

theorem bakeNamed_congr (h : ∀ q ∈ queries s depth tree, q.Agree s s') (batch : Batch)
    (name : String) :
    (baker s depth).bakeNamed batch tree name = (baker s' depth).bakeNamed batch tree name := by
  rw [Baker.bakeNamed, Baker.bakeNamed, encodeUnit_congr h]

theorem bakeMany_congr : ∀ {trees : List Json} (batch : Batch),
    (∀ q ∈ trees.flatMap (queries s depth), q.Agree s s') →
      (baker s depth).bakeMany batch trees = (baker s' depth).bakeMany batch trees
  | [], _, _ => rfl
  | tree :: rest, batch, h => by
    obtain ⟨htree, hrest⟩ := List.forall_mem_append.mp h
    have hfirst : (baker s depth).bakeTree batch tree = (baker s' depth).bakeTree batch tree :=
      bakeNamed_congr htree batch _
    simp only [Baker.bakeMany, hfirst, bakeMany_congr _ hrest]

theorem bakeAll_congr : ∀ {trees : List Json} (batch : Batch),
    (∀ q ∈ trees.flatMap (queries s depth), q.Agree s s') →
      (baker s depth).bakeAll batch trees = (baker s' depth).bakeAll batch trees
  | [], _, _ => rfl
  | tree :: rest, batch, h => by
    obtain ⟨htree, hrest⟩ := List.forall_mem_append.mp h
    have hfirst : (baker s depth).bakeTree batch tree = (baker s' depth).bakeTree batch tree :=
      bakeNamed_congr htree batch _
    simp only [Baker.bakeAll, hfirst, bakeAll_congr _ hrest]

/-- A request is served alike by sources that agree on its questions. -/
theorem serve_congr (batch : Batch) {request : Request}
    (h : ∀ q ∈ queriesOf s depth request, q.Agree s s') :
    (baker s depth).serve batch request = (baker s' depth).serve batch request := by
  cases request with
  | tree tree => exact congrArg Baker.Outcome.faults (bakeNamed_congr h batch _)
  | many trees => exact congrArg Baker.Outcome.faults (bakeMany_congr batch h)
  | all trees => exact bakeAll_congr batch h
  | path name =>
    have hread : s.readUnit name = s'.readUnit name := h _ List.mem_cons_self
    refine congrArg Baker.Outcome.faults ?_
    simp only [Baker.bakePath, source_baker, ← hread]
    cases htree : s.readUnit name with
    | error fault => rfl
    | ok tree =>
      refine bakeNamed_congr (fun q hq => h q (List.mem_cons_of_mem _ ?_)) batch name
      simpa only [htree] using hq

/-- **A job is served alike by sources that agree on its questions.** -/
theorem serveAll_congr : ∀ {requests : List Request} (batch : Batch),
    (∀ q ∈ requests.flatMap (queriesOf s depth), q.Agree s s') →
      (baker s depth).serveAll batch requests = (baker s' depth).serveAll batch requests
  | [], _, _ => rfl
  | request :: rest, batch, h => by
    obtain ⟨hrequest, hrest⟩ := List.forall_mem_append.mp h
    simp only [Baker.serveAll, serve_congr batch hrequest, serveAll_congr _ hrest]

theorem found_of_bakeNamed (hs : s.OnlyLacks) {batch : Batch} {name : String}
    (h : ((baker s depth).bakeNamed batch tree name).failure = none) :
    ∀ q ∈ queries s depth tree, q.Found s := by
  rw [Baker.bakeNamed] at h
  split at h
  · cases h
  · next instances hresult =>
    exact found_of_encodeUnit hs (.of_ok hresult)

theorem found_of_bakeMany (hs : s.OnlyLacks) : ∀ {trees : List Json} {batch : Batch},
    ((baker s depth).bakeMany batch trees).failure = none →
      ∀ q ∈ trees.flatMap (queries s depth), q.Found s
  | [], _, _ => fun q hq => by cases hq
  | tree :: rest, batch, h => by
    simp only [Baker.bakeMany] at h
    split at h
    · cases h
    · next hfirst =>
      exact List.forall_mem_append.mpr ⟨found_of_bakeNamed hs hfirst, found_of_bakeMany hs h⟩

theorem found_of_bakeAll (hs : s.OnlyLacks) : ∀ {trees : List Json} {batch : Batch},
    ((baker s depth).bakeAll batch trees).failure = [] →
      ∀ q ∈ trees.flatMap (queries s depth), q.Found s
  | [], _, _ => fun q hq => by cases hq
  | tree :: rest, batch, h => by
    obtain ⟨hfirst, hrest⟩ := List.append_eq_nil_iff.mp h
    exact List.forall_mem_append.mpr
      ⟨found_of_bakeNamed hs (Option.toList_eq_nil_iff.mp hfirst), found_of_bakeAll hs hrest⟩

/-- A request without faults has found what it asked for. -/
theorem found_of_serve (hs : s.OnlyLacks) {batch : Batch} {request : Request}
    (h : ((baker s depth).serve batch request).failure = []) :
    ∀ q ∈ queriesOf s depth request, q.Found s := by
  cases request with
  | tree tree => exact found_of_bakeNamed hs (Option.toList_eq_nil_iff.mp h)
  | many trees => exact found_of_bakeMany hs (Option.toList_eq_nil_iff.mp h)
  | all trees => exact found_of_bakeAll hs h
  | path name =>
    have hnone : ((baker s depth).bakePath batch name).failure = none :=
      Option.toList_eq_nil_iff.mp h
    simp only [Baker.bakePath, source_baker] at hnone
    cases htree : s.readUnit name with
    | error fault => simp [htree] at hnone
    | ok tree =>
      simp only [htree] at hnone
      simp only [queriesOf, htree]
      exact List.forall_mem_cons.mpr ⟨⟨tree, htree⟩, found_of_bakeNamed hs hnone⟩

/-- **A job without faults has found what it asked for.** -/
theorem found_of_serveAll (hs : s.OnlyLacks) : ∀ {requests : List Request} {batch : Batch},
    (∀ faults ∈ ((baker s depth).serveAll batch requests).failure, faults = []) →
      ∀ q ∈ requests.flatMap (queriesOf s depth), q.Found s
  | [], _, _ => fun q hq => by cases hq
  | request :: rest, batch, h => by
    obtain ⟨hfirst, hrest⟩ := List.forall_mem_cons.mp h
    exact List.forall_mem_append.mpr ⟨found_of_serve hs hfirst, found_of_serveAll hs hrest⟩

end Builtin

end UnitBake
