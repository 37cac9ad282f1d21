/-
# Components of the root, overridden by the document nearest the unit

What `Prefab.resolve` gives, told without its loops.  The components are those of the root, in their
order and number (`Prefab.Overlaid`).  A place of the root is overridden if it is the first with its
id and some document of the chain overrides that id; then it holds the override of the document
nearest the unit, and of several spellings of the id in that document the one whose bytes are greatest
(`Prefab.Nearest`).  Every other place is as the root has it.

* `Prefab.Ancestry` is the chain of documents as their parents give it.
* `Prefab.overrides` lists the overrides so that the one that counts comes last
  (`overrides_of_nearest`), and the last one is what `Prefab.apply` leaves in place.
* `Prefab.resolve_overlaid` puts the two together.
-/
import UnitBake.Proofs.Bytes.Utf8Order
import UnitBake.Proofs.Prefab.Chain
import UnitBake.Proofs.Prefab.Overrides
import UnitBake.Source.Memory

namespace UnitBake

/-! ## 1. Overrides of one document -/

namespace Document

/-- Some override of the document is for the id `g`. -/
def Addresses (d : Document) (g : Guid) : Prop :=
  ∃ key c, d.overrides.get? key = some c ∧ overrideId key = .ok g

/-- The override for `g` that counts in a document: of the keys that are read as `g`, its key has the
greatest bytes. -/
def Overrides (d : Document) (g : Guid) (c : Component) : Prop :=
  ∃ key, d.overrides.get? key = some c ∧ overrideId key = .ok g ∧
    ∀ key' c', d.overrides.get? key' = some c' → overrideId key' = .ok g →
      key' = key ∨ utf8 key' < utf8 key

/-- The overrides of a document, the ids that they bring left out. -/
def overrideContents (d : Document) : List (String × String × Json) :=
  d.overrides.entries.map fun o => (o.1, o.2.content)

/-- The override that counts stands in the table after all others for its id. -/
theorem Overrides.entries_split {d : Document} {g : Guid} {c : Component} (h : d.Overrides g c) :
    ∃ before key after, d.overrides.entries = before ++ (key, c) :: after ∧
      overrideId key = .ok g ∧ ∀ o ∈ after, overrideId o.1 ≠ .ok g := by
  obtain ⟨key, hget, hkey, hgreatest⟩ := h
  obtain ⟨before, after, hsplit⟩ :=
    List.append_of_mem ((d.overrides.mem_entries_iff key c).mpr hget)
  refine ⟨before, key, after, hsplit, hkey, ?_⟩
  intro o ho hid
  have hsorted := d.overrides.sorted
  rw [hsplit] at hsorted
  have hlt : key < o.1 := (List.pairwise_cons.mp (List.pairwise_append.mp hsorted).2.1).1 o ho
  have hmem : o ∈ d.overrides.entries := by
    rw [hsplit]
    exact List.mem_append_right _ (List.mem_cons_of_mem _ ho)
  rcases hgreatest o.1 o.2 ((d.overrides.mem_entries_iff o.1 o.2).mp hmem) hid with heq | hlt'
  · rw [heq] at hlt
    exact Std.lt_irrefl hlt
  · exact Std.lt_irrefl (Std.lt_trans hlt (utf8_lt_iff.mp hlt'))

/-- A document that overrides an id has an override for it that counts. -/
theorem Addresses.overrides {d : Document} {g : Guid} (h : d.Addresses g) :
    ∃ c, d.Overrides g c := by
  classical
  obtain ⟨key₀, c₀, hget₀, hkey₀⟩ := h
  have hmem₀ : (key₀, c₀) ∈ d.overrides.entries.reverse :=
    List.mem_reverse.mpr ((d.overrides.mem_entries_iff key₀ c₀).mpr hget₀)
  -- the last entry that is read as the id, searched from the end
  cases hfind : d.overrides.entries.reverse.find? fun o => overrideId o.1 = .ok g with
  | none => exact absurd hkey₀ (by simpa using List.find?_eq_none.mp hfind _ hmem₀)
  | some o =>
    obtain ⟨hkey, before, after, hsplit, hbefore⟩ := List.find?_eq_some_iff_append.mp hfind
    have hentries : d.overrides.entries = after.reverse ++ o :: before.reverse := by
      rw [← List.reverse_reverse d.overrides.entries, hsplit]
      simp
    have hmem : o ∈ d.overrides.entries := by
      rw [hentries]
      exact List.mem_append_right _ List.mem_cons_self
    refine ⟨o.2, o.1, (d.overrides.mem_entries_iff _ _).mp hmem, by simpa using hkey, ?_⟩
    intro key' c' hget' hkey'
    have hmem' := (d.overrides.mem_entries_iff key' c').mpr hget'
    have hsorted := d.overrides.sorted
    rw [hentries] at hmem' hsorted
    rcases List.mem_append.mp hmem' with hmem' | hmem'
    · exact Or.inr (utf8_lt_iff.mpr
        ((List.pairwise_append.mp hsorted).2.2 _ hmem' o List.mem_cons_self))
    · rcases List.mem_cons.mp hmem' with rfl | hmem'
      · exact Or.inl rfl
      · have hnot := hbefore (key', c') (List.mem_reverse.mp hmem')
        exact absurd hkey' (by simpa using hnot)

end Document

namespace Prefab

/-! ## 2. The override that counts in a chain -/

/-- The override for `g` that counts in a chain: that of the document nearest the unit among those
that override `g`. -/
def Nearest (documents : List Document) (g : Guid) (c : Component) : Prop :=
  ∃ nearer d farther, documents = nearer ++ d :: farther ∧
    (∀ d' ∈ nearer, ¬ d'.Addresses g) ∧ d.Overrides g c

/-- An id that some document overrides has an override that counts. -/
theorem exists_nearest {documents : List Document} {g : Guid}
    (h : ∃ d ∈ documents, d.Addresses g) : ∃ c, Nearest documents g c := by
  induction documents with
  | nil =>
    obtain ⟨d, hd, -⟩ := h
    cases hd
  | cons d rest ih =>
    by_cases hd : d.Addresses g
    · obtain ⟨c, hc⟩ := hd.overrides
      exact ⟨c, [], d, rest, rfl, by simp, hc⟩
    · obtain ⟨d', hd', hg⟩ := h
      rcases List.mem_cons.mp hd' with rfl | hd'
      · exact absurd hg hd
      · obtain ⟨c, nearer, e, farther, rfl, hnearer, hc⟩ := ih ⟨d', hd', hg⟩
        refine ⟨c, d :: nearer, e, farther, rfl, ?_, hc⟩
        intro d'' hd''
        rcases List.mem_cons.mp hd'' with rfl | hd''
        · exact hd
        · exact hnearer d'' hd''

theorem mem_overrides {documents : List Document} {o : String × Component} :
    o ∈ overrides documents ↔ ∃ d ∈ documents, d.overrides.get? o.1 = some o.2 := by
  simp only [overrides, List.mem_flatMap, List.mem_reverse]
  constructor
  · rintro ⟨d, hd, ho⟩
    exact ⟨d, hd, (d.overrides.mem_entries_iff o.1 o.2).mp ho⟩
  · rintro ⟨d, hd, ho⟩
    exact ⟨d, hd, (d.overrides.mem_entries_iff o.1 o.2).mpr ho⟩

theorem overrides_append (nearer farther : List Document) :
    overrides (nearer ++ farther) = overrides farther ++ overrides nearer := by
  simp [overrides]

theorem overrides_cons (d : Document) (farther : List Document) :
    overrides (d :: farther) = overrides farther ++ d.overrides.entries := by
  simp [overrides]

/-- **The override that counts is the last for its id**, in the order of application. -/
theorem overrides_of_nearest {documents : List Document} {g : Guid} {c : Component}
    (h : Nearest documents g c) :
    ∃ before key after, overrides documents = before ++ (key, c) :: after ∧
      Document.overrideId key = .ok g ∧ ∀ o ∈ after, Document.overrideId o.1 ≠ .ok g := by
  obtain ⟨nearer, d, farther, rfl, hnearer, hd⟩ := h
  obtain ⟨before, key, after, hentries, hkey, hafter⟩ := hd.entries_split
  refine ⟨overrides farther ++ before, key, after ++ overrides nearer, ?_, hkey, ?_⟩
  · rw [overrides_append, overrides_cons, hentries]
    simp
  · intro o ho hid
    rcases List.mem_append.mp ho with ho | ho
    · exact hafter o ho hid
    · obtain ⟨d', hd', hget⟩ := mem_overrides.mp ho
      exact hnearer d' hd' ⟨o.1, o.2, hget, hid⟩

/-! ## 3. Resolution -/

/-- The components of a root with the overrides of a chain laid over them. -/
structure Overlaid (documents : List Document) (root resolved : List Component) : Prop where
  /-- There is one component for each of the root. -/
  length : resolved.length = root.length
  /-- The first place of an id that is overridden has the override that counts. -/
  overridden : ∀ g i, FirstPlace root g i → (∃ d ∈ documents, d.Addresses g) →
    ∃ c, Nearest documents g c ∧ resolved[i]? = some (c.inPlaceOf g)
  /-- Every other place is as it is in the root. -/
  kept : ∀ i, (∀ g, FirstPlace root g i → ∀ d ∈ documents, ¬ d.Addresses g) →
    resolved[i]? = root[i]?

/-- Applying the overrides of a chain to its root lays them over it. -/
theorem overlaid_of_apply {unit : String} {documents : List Document}
    {root resolved : List Component}
    (h : (apply unit root (overrides documents) root).result = .ok resolved) :
    Overlaid documents root resolved where
  length := length_of_apply h
  overridden := by
    intro g i hplace haddressed
    obtain ⟨c, hc⟩ := exists_nearest haddressed
    obtain ⟨before, key, after, hsplit, hkey, hafter⟩ := overrides_of_nearest hc
    rw [hsplit] at h
    exact ⟨c, hc, getElem?_of_apply_last h rfl hplace hkey hafter⟩
  kept := by
    intro i hnot
    refine getElem?_of_apply_kept h ?_
    intro o ho g hg hplace
    obtain ⟨d, hd, hget⟩ := mem_overrides.mp ho
    exact hnot g hplace d hd ⟨o.1, o.2, hget, hg⟩

/-- A chain of several documents has the overrides of all of them applied to its root. -/
theorem resolveChain_of_many {unit : String} {documents : List Document} {root : Document}
    (hmany : 1 < documents.length) (hroot : documents.getLast? = some root) :
    resolveChain unit documents =
      apply unit root.components (overrides documents) root.components := by
  match documents, hmany with
  | leaf :: parent :: rest, _ =>
    rw [List.getLast?_cons_cons] at hroot
    obtain rfl : (parent :: rest).getLast (List.cons_ne_nil _ _) = root :=
      Option.some.inj ((List.getLast?_eq_some_getLast _).symm.trans hroot)
    rfl

/-- The roots of two chains, where they have the same components. -/
theorem exists_roots {documents documents' : List Document} (hne : documents ≠ [])
    (hroot : documents'.getLast?.map (·.components) = documents.getLast?.map (·.components)) :
    ∃ root root', documents.getLast? = some root ∧ documents'.getLast? = some root' ∧
      root'.components = root.components := by
  have hlast : documents.getLast? = some (documents.getLast hne) :=
    List.getLast?_eq_some_getLast hne
  rw [hlast] at hroot
  obtain ⟨root', hlast', hcomponents⟩ := Option.map_eq_some_iff.mp hroot
  exact ⟨documents.getLast hne, root', hlast, hlast', hcomponents⟩

/-- What a chain is resolved to is decided by the overrides of its documents and the components of its
root: no other document's components count. -/
theorem resolveChain_congr {unit : String} {documents documents' : List Document}
    (hoverrides : documents'.map (·.overrides) = documents.map (·.overrides))
    (hroot : documents'.getLast?.map (·.components) = documents.getLast?.map (·.components)) :
    resolveChain unit documents' = resolveChain unit documents := by
  have hlength : documents'.length = documents.length := by
    simpa using congrArg List.length hoverrides
  match documents, documents', hlength with
  | [], [], _ => rfl
  | [d], [d'], _ =>
    have hcomponents : d'.components = d.components := by simpa using hroot
    rw [resolveChain, resolveChain, hcomponents]
  | d :: e :: rest, d' :: e' :: rest', _ =>
    have hall : ∀ ds : List Document, overrides ds =
        (ds.map (·.overrides)).reverse.flatMap fun t => t.entries := by
      intro ds
      rw [overrides, ← List.map_reverse, List.flatMap_map]
    obtain ⟨root, root', hlast, hlast', hcomponents⟩ :=
      exists_roots (List.cons_ne_nil d (e :: rest)) hroot
    rw [resolveChain_of_many (by simp) hlast, resolveChain_of_many (by simp) hlast', hall, hall,
      hoverrides, hcomponents]

/-- Nor do the ids that overrides bring, except that they stand in the result. -/
theorem content_of_resolveChain {unit : String} {documents documents' : List Document}
    {resolved : List Component}
    (hoverrides : documents'.map Document.overrideContents =
      documents.map Document.overrideContents)
    (hroot : documents'.getLast?.map (·.components) = documents.getLast?.map (·.components))
    (h : (resolveChain unit documents).result = .ok resolved) :
    ∃ resolved', (resolveChain unit documents').result = .ok resolved' ∧
      resolved'.map Component.content = resolved.map Component.content := by
  have hlength : documents'.length = documents.length := by
    simpa using congrArg List.length hoverrides
  match documents, documents', hlength with
  | [], [], _ => exact ⟨resolved, h, rfl⟩
  | [d], [d'], _ =>
    have hcomponents : d'.components = d.components := by simpa using hroot
    exact ⟨d'.components, rfl, by rw [hcomponents, Except.ok.inj h]⟩
  | d :: e :: rest, d' :: e' :: rest', _ =>
    have hall : ∀ ds : List Document, (overrides ds).map (fun o => (o.1, o.2.content)) =
        (ds.map Document.overrideContents).reverse.flatten := by
      intro ds
      rw [overrides, List.map_flatMap, ← List.map_reverse, List.flatMap_def]
      rfl
    obtain ⟨root, root', hlast, hlast', hcomponents⟩ :=
      exists_roots (List.cons_ne_nil d (e :: rest)) hroot
    rw [resolveChain_of_many (by simp) hlast] at h
    rw [resolveChain_of_many (by simp) hlast', hcomponents]
    exact content_of_apply (by rw [hall, hall, hoverrides]) rfl h

/-- **The components of a unit are those of its root, each place overridden by the document nearest
the unit that overrides its id.**  A unit without a parent has its own components.  Components of the
documents between are not looked at, and neither are the ids that overrides bring. -/
theorem resolve_overlaid {source : Source} {limit : Nat} {tree : Json} {unit : String}
    {resolved : List Component} (h : (resolve source limit tree unit).result = .ok resolved) :
    ∃ leaf ancestors root, Document.ofJson tree unit = .ok leaf ∧
      Ancestry source leaf ancestors ∧ ancestors.length ≤ limit - 1 ∧
      (leaf :: ancestors).getLast? = some root ∧ resolved.length = root.components.length ∧
      (ancestors = [] → resolved = leaf.components) ∧
      (ancestors ≠ [] → Overlaid (leaf :: ancestors) root.components resolved) ∧
      (∀ documents : List Document,
        documents.map (·.overrides) = (leaf :: ancestors).map (·.overrides) →
          documents.getLast?.map (·.components) = some root.components →
            (resolveChain unit documents).result = .ok resolved) ∧
      ∀ documents : List Document,
        documents.map Document.overrideContents =
            (leaf :: ancestors).map Document.overrideContents →
          documents.getLast?.map (·.components) = some root.components →
            ∃ resolved', (resolveChain unit documents).result = .ok resolved' ∧
              resolved'.map Component.content = resolved.map Component.content := by
  rw [result_resolve] at h
  obtain ⟨documents, hdocuments, hresolved⟩ := bind_eq_ok.mp h
  obtain ⟨leaf, hleaf, hchain⟩ := bind_eq_ok.mp hdocuments
  obtain ⟨ancestors, rfl, hancestry, hlimit⟩ := ancestry_of_chain hchain
  obtain ⟨root, hroot⟩ : ∃ root, (leaf :: ancestors).getLast? = some root :=
    ⟨_, List.getLast?_eq_some_getLast (List.cons_ne_nil leaf ancestors)⟩
  have hoverlaid : ancestors ≠ [] → Overlaid (leaf :: ancestors) root.components resolved := by
    intro hne
    have hmany : 1 < (leaf :: ancestors).length := by
      simpa using List.length_pos_iff.mpr hne
    rw [resolveChain_of_many hmany hroot] at hresolved
    exact overlaid_of_apply hresolved
  have halone : ancestors = [] → resolved = leaf.components := by
    rintro rfl
    exact (Except.ok.inj hresolved).symm
  refine ⟨leaf, ancestors, root, hleaf, hancestry, hlimit, hroot, ?_, halone, hoverlaid, ?_, ?_⟩
  · by_cases hne : ancestors = []
    · obtain rfl : leaf = root := by simpa [hne] using hroot
      rw [halone hne]
    · exact (hoverlaid hne).length
  · intro documents hoverrides hcomponents
    rw [resolveChain_congr hoverrides (by rw [hcomponents, hroot]; rfl), hresolved]
  · intro documents hoverrides hcomponents
    exact content_of_resolveChain hoverrides (by rw [hcomponents, hroot]; rfl) hresolved

/-- A component without data, with the given id if that is not empty. -/
def lampPart (id typeName : String) : Json :=
  .object ((if id.isEmpty then [] else [("id", .text id)]) ++ [("type", .text typeName)])

/-- A lamp with two parts of one id, one without an id, and one that it overrides itself; a desk lamp
that overrides the first. -/
def lampSource : Source :=
  ((MemorySource.empty.insertUnit "lamp"
    (.object [
      ("components", .list [
        lampPart "00000000-0000-0000-0000-00000000000a" "bulb",
        lampPart "00000000-0000-0000-0000-00000000000a" "spare",
        lampPart "" "shade",
        lampPart "00000000-0000-0000-0000-00000000000b" "base"]),
      ("modified_components", .object [
        ("#00000000-0000-0000-0000-00000000000b", lampPart "" "foot")])])).insertUnit "desk lamp"
    (.object [
      ("components", .list [lampPart "" "cable"]),
      ("modified_components", .object [
        ("#00000000-0000-0000-0000-00000000000a", lampPart "" "dim bulb")]),
      ("prefab", .text "lamp")])).source

/-- A desk lamp that overrides the first part again, under two spellings of its id. -/
def redLamp : Json :=
  .object [
    ("modified_components", .object [
      ("#0000000000000000000000000000000A", lampPart "" "red bulb"),
      ("-00000000-0000-0000-0000-00000000000a",
        lampPart "00000000-0000-0000-0000-00000000000b" "green bulb")]),
    ("prefab", .text "desk lamp")]

/-- The greater of the two spellings counts, the part it brings keeps its id, and that id is not
looked for: the last part is overridden by the lamp. -/
theorem resolve_overlaid_redLamp :
    ∃ resolved leaf ancestors, ∃ root : Document,
      (resolve lampSource 3 redLamp "red lamp").result = .ok resolved ∧
        resolved.map (fun c => (c.id.map Guid.text, c.typeName)) =
          [(some "00000000-0000-0000-0000-00000000000b", "green bulb"),
            (some "00000000-0000-0000-0000-00000000000a", "spare"),
            (none, "shade"),
            (some "00000000-0000-0000-0000-00000000000b", "foot")] ∧
        Overlaid (leaf :: ancestors) root.components resolved := by
  have hparts : (resolve lampSource 3 redLamp "red lamp").result.toOption.map (fun resolved =>
      resolved.map fun c => (c.id.map Guid.text, c.typeName)) =
        some [(some "00000000-0000-0000-0000-00000000000b", "green bulb"),
          (some "00000000-0000-0000-0000-00000000000a", "spare"),
          (none, "shade"),
          (some "00000000-0000-0000-0000-00000000000b", "foot")] := by
    decide +kernel
  obtain ⟨resolved, hresolved, htexts⟩ := Option.map_eq_some_iff.mp hparts
  have hok := eq_ok_of_toOption hresolved
  obtain ⟨leaf, ancestors, root, hleaf, hancestry, -, -, -, -, hoverlaid, -⟩ :=
    resolve_overlaid hok
  have hparent : (Document.ofJson redLamp "red lamp").toOption.map (·.parent) =
      some (some "desk lamp") := by
    decide +kernel
  refine ⟨resolved, leaf, ancestors, root, hok, htexts, hoverlaid ?_⟩
  rintro rfl
  rw [hleaf] at hparent
  cases hancestry with
  | root h => exact absurd (h.symm.trans (Option.some.inj hparent)) (by decide)

end Prefab

end UnitBake
