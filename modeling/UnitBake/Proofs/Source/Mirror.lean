/-
# Directories that hold what memory holds

Content in memory is laid out below a directory: a file `name.unit` for each unit, a file `name.kind`
for each resource, and nothing else (`FileMap.Keeps`).  Baking cannot tell the directory from the
memory: `FileMap.bakes_like_memory`.

* A name and a kind go into one path, and they come out of it again, though names may hold dots
  (`dotted_inj`).  So a file is found exactly if the unit or the resource is there
  (`DirectorySource.Mirrors.isSome_files_iff`), and the two sources give the same answers, faults
  included.
* The built-in types ask for kinds only that are told apart (`Builtin.plainKind_of_mem_queriesOf`), so
  names are all that a job has to watch.

Where a name is not plain the two differ: in memory `./eye` is another unit than `eye`.
-/
import UnitBake.Proofs.Baking.Queries
import UnitBake.Proofs.Source.Paths
import UnitBake.Source.Directory

namespace UnitBake

/-! ## 1. The same answers -/

namespace DirectorySource

/-- What is found by plain paths below the directory is what the content has. -/
structure Mirrors (d : DirectorySource) (m : MemorySource) : Prop where
  extension : d.unitExtension = "unit"
  plain : ∀ r ∈ m.resources, PlainKind r.1
  apart : ∀ r ∈ m.resources, r.1 ≠ "unit"
  unit : ∀ name tree, m.units.get? name = some tree → ∃ content text,
    d.files (d.path "unit" name) = some (.bytes content) ∧ ofUtf8? content = some text ∧
      Json.read text = .ok tree
  resource : ∀ r ∈ m.resources, (d.files (d.path r.1 r.2)).isSome = true
  only : ∀ path, PlainPath path → (d.files (joinPath d.root path)).isSome = true →
    (∃ name tree, m.units.get? name = some tree ∧ path = name ++ "." ++ "unit") ∨
      ∃ r ∈ m.resources, path = r.2 ++ "." ++ r.1

theorem plainKind_unit : PlainKind "unit" := by decide

variable {d : DirectorySource} {m : MemorySource}

/-- **A file is there exactly if what it is for is there.** -/
theorem Mirrors.isSome_files_iff (h : d.Mirrors m) {kind name : String} (hkind : PlainKind kind)
    (hname : PlainPath name) :
    (d.files (d.path kind name)).isSome = true ↔
      (kind = "unit" ∧ ∃ tree, m.units.get? name = some tree) ∨ (kind, name) ∈ m.resources := by
  constructor
  · intro hsome
    rcases h.only _ (hname.dotted hkind) hsome with ⟨other, tree, htree, hpath⟩ | ⟨r, hr, hpath⟩
    · obtain ⟨rfl, rfl⟩ := dotted_inj hkind plainKind_unit hpath
      exact .inl ⟨rfl, tree, htree⟩
    · obtain ⟨rfl, rfl⟩ := dotted_inj hkind (h.plain r hr) hpath
      exact .inr hr
  · rintro (⟨rfl, tree, htree⟩ | hr)
    · obtain ⟨content, -, hfile, -⟩ := h.unit name tree htree
      rw [hfile]
      rfl
    · exact h.resource (kind, name) hr

theorem Mirrors.resourceExists (h : d.Mirrors m) {kind name : String} (hkind : PlainKind kind)
    (hname : PlainPath name) : d.resourceExists kind name = m.resourceExists kind name := by
  have hpath : (if kind == "unit" then d.unitExtension else kind) = kind := by
    rw [h.extension]
    split
    · next heq => exact (eq_of_beq heq).symm
    · rfl
  rw [DirectorySource.resourceExists, hpath, Bool.eq_iff_iff, h.isSome_files_iff hkind hname]
  simp only [MemorySource.resourceExists, Table.contains, Bool.or_eq_true, Bool.and_eq_true,
    beq_iff_eq, Option.isSome_iff_exists, List.contains_iff_mem]

theorem Mirrors.readUnit (h : d.Mirrors m) {name : String} (hname : PlainPath name) :
    d.readUnit name = m.readUnit name := by
  simp only [DirectorySource.readUnit, MemorySource.readUnit, h.extension]
  cases htree : m.units.get? name with
  | some tree =>
    obtain ⟨content, text, hfile, htext, hread⟩ := h.unit name tree htree
    simp only [hfile, htext, hread]
    rfl
  | none =>
    have hfile : d.files (d.path "unit" name) = none := by
      rw [← Option.not_isSome_iff_eq_none, h.isSome_files_iff plainKind_unit hname]
      rintro (⟨-, tree, hsome⟩ | hr)
      · rw [htree] at hsome
        cases hsome
      · exact h.apart _ hr rfl
    rw [hfile]

end DirectorySource

/-! ## 2. The same jobs -/

/-- The kind of resource that is asked for is plain. -/
def Query.KindPlain : Query → Prop
  | .unit _ => True
  | .resource kind _ => PlainKind kind

theorem DirectorySource.Mirrors.agree {d : DirectorySource} {m : MemorySource} (h : d.Mirrors m) :
    ∀ {q : Query}, q.KindPlain → PlainPath q.name → q.Agree m.source d.source
  | .unit _, _, hname => (h.readUnit hname).symm
  | .resource _ _, hkind, hname => (h.resourceExists hkind hname).symm

theorem Prefab.kindPlain_of_mem_queries {s : Source} : ∀ {allowed : Nat} {d : Document},
    ∀ q ∈ queries s allowed d, q.KindPlain
  | allowed, d, q, hq => by
    rw [queries] at hq
    split at hq
    · cases hq
    · cases allowed with
      | zero => cases hq
      | succ allowed =>
        rcases List.mem_cons.mp hq with rfl | hq
        · trivial
        · split at hq
          · cases hq
          · exact kindPlain_of_mem_queries q hq

namespace Builtin

variable {s : Source} {depth : Nat}

theorem Kind.kindPlain_of_mem_query? {k : Kind} {data : Json} {q : Query}
    (h : q ∈ k.query? data) : q.KindPlain := by
  cases k with
  | transform => cases h
  | camera => cases h
  | light => cases h
  | meshRenderer =>
    obtain ⟨m, -, rfl⟩ := Option.map_eq_some_iff.mp h
    exact (by decide : PlainKind "mesh")
  | spriteRenderer =>
    obtain ⟨r, -, rfl⟩ := Option.map_eq_some_iff.mp h
    exact (by decide : PlainKind "sprite")
  | script =>
    obtain ⟨n, -, rfl⟩ := Option.map_eq_some_iff.mp h
    exact (by decide : PlainKind Reference.script.kind)
  | stateMachine =>
    obtain ⟨n, -, rfl⟩ := Option.map_eq_some_iff.mp h
    exact (by decide : PlainKind Reference.stateMachine.kind)

theorem kindPlain_of_mem_componentQueries : ∀ {components : List Component},
    ∀ q ∈ componentQueries s depth components, q.KindPlain
  | [], q, hq => by cases hq
  | c :: rest, q, hq => by
    rcases List.mem_append.mp hq with hq | hq
    · obtain ⟨k, -, hq⟩ := Option.bind_eq_some_iff.mp (Option.mem_toList.mp hq)
      exact Kind.kindPlain_of_mem_query? hq
    · split at hq
      · cases hq
      · exact kindPlain_of_mem_componentQueries q hq

theorem kindPlain_of_mem_queries {tree : Json} : ∀ q ∈ queries s depth tree, q.KindPlain := by
  intro q hq
  rw [queries] at hq
  split at hq
  · cases hq
  · rcases List.mem_append.mp hq with hq | hq
    · exact Prefab.kindPlain_of_mem_queries q hq
    · exact kindPlain_of_mem_componentQueries q hq

/-- **The kinds that the built-in types ask for are plain.** -/
theorem kindPlain_of_mem_queriesOf {request : Request} :
    ∀ q ∈ queriesOf s depth request, q.KindPlain := by
  intro q hq
  cases request with
  | tree tree => exact kindPlain_of_mem_queries q hq
  | many trees =>
    obtain ⟨tree, -, hq⟩ := List.mem_flatMap.mp hq
    exact kindPlain_of_mem_queries q hq
  | all trees =>
    obtain ⟨tree, -, hq⟩ := List.mem_flatMap.mp hq
    exact kindPlain_of_mem_queries q hq
  | path name =>
    rcases List.mem_cons.mp hq with rfl | hq
    · trivial
    · split at hq
      · cases hq
      · exact kindPlain_of_mem_queries q hq

/-- A job whose names are plain is served alike from a directory that mirrors the content. -/
theorem serveAll_of_mirrors {d : DirectorySource} {m : MemorySource} (h : d.Mirrors m)
    {batch : Batch} {requests : List Request}
    (hplain : ∀ q ∈ requests.flatMap (queriesOf m.source depth), PlainPath q.name) :
    (baker d.source depth).serveAll batch requests =
      (baker m.source depth).serveAll batch requests := by
  refine (serveAll_congr batch fun q hq => h.agree ?_ (hplain q hq)).symm
  obtain ⟨request, -, hq⟩ := List.mem_flatMap.mp hq
  exact kindPlain_of_mem_queriesOf q hq

end Builtin

/-! ## 3. Files by their places -/

/-- A file system as a map: the regular files by the names that lead to them from the top, and the
directory that relative paths start from. -/
structure FileMap where
  working : List String
  at? : List String → Option FileContent

namespace FileMap

/-- Where a segment leads. -/
def turn (place : List String) (segment : String) : List String :=
  if segment = "" ∨ segment = "." then place
  else if segment = ".." then place.dropLast
  else place ++ [segment]

/-- The place that a path leads to: the path without `.` and `..`. -/
def place (fm : FileMap) (path : String) : List String :=
  (segments path).foldl turn (if isAbsolute path then [] else fm.working)

/-- What is found under paths. -/
def files (fm : FileMap) : FileLookup := fun path => fm.at? (fm.place path)

/-- The directory with the default extension. -/
def directory (fm : FileMap) (root : String) : DirectorySource := ⟨root, "unit", fm.files⟩

/-- Below a directory there are the files of some content and no others. -/
structure Keeps (fm : FileMap) (root : String) (m : MemorySource) : Prop where
  unit : ∀ name tree, m.units.get? name = some tree → PlainPath name ∧ ∃ content text,
    fm.at? (fm.place root ++ segments (name ++ "." ++ "unit")) = some (.bytes content) ∧
      ofUtf8? content = some text ∧ Json.read text = .ok tree
  resource : ∀ kind name, (kind, name) ∈ m.resources →
    PlainPath name ∧ PlainKind kind ∧ kind ≠ "unit" ∧ ∃ content,
      fm.at? (fm.place root ++ segments (name ++ "." ++ kind)) = some content
  only : ∀ rest content, fm.at? (fm.place root ++ rest) = some content →
    (∃ name tree, m.units.get? name = some tree ∧ rest = segments (name ++ "." ++ "unit")) ∨
      ∃ kind name, (kind, name) ∈ m.resources ∧ rest = segments (name ++ "." ++ kind)

/-- Plain segments lead straight on. -/
theorem foldl_turn_of_plain : ∀ {names : List String} {place : List String},
    (∀ s ∈ names, s ≠ "" ∧ s ≠ "." ∧ s ≠ "..") → names.foldl turn place = place ++ names
  | [], place, _ => (List.append_nil place).symm
  | s :: rest, place, h => by
    obtain ⟨⟨hempty, hdot, hup⟩, hrest⟩ := List.forall_mem_cons.mp h
    have hturn : turn place s = place ++ [s] := by
      rw [turn, if_neg (not_or.mpr ⟨hempty, hdot⟩), if_neg hup]
    rw [List.foldl_cons, hturn, foldl_turn_of_plain hrest, List.append_assoc, List.singleton_append]

/-- **A plain path leads on from the directory that it is joined to.** -/
theorem place_joinPath (fm : FileMap) (root : String) {path : String} (h : PlainPath path) :
    fm.place (joinPath root path) = fm.place root ++ segments path := by
  rw [joinPath, h.not_isAbsolute, Bool.false_or]
  by_cases hempty : root = ""
  · subst hempty
    rw [if_pos (by decide), place, place, h.not_isAbsolute, foldl_turn_of_plain h]
    rfl
  rw [if_neg (by simpa using hempty)]
  split
  · next hslash =>
    obtain ⟨front, rfl⟩ := exists_of_endsInSlash hslash
    rw [place, place, isAbsolute_append hempty, segments_slash, segments_append_slash,
      List.foldl_append, List.foldl_append, foldl_turn_of_plain h]
    rfl
  · rw [place, place, String.append_assoc, isAbsolute_append hempty, ← String.append_assoc,
      segments_slash, List.foldl_append, foldl_turn_of_plain h]

/-- A directory that keeps the files of some content mirrors it. -/
theorem Keeps.mirrors {fm : FileMap} {root : String} {m : MemorySource} (h : fm.Keeps root m) :
    (fm.directory root).Mirrors m := by
  have hfiles : ∀ path, PlainPath path →
      (fm.directory root).files (joinPath (fm.directory root).root path) =
        fm.at? (fm.place root ++ segments path) := fun path hpath =>
    congrArg fm.at? (fm.place_joinPath root hpath)
  refine ⟨rfl, ?_, ?_, ?_, ?_, ?_⟩
  · intro r hr
    exact (h.resource r.1 r.2 hr).2.1
  · intro r hr
    exact (h.resource r.1 r.2 hr).2.2.1
  · intro name tree htree
    obtain ⟨hplain, content, text, hfile, htext⟩ := h.unit name tree htree
    refine ⟨content, text, ?_, htext⟩
    rw [← hfile]
    exact hfiles _ (hplain.dotted DirectorySource.plainKind_unit)
  · intro r hr
    obtain ⟨hplain, hkind, -, content, hfile⟩ := h.resource r.1 r.2 hr
    rw [DirectorySource.path, hfiles _ (hplain.dotted hkind), hfile]
    rfl
  · intro path hpath hsome
    rw [hfiles path hpath] at hsome
    obtain ⟨content, hfile⟩ := Option.isSome_iff_exists.mp hsome
    rcases h.only _ _ hfile with ⟨name, tree, htree, hrest⟩ | ⟨kind, name, hr, hrest⟩
    · exact .inl ⟨name, tree, htree, segments_injective hrest⟩
    · exact .inr ⟨(kind, name), hr, segments_injective hrest⟩


/-- **Baking cannot tell a directory from the memory whose content it keeps.**  Let the files below a
directory be `name.unit` for the units of some content, each with a text that reads as the unit's
tree, and `name.kind` for its resources, whose kinds hold neither dots nor slashes and are not `unit`.
For plain names the directory and the memory give the same trees or the same fault, and agree on which
resources there are.  A job with the built-in types that asks for plain names only has the same faults
and events over both, and the same blob. -/
theorem bakes_like_memory {fm : FileMap} {root : String} {m : MemorySource}
    (h : fm.Keeps root m) :
    (∀ name, PlainPath name → (fm.directory root).readUnit name = m.readUnit name) ∧
    (∀ kind name, PlainKind kind → PlainPath name →
      (fm.directory root).resourceExists kind name = m.resourceExists kind name) ∧
    ∀ depth batch requests,
      (∀ q ∈ requests.flatMap (Builtin.queriesOf m.source depth), PlainPath q.name) →
        (Builtin.baker (fm.directory root).source depth).serveAll batch requests =
            (Builtin.baker m.source depth).serveAll batch requests ∧
          (Builtin.baker (fm.directory root).source depth).finalize
              ((Builtin.baker (fm.directory root).source depth).serveAll batch requests).batch =
            (Builtin.baker m.source depth).finalize
              ((Builtin.baker m.source depth).serveAll batch requests).batch := by
  have hmirrors := h.mirrors
  refine ⟨?_, ?_, ?_⟩
  · intro name hname
    exact hmirrors.readUnit hname
  · intro kind name hkind hname
    exact hmirrors.resourceExists hkind hname
  · intro depth batch requests hplain
    rw [Builtin.serveAll_of_mirrors hmirrors hplain]
    exact ⟨rfl, rfl⟩

/-- A unit that inherits from another one, whose name has a dot, and a script. -/
def walkContent : MemorySource :=
  ((MemorySource.empty.insertUnit "body/base.v2" (.object [])).insertUnit "walk"
    (.object [("prefab", .text "body/base.v2")])).insertResource "lua" "walk"

/-- The same in files. -/
def walkFiles : FileMap where
  working := ["home"]
  at? place := List.lookup place
    [(["home", "content", "body", "base.v2.unit"], .bytes (utf8 "\x7b\x7d")),
      (["home", "content", "walk.unit"], .bytes (utf8 "\x7b\"prefab\": \"body/base.v2\"\x7d")),
      (["home", "content", "walk.lua"], .bytes [])]

/-- A unit of the content, a unit with a script, and one with a script that is missing. -/
def walkJob : List Request :=
  [.path "walk",
    .all (["walk", "run"].map fun script =>
      .object [("components", .list [.object [("data", .object [("script_resource", .text script)]),
        ("type", .text "script")]])])]

theorem keeps_walkFiles : walkFiles.Keeps "content" walkContent := by
  have hentries : walkContent.units.entries =
      [("body/base.v2", .object []), ("walk", .object [("prefab", .text "body/base.v2")])] := rfl
  refine ⟨?_, ?_, ?_⟩
  · intro name tree htree
    rw [← Table.mem_entries_iff, hentries] at htree
    simp only [List.mem_cons, Prod.mk.injEq, List.not_mem_nil, or_false] at htree
    rcases htree with ⟨rfl, rfl⟩ | ⟨rfl, rfl⟩
    · exact ⟨by decide, utf8 "\x7b\x7d", _, by rfl, ofUtf8?_utf8 _, by rfl⟩
    · exact ⟨by decide, utf8 "\x7b\"prefab\": \"body/base.v2\"\x7d", _, by rfl, ofUtf8?_utf8 _,
        by rfl⟩
  · intro kind name hr
    obtain ⟨rfl, rfl⟩ := Prod.mk.inj (List.mem_singleton.mp hr)
    exact ⟨by decide, by decide, by decide, .bytes [], by rfl⟩
  · intro rest content hfile
    have hplace : walkFiles.place "content" = ["home", "content"] := rfl
    rw [hplace] at hfile
    obtain ⟨before, after, hsplit, -⟩ := List.lookup_eq_some_iff.mp hfile
    have hmem := List.mem_append_right before (List.mem_cons_self
      (a := (["home", "content"] ++ rest, content)) (l := after))
    rw [← hsplit] at hmem
    simp only [List.mem_cons, Prod.mk.injEq, List.not_mem_nil, or_false, List.cons_append,
      List.nil_append, List.cons.injEq, true_and] at hmem
    rcases hmem with ⟨rfl, -⟩ | ⟨rfl, -⟩ | ⟨rfl, -⟩
    · exact .inl ⟨"body/base.v2", .object [], rfl, by decide⟩
    · exact .inl ⟨"walk", .object [("prefab", .text "body/base.v2")], rfl, by decide⟩
    · exact .inr ⟨"lua", "walk", List.mem_singleton_self _, by decide⟩

/-- The job over the files goes as it does over the content. -/
theorem bakes_like_memory_walkFiles :
    ((Builtin.baker (walkFiles.directory "content").source 4).serveAll .empty walkJob).failure =
      [[], [.inUnit "#2" (.missingResource "lua" "run")]] := by
  have hplain : ∀ q ∈ walkJob.flatMap (Builtin.queriesOf walkContent.source 4),
      PlainPath q.name := by
    decide +kernel
  obtain ⟨-, -, hjob⟩ := bakes_like_memory keeps_walkFiles
  rw [(hjob 4 .empty walkJob hplain).1]
  decide +kernel

end FileMap

end UnitBake
