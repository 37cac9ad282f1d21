/-
# The command writes all units or nothing

A run of the command that bakes either writes the blob of all units that it is given, or it fails with
the fault of the first one that fails by itself and leaves the file system alone:
`Command.all_or_nothing`.

* A unit adds the same to every batch (`Baker.Contributes`), so the units of a run are what they are
  by themselves, in the order of the arguments (`bakeUnits_of_none`).
* A unit fails with the same fault in every batch, so the first one that fails by itself is the one
  that ends the run (`bakeUnits_of_fault`), and its fault is wrapped with its name alone.
* What is written is found under the path of the output (`FileSystem.files_write`), and reads back as
  a blob that holds just these units (`Builtin.exists_holds`).
-/
import UnitBake.Command.Run
import UnitBake.Proofs.Baking.Consistency
import UnitBake.Proofs.Baking.Faults
import UnitBake.Proofs.Source.Writing

namespace UnitBake

/-! ## 1. Units by their names -/

namespace Baker

variable {b : Baker}

/-- What a unit of the content adds, whatever was baked before it. -/
def Contributes (b : Baker) (name : String) (unit : List Encoded) : Prop :=
  ∀ batch, (b.bakePath batch name).failure = none ∧
    (b.bakePath batch name).batch = batch.addUnit unit

/-- A unit that bakes by itself adds the same everywhere. -/
theorem exists_contributes {name : String} (h : (b.bakePath .empty name).failure = none) :
    ∃ unit, b.unitsOf (.path name) = [unit] ∧ b.Contributes name unit := by
  cases hread : b.source.readUnit name with
  | error fault => simp [bakePath, hread] at h
  | ok tree =>
    have hpath : ∀ batch, b.bakePath batch name = b.bakeNamed batch tree name := fun batch => by
      simp only [bakePath, hread]
    rw [hpath, failure_bakeNamed, bakes_iff] at h
    obtain ⟨unit, hunit⟩ := h
    refine ⟨unit, ?_, ?_⟩
    · simp only [unitsOf, hread, Except.toOption, Option.bind_some, hunit, Option.toList_some]
    · intro batch
      rw [hpath]
      exact bakeNamed_of_some batch hunit name

/-- Units that bake by themselves are the units of a job that asks for them in order. -/
theorem forall₂_contributes : ∀ {names : List String},
    (∀ name ∈ names, (b.bakePath .empty name).failure = none) →
      List.Forall₂ b.Contributes names (b.unitsOfAll (names.map .path))
  | [], _ => .nil
  | name :: rest, h => by
    obtain ⟨hname, hrest⟩ := List.forall_mem_cons.mp h
    obtain ⟨unit, hunit, hcontributes⟩ := exists_contributes hname
    rw [List.map_cons, unitsOfAll, List.flatMap_cons, hunit, List.singleton_append]
    exact .cons hcontributes (forall₂_contributes hrest)

end Baker

/-! ## 2. Blobs that hold units -/

/-- The blob holds these units and no others: their number, and for each type with components a
section with the owners and the bytes of all of them. -/
structure Blob.Parsed.Holds (r : Blob.Parsed) (units : List (List Encoded)) : Prop where
  count : r.header.units = UInt32.ofNat units.length
  contents : ∀ s ∈ r.sections,
    s.content = .ofPlaced s.header.typeId (placedOf s.header.typeId (placed units))
  complete : ∀ t, placedOf t (placed units) ≠ [] → ∃ s ∈ r.sections, s.header.typeId = t
  types : (r.sections.map (·.header.typeId)).Nodup

/-- **The blob of a job with the built-in types holds the units of the job.** -/
theorem Builtin.exists_holds {source : Source} {depth : Nat} {requests : List Request}
    (hfit : ∀ t, 4 * (placedOf t ((baker source depth).yield requests)).length +
      ((placedOf t ((baker source depth).yield requests)).flatMap
        fun p => p.encoded.bytes).length < 2 ^ 32) :
    ∃ r, Blob.read ((baker source depth).finalize
        ((baker source depth).serveAll .empty requests).batch).result = .ok r ∧
      r.Holds ((baker source depth).unitsOfAll requests) := by
  obtain ⟨r, hread, hunits, hsections⟩ := Blob.read_write_contents
    ((baker source depth).serveAll .empty requests).batch.units
    (Baker.fits_of_mem_sectionsOf hfit) length_sectionsOf_lt
  refine ⟨r, hread, ?_, ?_, ?_, ?_⟩
  · rw [hunits]
    exact (tallies_serveAll _ requests).1
  · intro s hs
    rw [hsections] at hs
    obtain ⟨c, hc, rfl⟩ := List.mem_map.mp hs
    obtain ⟨t, -, rfl⟩ := (Baker.mem_sectionsOf_iff c).mp hc
    rw [Blob.Section.content, Blob.Content.owners_section]
    rfl
  · intro t ht
    rw [hsections]
    exact ⟨_, List.mem_map_of_mem ((Baker.mem_sectionsOf_iff _).mpr ⟨t, ht, rfl⟩), rfl⟩
  · rw [hsections, List.map_map]
    exact Baker.nodup_typeIds (tallies_serveAll _ requests)

namespace Command

/-! ## 3. Baking in order -/

variable {b : Baker}

/-- Units that bake by themselves are baked in order. -/
theorem bakeUnits_of_none : ∀ {names : List String} (batch : Batch),
    (∀ name ∈ names, (b.bakePath .empty name).failure = none) →
      bakeUnits b batch names = .ok (b.serveAll batch (names.map .path)).batch
  | [], _, _ => rfl
  | name :: rest, batch, h => by
    obtain ⟨hname, hrest⟩ := List.forall_mem_cons.mp h
    rw [b.failure_bakePath .empty batch] at hname
    simp only [bakeUnits, hname, bakeUnits_of_none _ hrest]
    rfl

/-- **The first unit that fails by itself ends the run with its fault.** -/
theorem bakeUnits_of_fault {name : String} {fault : Fault}
    (hfault : (b.bakePath .empty name).failure = some fault) (rest : List String) :
    ∀ {front : List String} (batch : Batch),
      (∀ first ∈ front, (b.bakePath .empty first).failure = none) →
        bakeUnits b batch (front ++ name :: rest) = .error fault
  | [], batch, _ => by
    rw [b.failure_bakePath .empty batch] at hfault
    simp only [List.nil_append, bakeUnits, hfault]
  | first :: front, batch, h => by
    obtain ⟨hfirst, hfront⟩ := List.forall_mem_cons.mp h
    rw [b.failure_bakePath .empty batch] at hfirst
    simp only [List.cons_append, bakeUnits, hfirst, bakeUnits_of_fault hfault rest _ hfront]

/-- If not all units bake by themselves, there is a first that does not. -/
theorem exists_first_fault {names : List String}
    (h : ¬ ∀ name ∈ names, (b.bakePath .empty name).failure = none) :
    ∃ front name rest fault, names = front ++ name :: rest ∧
      (∀ first ∈ front, (b.bakePath .empty first).failure = none) ∧
      (b.bakePath .empty name).failure = some fault := by
  obtain ⟨front, name, rest, hnames, hfront, hname⟩ := First.of_not_forall h
  obtain ⟨fault, hfault⟩ := Option.ne_none_iff_exists'.mp hname
  exact ⟨front, name, rest, fault, hnames, hfront, hfault⟩

/-! ## 4. Runs -/

variable {fs : FileSystem} {args : List String} {o : Options}

/-- **The command writes all units or nothing.** -/
theorem all_or_nothing (hargs : Request.ofArguments args = .bake o)
    (hwrite : ∀ blob, bake o fs.files = .ok blob → ∃ after, fs.write o.output blob = .ok after)
    (hfit : ∀ t,
      4 * (placedOf t ((o.baker fs.files).yield (o.units.map UnitBake.Request.path))).length +
        ((placedOf t ((o.baker fs.files).yield (o.units.map UnitBake.Request.path))).flatMap
          fun p => p.encoded.bytes).length < 2 ^ 32) :
    ((∀ name ∈ o.units, ((o.baker fs.files).bakePath .empty name).failure = none) →
      ∃ after blob r units,
        run fs args = ⟨0, none, after⟩ ∧ fs.write o.output blob = .ok after ∧
        after.files o.output = some (.bytes blob) ∧ Blob.read blob = .ok r ∧
        (o.units.length < 2 ^ 32 → r.header.units.toNat = o.units.length) ∧
        List.Forall₂ (o.baker fs.files).Contributes o.units units ∧ r.Holds units) ∧
    ((¬ ∀ name ∈ o.units, ((o.baker fs.files).bakePath .empty name).failure = none) →
      ∃ front name rest fault,
        o.units = front ++ name :: rest ∧
        (∀ first ∈ front, ((o.baker fs.files).bakePath .empty first).failure = none) ∧
        ((o.baker fs.files).bakePath .empty name).failure = some (.inUnit name fault) ∧
        fault.Bare ∧ run fs args = ⟨1, some (.content (.inUnit name fault)), fs⟩) := by
  constructor
  · intro hnone
    have hbake := bakeUnits_of_none .empty hnone
    obtain ⟨r, hread, hholds⟩ := Builtin.exists_holds hfit
    have hcontributes := Baker.forall₂_contributes hnone
    have hblob : bake o fs.files = .ok ((o.baker fs.files).finalize ((o.baker fs.files).serveAll
        .empty (o.units.map .path)).batch).result := by
      simp only [bake, hbake]
      rfl
    obtain ⟨after, hafter⟩ := hwrite _ hblob
    refine ⟨after, _, r, _, ?_, hafter, FileSystem.files_write hafter, hread, ?_, hcontributes,
      hholds⟩
    · simp only [run, hargs, hblob, hafter]
    · intro hcount
      have hlength := hcontributes.length_eq
      rw [hlength] at hcount ⊢
      rw [hholds.count]
      exact UInt32.toNat_ofNat_of_lt' hcount
  · intro hsome
    obtain ⟨front, name, rest, fault, hunits, hfront, hfault⟩ := exists_first_fault hsome
    obtain ⟨inner, rfl, hbare⟩ := Builtin.failure_bakePath_eq_some (DirectorySource.onlyBare _) hfault
    refine ⟨front, name, rest, inner, hunits, hfront, hfault, hbare, ?_⟩
    have hbake : bake o fs.files = .error (.inUnit name inner) := by
      simp only [bake, hunits, bakeUnits_of_fault hfault rest .empty hfront]
      rfl
    simp only [run, hargs, hbake]

/-- A working directory with content in `data`: a unit with a script, one that inherits from it, and one
whose file the system refuses to open. -/
def scripted : FileSystem where
  top := .directory [("home", .directory [("data", .directory
    [("eye.unit", .file (.bytes (utf8 ("\x7b\"components\":[\x7b\"type\":\"script\"," ++
        "\"data\":\x7b\"script_resource\":\"see\"\x7d\x7d]\x7d")))),
      ("see.lua", .file (.bytes [])),
      ("hawk.unit", .file (.bytes (utf8 "\x7b\"prefab\":\"eye\"\x7d"))),
      ("mole.unit", .file (.unreadable "Permission denied (os error 13)"))])])]
  working := ["home"]

/-- Three units are written, one of them given twice; with a unit that is missing none is, nor with one
that cannot be read. -/
theorem all_or_nothing_scripted :
    (∃ after blob r, run scripted ["-s", "data", "-o", "out", "hawk", "eye", "hawk"] =
        ⟨0, none, after⟩ ∧
      after.files "out" = some (.bytes blob) ∧ Blob.read blob = .ok r ∧
      r.header.units.toNat = 3) ∧
    ∀ failing ∈ ["owl", "mole"],
      (run scripted ["-s", "data", "-o", "out", "hawk", failing, "eye"]).exitCode = 1 ∧
        (run scripted ["-s", "data", "-o", "out", "hawk", failing, "eye"]).fileSystem =
          scripted := by
  have hwrite : ∀ blob, ∃ after, scripted.write "out" blob = .ok after := fun blob => ⟨_, rfl⟩
  constructor
  · have hargs : Request.ofArguments ["-s", "data", "-o", "out", "hawk", "eye", "hawk"] =
        .bake ⟨"data", "out", none, ["hawk", "eye", "hawk"]⟩ := by
      decide +kernel
    obtain ⟨after, blob, r, units, hrun, -, hfile, hread, hcount, -⟩ :=
      (all_or_nothing hargs (fun blob _ => hwrite blob)
        (fun t => (size_placedOf_le t _).trans_lt (by decide +kernel))).1 (by decide +kernel)
    exact ⟨after, blob, r, hrun, hfile, hread, hcount (by decide)⟩
  · have hfailing : ∀ failing ∈ ["owl", "mole"],
        Request.ofArguments ["-s", "data", "-o", "out", "hawk", failing, "eye"] =
          .bake ⟨"data", "out", none, ["hawk", failing, "eye"]⟩ := by
      decide +kernel
    intro failing hmem
    obtain ⟨front, name, rest, fault, -, -, -, -, hrun⟩ :=
      (all_or_nothing (hfailing failing hmem) (fun blob _ => hwrite blob)
        (fun t => (size_placedOf_le t _).trans_lt (by
          revert failing
          decide +kernel))).2 (by
            revert failing
            decide +kernel)
    rw [hrun]
    exact ⟨rfl, rfl⟩

end Command

end UnitBake
