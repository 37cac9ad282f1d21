/-
# Components of unknown types

A component is encoded by the encoder that is registered for the hash of its type name; the name
itself is not compared.  A type name that was never registered is therefore refused unless it has
the hash of one that was (`Registry.Recognised`):

* a unit with a component whose type name is not recognised fails, with the name of that type if
  nothing before it fails (`encodeAll_of_unknown`, `unit?_of_unknown`);
* every component of a unit that bakes was encoded by an accepted registration whose name has the
  hash of its type name, which is that very name if it was registered (`registration_of_mem`);
* but a name that was never registered can have such a hash: `costarring` is baked as `liquid`
  (`recognised_costarring`).
-/
import UnitBake.Proofs.Baking.FirstFault
import UnitBake.Proofs.Component.Enrolment

namespace UnitBake.Baker

open Registry (Enrolment Registered Recognised)

/-! ## 1. Units that fail -/

/-- The first component that fails decides the fault. -/
theorem encodeAll_of_unknown {b : Baker} {c : Component} {front back : List Component}
    (hc : b.registry.get? (.ofName c.typeName) = none)
    (hfront : ∀ d ∈ front, ∃ e, b.encoded? d = some e) :
    b.encodeAll (front ++ c :: back) = .error (.unknownType c.typeName) := by
  have hencodes : ∀ d ∈ front, b.Encodes d := by
    intro d hd
    obtain ⟨e, he⟩ := hfront d hd
    exact encodes_of_encoded? he
  exact encodeAll_eq_error_iff.mpr ⟨front, c, back, rfl, hencodes, .unknownType hc⟩

section

variable {b : Baker} {tree : Json} {c : Component} {front back : List Component}

/-- A document with a component of an unknown type comes to nothing. -/
theorem unit?_of_unknown (hc : b.registry.get? (.ofName c.typeName) = none)
    (hcomponents : b.components? tree = some (front ++ c :: back)) : b.unit? tree = none := by
  have hencoded : b.encoded? c = none := by
    rw [encoded?, Registry.lookup?, hc]
    rfl
  rw [unit?, hcomponents, Option.bind_some]
  exact mapM_encoded?_eq_none hencoded (by simp)

/-- If all components before it are encoded, the fault names its type. -/
theorem result_encodeUnit_of_unknown (hc : b.registry.get? (.ofName c.typeName) = none)
    (hcomponents : b.components? tree = some (front ++ c :: back))
    (hfront : ∀ d ∈ front, ∃ e, b.encoded? d = some e) (name : String) :
    (b.encodeUnit tree name).result = .error (.unknownType c.typeName) := by
  have hresolve : (Prefab.resolve b.source b.prefabDepth tree name).result =
      .ok (front ++ c :: back) := by
    apply eq_ok_of_toOption
    rw [Prefab.toOption_resolve b.source b.prefabDepth tree name ""]
    exact hcomponents
  rw [encodeUnit, hresolve]
  exact encodeAll_of_unknown hc hfront

end

/-! ## 2. Units that bake -/

/-- **What is baked was registered under the hash of its type name.** -/
theorem registration_of_mem {b : Baker} {asked : List Registration}
    (hregistry : b.registry = (Enrolment.after asked).registry) {tree : Json}
    {unit : List Encoded} (hunit : b.unit? tree = some unit) {e : Encoded} (he : e ∈ unit) :
    ∃ x ∈ (Enrolment.after asked).accepted, TypeId.ofName x.name = e.typeId ∧
      x.encoder ⟨e.component.typeName, b.source⟩ e.component.data = .ok e.bytes ∧
      (Registered asked e.component.typeName → x.name = e.component.typeName) := by
  obtain ⟨components, -, hencoded⟩ := Option.bind_eq_some_iff.mp hunit
  obtain ⟨c, -, hc⟩ := exists_of_mem_mapM_encoded? hencoded he
  obtain ⟨rfl, x, hx, hbytes⟩ := encoded?_eq_some hc
  rw [hregistry] at hx
  obtain ⟨hmem, hhash⟩ := Enrolment.mem_accepted_of_get? hx
  exact ⟨x, hmem, hhash, hbytes, fun hregistered => hregistered.name_of_get? hx⟩

/-- **Types are known by the hashes of their names.**  Names that are not recognised are neither
contained nor looked up, and a unit with a component of such a type fails, with its name if all
components before it are encoded.  Of a unit that bakes, every component was encoded by a
registration of its hash, and of its name if the name was registered. -/
theorem types_known_by_hash {b : Baker} {asked : List Registration}
    (hregistry : b.registry = (Enrolment.after asked).registry) :
    (∀ name, (b.registry.contains name = true ↔ Recognised asked name) ∧
      (b.registry.lookup? name = none ↔ ¬ Recognised asked name)) ∧
    (∀ tree front c back, b.components? tree = some (front ++ c :: back) →
      ¬ Recognised asked c.typeName → ∀ batch name, ∃ fault,
        (b.bakeNamed batch tree name).failure = some fault ∧
        (b.bakeNamed batch tree name).batch = batch ∧
        ((∀ d ∈ front, ∃ e, b.encoded? d = some e) → fault.root = .unknownType c.typeName)) ∧
    ∀ tree batch name, (b.bakeNamed batch tree name).failure = none →
      ∃ unit, b.unit? tree = some unit ∧
        (b.bakeNamed batch tree name).batch = batch.addUnit unit ∧
        ∀ e ∈ unit, ∃ x ∈ (Enrolment.after asked).accepted, TypeId.ofName x.name = e.typeId ∧
          x.encoder ⟨e.component.typeName, b.source⟩ e.component.data = .ok e.bytes ∧
          (Registered asked e.component.typeName → x.name = e.component.typeName) := by
  refine ⟨?_, ?_, ?_⟩
  · intro name
    rw [hregistry]
    exact ⟨Registry.contains_iff asked name, Registry.get?_eq_none_iff asked name⟩
  · intro tree front c back hcomponents hunknown batch name
    have hc : b.registry.get? (.ofName c.typeName) = none := by
      rw [hregistry]
      exact (Registry.get?_eq_none_iff asked c.typeName).mpr hunknown
    obtain ⟨⟨fault, hfault⟩, hbatch⟩ :=
      bakeNamed_of_none batch (unit?_of_unknown hc hcomponents) name
    refine ⟨fault, hfault, hbatch, fun hfront => ?_⟩
    rw [bakeNamed, result_encodeUnit_of_unknown hc hcomponents hfront name] at hfault
    rw [← Option.some.inj hfault]
    exact Fault.root_within name _
  · intro tree batch name hfailure
    obtain ⟨unit, hunit⟩ := bakes_iff.mp ((failure_bakeNamed batch name).mp hfailure)
    exact ⟨unit, hunit, (bakeNamed_of_some batch hunit name).2,
      fun e he => registration_of_mem hregistry hunit he⟩

/-- One registered type. -/
def liquid : Registration := ⟨"liquid", 0, byteEncoder⟩

/-- Knows the type `liquid` alone, and no content. -/
def liquidBaker : Baker :=
  ⟨(Enrolment.after [liquid]).registry, MemorySource.empty.source, defaultPrefabDepth⟩

/-- A unit with a `liquid` and a `solid` fails at the `solid`. -/
theorem types_known_by_hash_solid :
    ¬ Recognised [liquid] "solid" ∧
      ∃ fault,
        (liquidBaker.bakeNamed .empty (byteUnit [("liquid", 1), ("solid", 2)]) "#0").failure =
          some fault ∧
        fault.root = .unknownType "solid" := by
  have hregistry : liquidBaker.registry = (Enrolment.after [liquid]).registry := rfl
  obtain ⟨hnames, hfails, -⟩ := types_known_by_hash hregistry
  have hsolid : ¬ Recognised [liquid] "solid" := by
    rw [← (hnames "solid").1]
    decide +kernel
  obtain ⟨fault, hfault, -, hroot⟩ :=
    hfails (byteUnit [("liquid", 1), ("solid", 2)]) [⟨none, "liquid", .ofNat 1⟩]
      ⟨none, "solid", .ofNat 2⟩ [] (by rfl) hsolid .empty "#0"
  refine ⟨hsolid, fault, hfault, hroot ?_⟩
  intro d hd
  obtain rfl := List.mem_singleton.mp hd
  exact Option.isSome_iff_exists.mp (by decide +kernel)

/-- `costarring` was never registered and has the hash of `liquid`: it is contained, and a unit with
a `costarring` is baked as one with a `liquid`. -/
theorem recognised_costarring :
    ¬ Registered [liquid] "costarring" ∧ liquidBaker.registry.contains "costarring" = true ∧
      (liquidBaker.bakeNamed .empty (byteUnit [("costarring", 1)]) "#0").failure = none ∧
      (liquidBaker.bakeNamed .empty (byteUnit [("costarring", 1)]) "#0").batch.instanceCount
        (.ofName "liquid") = 1 := by
  refine ⟨?_, by decide +kernel, by decide +kernel, by decide +kernel⟩
  unfold Registered
  decide +kernel

end UnitBake.Baker
