/-
# Faults are wrapped once

A fault is *bare* if it is not wrapped with the name of a unit.  Reading, resolving and encoding have
bare faults only (`OnlyBare`), a property of computations that goes along with their steps
(`FailsOnly.bind`).  The one place that wraps is the baking of a unit, so the fault of a unit of the
content is wrapped with the name of that unit, and just once: `Builtin.failure_bakePath_eq_some`.  A
parent that fails does not appear in it as a unit of its own.

Neither does the batch: a unit fails with the same fault wherever it stands in a job
(`Baker.failure_bakePath`).
-/
import UnitBake.Proofs.Baking.Queries
import UnitBake.Proofs.Prefab.Overrides
import UnitBake.Source.Directory

namespace UnitBake

/-! ## 1. Bare faults -/

/-- The fault names no unit. -/
def Fault.Bare : Fault → Prop
  | .inUnit _ _ => False
  | _ => True

theorem Fault.Bare.within {fault : Fault} (h : fault.Bare) (unit : String) :
    fault.within unit = .inUnit unit fault := by
  cases fault with
  | inUnit other inner => cases h
  | _ => rfl

/-- If the computation fails, its fault names no unit. -/
abbrev OnlyBare {α : Type} (x : Except Fault α) : Prop := FailsOnly Fault.Bare x

/-! ## 2. Reading and resolving -/

/-- Units are read with bare faults. -/
def Source.OnlyBare (s : Source) : Prop := ∀ name, UnitBake.OnlyBare (s.readUnit name)

theorem DirectorySource.onlyBare (d : DirectorySource) : d.source.OnlyBare := by
  intro name
  change UnitBake.OnlyBare (d.readUnit name)
  simp only [readUnit]
  split
  · exact .error trivial
  · exact .error trivial
  · split
    · exact .error trivial
    · exact .mapError _ fun _ => trivial

namespace Prefab

variable {s : Source}

theorem onlyBare_ancestors (hs : s.OnlyBare) {tooDeep : Fault} (hdeep : tooDeep.Bare) :
    ∀ (allowed : Nat) (d : Document), OnlyBare (ancestors s tooDeep allowed d)
  | allowed, d => by
    rw [ancestors]
    cases d.parent with
    | none => exact .ok []
    | some parent =>
      cases allowed with
      | zero => exact .error hdeep
      | succ allowed =>
        refine .bind (hs parent) fun tree => .bind (.mapError _ fun _ => trivial) fun document => ?_
        exact .bind (onlyBare_ancestors hs hdeep allowed document) fun rest => .ok _

theorem onlyBare_apply (unit : String) (root : List Component) :
    ∀ (overrides : List (String × Component)) (working : List Component),
      OnlyBare (apply unit root overrides working).result
  | [], working => .ok working
  | (key, replacement) :: rest, working => by
    have hid : OnlyBare (Document.overrideId key) := .mapError _ fun _ => trivial
    rcases apply_step unit root key replacement rest working with
      ⟨fault, hfault, happly⟩ | ⟨g, working', told, -, -, happly⟩
    · rw [happly]
      exact .error (hid fault hfault)
    · rw [happly]
      exact onlyBare_apply unit root rest working'

theorem onlyBare_resolveChain (unit : String) (documents : List Document) :
    OnlyBare (resolveChain unit documents).result := by
  match documents with
  | [] => exact .ok []
  | [d] => exact .ok d.components
  | _ :: _ :: _ => exact onlyBare_apply unit _ _ _

theorem onlyBare_resolve (hs : s.OnlyBare) (limit : Nat) (tree : Json) (unit : String) :
    OnlyBare (resolve s limit tree unit).result := by
  have hdeep : (Fault.prefabTooDeep unit limit).Bare := trivial
  rw [result_resolve]
  refine .bind (.bind (.mapError _ fun _ => trivial) fun leaf => ?_) (onlyBare_resolveChain unit)
  exact .map _ (onlyBare_ancestors hs hdeep _ leaf)

end Prefab

/-! ## 3. Encoding -/

namespace EncodeContext

variable {ctx : EncodeContext}

theorem onlyBare_parse {α : Type} (read : Json → Except ShapeError α) (data : Json) :
    OnlyBare (ctx.parse read data) :=
  .mapError _ fun _ => trivial

theorem onlyBare_require (kind name : String) : OnlyBare (ctx.require kind name) := by
  unfold require
  split
  · exact .ok ()
  · exact .error trivial

end EncodeContext

theorem Projection.onlyBare_ofName (name : String) : OnlyBare (Projection.ofName name) := by
  unfold ofName
  split
  · exact .ok _
  · split
    · exact .ok _
    · exact .error trivial

theorem LightKind.onlyBare_ofName (name : String) : OnlyBare (LightKind.ofName name) := by
  unfold ofName
  split
  · exact .ok _
  · split
    · exact .ok _
    · split
      · exact .ok _
      · exact .error trivial

namespace Builtin

open EncodeContext (onlyBare_parse onlyBare_require)

theorem Kind.onlyBare_encode (k : Kind) (ctx : EncodeContext) (data : Json) :
    OnlyBare (k.encode ctx data) := by
  cases k with
  | transform => exact .bind (onlyBare_parse _ _) fun t => .ok _
  | camera =>
    refine .bind (onlyBare_parse _ _) fun d => .bind (Projection.onlyBare_ofName _) fun p => ?_
    exact .ok _
  | light =>
    refine .bind (onlyBare_parse _ _) fun d => .bind (LightKind.onlyBare_ofName _) fun l => ?_
    exact .ok _
  | meshRenderer | spriteRenderer | script | stateMachine =>
    exact .bind (onlyBare_parse _ _) fun x => .bind (onlyBare_require _ _) fun _ => .ok _

variable {s : Source} {depth : Nat}

theorem onlyBare_encodeComponent (c : Component) :
    OnlyBare ((baker s depth).encodeComponent c) := by
  simp only [Baker.encodeComponent, baker]
  split
  · exact .error trivial
  · next encoder hget =>
    obtain ⟨k, -, rfl⟩ := exists_kind_of_get? hget
    exact .map _ (k.onlyBare_encode _ _)

theorem onlyBare_encodeAll : ∀ components : List Component,
    OnlyBare ((baker s depth).encodeAll components)
  | [] => .ok []
  | c :: rest => by
    rw [Baker.encodeAll]
    refine .bind (onlyBare_encodeComponent c) fun i => .bind (onlyBare_encodeAll rest) fun is => ?_
    exact .ok _

theorem onlyBare_encodeUnit (hs : s.OnlyBare) (tree : Json) (name : String) :
    OnlyBare ((baker s depth).encodeUnit tree name).result :=
  .bind (Prefab.onlyBare_resolve hs depth tree name) onlyBare_encodeAll

/-- **The fault of a unit of the content names that unit, and names no other.** -/
theorem failure_bakePath_eq_some (hs : s.OnlyBare) {batch : Batch} {name : String} {fault : Fault}
    (h : ((baker s depth).bakePath batch name).failure = some fault) :
    ∃ inner, fault = .inUnit name inner ∧ inner.Bare := by
  rw [Baker.bakePath] at h
  split at h
  · next inner hread =>
    have hbare : inner.Bare := hs name inner hread
    obtain rfl := Option.some.inj h
    exact ⟨inner, hbare.within name, hbare⟩
  · next tree hread =>
    rw [Baker.bakeNamed] at h
    split at h
    · next inner hresult =>
      have hbare : inner.Bare := onlyBare_encodeUnit hs tree name inner hresult
      obtain rfl := Option.some.inj h
      exact ⟨inner, hbare.within name, hbare⟩
    · cases h

end Builtin

/-! ## 4. Units by themselves -/

namespace Baker

/-- **A unit fails alike wherever it stands.** -/
theorem failure_bakePath (b : Baker) (batch batch' : Batch) (name : String) :
    (b.bakePath batch name).failure = (b.bakePath batch' name).failure := by
  rw [bakePath, bakePath]
  cases b.source.readUnit name with
  | error fault => rfl
  | ok tree =>
    simp only [bakeNamed]
    cases (b.encodeUnit tree name).result <;> rfl

end Baker

end UnitBake
