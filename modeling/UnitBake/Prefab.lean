/-
# Inheritance between units

The `PrefabResolver` of the specification (section 4.3): the chain and its limit, the overrides, and
the `ResolvedComponent`s that come of them.

A unit may name a parent, which may name its own, up to a root that names none.  The root supplies
the components.  Every document of such a chain of two or more may override components of the root by
their ids; overrides are applied from the root down, so the document nearest the unit wins.

* `Prefab.ancestors` follows the chain, which may hold only so many documents.
* `Prefab.overrides` lists all overrides of a chain in the order in which they are applied.
* `Prefab.apply` applies them to a working copy, always looking ids up in the root's own list.
-/
import UnitBake.Document
import UnitBake.Event
import UnitBake.Source.Basic

namespace UnitBake.Prefab

/-! ## 1. The chain of documents -/

/-- The ancestors of a document, the parent first, if there are at most `allowed`. -/
def ancestors (source : Source) (tooDeep : Fault) : Nat → Document → Except Fault (List Document)
  | allowed, d =>
    match d.parent with
    | none => .ok []
    | some parent =>
      match allowed with
      | 0 => .error tooDeep
      | allowed + 1 => do
        let tree ← source.readUnit parent
        let document ← Document.ofJson tree parent
        let rest ← ancestors source tooDeep allowed document
        return document :: rest

/-- The chain of a unit from itself to its root, of at most `limit` documents (and at least one). -/
def chain (source : Source) (limit : Nat) (unit : String) (leaf : Document) :
    Except Fault (List Document) :=
  (ancestors source (.prefabTooDeep unit limit) (limit - 1) leaf).map (leaf :: ·)

/-! ## 2. Overrides -/

/-- All overrides of a chain in the order of their application: from the root to the leaf, and within
a document by rising key. -/
def overrides (chain : List Document) : List (String × Component) :=
  chain.reverse.flatMap fun d => d.overrides.entries

/-- Applies overrides to a working copy of the components of the root.  An override replaces the
component whose place has its id in the root; the component it brings keeps its own id, or else gets
the one that was looked for.  An override that finds no place is told as an event. -/
def apply (unit : String) (root : List Component) :
    List (String × Component) → List Component → Traced (Except Fault (List Component))
  | [], working => ⟨.ok working, []⟩
  | (key, replacement) :: rest, working =>
    match Document.overrideId key with
    | .error e => ⟨.error e, []⟩
    | .ok id =>
      match root.findIdx? fun c => c.id == some id with
      | some place =>
        apply unit root rest
          (working.set place { replacement with id := some (replacement.id.getD id) })
      | none =>
        let further := apply unit root rest working
        ⟨further.result, .overrideUnmatched unit id :: further.events⟩

/-! ## 3. Resolution -/

/-- The components of the root of a chain after all overrides.  A chain of one document has its own
components, and its overrides are not looked at. -/
def resolveChain (unit : String) : List Document → Traced (Except Fault (List Component))
  | [] => ⟨.ok [], []⟩
  | [d] => ⟨.ok d.components, []⟩
  | leaf :: parent :: rest =>
    let root := ((parent :: rest).getLast (by simp)).components
    apply unit root (overrides (leaf :: parent :: rest)) root

/-- The components of a unit given by its tree. -/
def resolve (source : Source) (limit : Nat) (tree : Json) (unit : String) :
    Traced (Except Fault (List Component)) :=
  match Document.ofJson tree unit >>= chain source limit unit with
  | .error e => ⟨.error e, []⟩
  | .ok documents => resolveChain unit documents

end UnitBake.Prefab
