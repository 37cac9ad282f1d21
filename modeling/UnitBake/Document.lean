/-
# Unit documents

The unit document of the specification (section 3), and the override keys of section 4.3.

A unit document names a parent to inherit from, overrides of components of the root of the
inheritance chain, and components of its own; each of the three may be left out.  `Document.read`
reads one from a tree and `Document.toJson` writes one back.  Two documents that read alike are
written alike, whatever spelling they were given in.
-/
import UnitBake.Fault
import UnitBake.Shape.Record

namespace UnitBake

/-- A component: an id by which overrides find it, the name of its type, and data for the encoder of
that type. -/
structure Component where
  id : Option Guid
  typeName : String
  data : Json

/-- A unit document.  Overrides are kept by their keys. -/
structure Document where
  parent : Option String
  overrides : Table String Component
  components : List Component

namespace Component

/-- The fields of a component in declaration order. -/
def fields : List Shape.Field :=
  [Shape.defaulted "id" (Shape.optional Shape.guid) none,
   Shape.required "type" Shape.text,
   Shape.defaulted "data" Shape.any .null]

/-- Reads a component. -/
def read (v : Json) : Except ShapeError Component :=
  match Shape.values "ComponentFragment" fields v with
  | .ok (id, typeName, data, _) => .ok ⟨id, typeName, data⟩
  | .error e => .error e

/-- Writes a component; its id only if it has one. -/
def toJson (c : Component) : Json :=
  .object (("data", c.data) ::
    (c.id.toList.map (fun g => ("id", .text g.text)) ++ [("type", .text c.typeName)]))

end Component

namespace Document

/-- The fields of a document in declaration order. -/
def fields : List Shape.Field :=
  [Shape.defaulted "prefab" (Shape.optional Shape.text) none,
   Shape.defaulted "modified_components" (Shape.table Component.read) .empty,
   Shape.defaulted "components" (Shape.list Component.read) []]

/-- Reads a document. -/
def read (v : Json) : Except ShapeError Document :=
  match Shape.values "UnitDocument" fields v with
  | .ok (parent, overrides, components, _) => .ok ⟨parent, overrides, components⟩
  | .error e => .error e

/-- Reads the document of the unit called `path`. -/
def ofJson (v : Json) (path : String) : Except Fault Document :=
  (read v).mapError fun e => .document path (.shape e)

/-- Writes a document; the parent only if there is one, overrides only if there are any. -/
def toJson (d : Document) : Json :=
  let overrides := d.overrides.entries.map fun e => (e.1, e.2.toJson)
  .object (("components", .list (d.components.map Component.toJson)) ::
    ((if overrides.isEmpty then [] else [("modified_components", .object overrides)]) ++
      d.parent.toList.map fun p => ("prefab", .text p)))

/-- The id an override is for.  The first character of its key is a mark and is not looked at. -/
def overrideId (key : String) : Except Fault Guid :=
  (Guid.read (String.ofList (key.toList.drop 1))).mapError (.malformedKey key)

end Document

end UnitBake
