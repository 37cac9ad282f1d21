/-
# Content in memory

`MemorySource` of the specification (section 6).

Units by name and a list of declared resources.  A unit is itself a resource of kind `unit`.
-/
import UnitBake.Source.Basic

namespace UnitBake

/-- Units and resources held in memory. -/
structure MemorySource where
  units : Table String Json
  /-- Kind and name of each declared resource. -/
  resources : List (String × String)

namespace MemorySource

/-- No content. -/
def empty : MemorySource := ⟨.empty, []⟩

/-- Adds or replaces a unit. -/
def insertUnit (m : MemorySource) (name : String) (tree : Json) : MemorySource :=
  { m with units := m.units.insert name tree }

/-- Declares a resource. -/
def insertResource (m : MemorySource) (kind name : String) : MemorySource :=
  { m with resources := (kind, name) :: m.resources }

/-- The tree of a unit. -/
def readUnit (m : MemorySource) (name : String) : Except Fault Json :=
  match m.units.get? name with
  | some tree => .ok tree
  | none => .error (.missingResource "unit" name)

/-- Whether a resource was declared or is a unit. -/
def resourceExists (m : MemorySource) (kind name : String) : Bool :=
  (kind == "unit" && m.units.contains name) || m.resources.contains (kind, name)

/-- The content as a source. -/
def source (m : MemorySource) : Source := ⟨m.readUnit, m.resourceExists⟩

end MemorySource

end UnitBake
