/-
# Ids in trees

The serialized forms of `EntityId` and `ComponentTypeId` of the specification (section 4.1).

Unit ids and type ids are written as their numbers and read from any integer of 32 bits.
-/
import UnitBake.Component.TypeId
import UnitBake.Entity.Id
import UnitBake.Shape.Basic

namespace UnitBake

/-- The id of a unit as a number. -/
def EntityId.toJson (id : EntityId) : Json := .ofNat id.raw.toNat

/-- Reads the id of a unit. -/
def EntityId.read (v : Json) : Except ShapeError EntityId := (Shape.word v).map EntityId.mk

/-- The id of a type as a number. -/
def TypeId.toJson (t : TypeId) : Json := .ofNat t.hash.toNat

/-- Reads the id of a type. -/
def TypeId.read (v : Json) : Except ShapeError TypeId := (Shape.word v).map TypeId.mk

end UnitBake
