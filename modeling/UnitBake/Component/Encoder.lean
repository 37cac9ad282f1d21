/-
# Encoders

`ComponentEncoder` and its `EncodeContext` of the specification (section 4.2).

An encoder turns the data of one component into bytes.  It sees the name of the component's type and
the content being baked, and may refuse.
-/
import UnitBake.Source.Basic

namespace UnitBake

/-- What an encoder sees besides the data. -/
structure EncodeContext where
  component : String
  source : Source

/-- Turns the data of a component into bytes. -/
abbrev Encoder : Type := EncodeContext → Json → Except Fault (List UInt8)

namespace EncodeContext

/-- Reads the data; a wrong shape is told with the component. -/
def parse (ctx : EncodeContext) {α : Type} (read : Json → Except ShapeError α) (data : Json) :
    Except Fault α :=
  (read data).mapError (.componentData ctx.component)

/-- Refuses a resource that does not exist. -/
def require (ctx : EncodeContext) (kind name : String) : Except Fault Unit :=
  if ctx.source.resourceExists kind name then .ok () else .error (.missingResource kind name)

end EncodeContext

end UnitBake
