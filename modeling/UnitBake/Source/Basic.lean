/-
# Where units and resources come from

`SourceProvider` of the specification (section 6): `read_unit` and `resource_exists`.

Baking sees the content it works on only through a `Source`: the tree of a unit by name, and whether
a resource of some kind exists.  Both are functions, so a run depends on nothing else.
-/
import UnitBake.Fault

namespace UnitBake

/-- The content that is baked. -/
structure Source where
  /-- The tree of the unit with the given name. -/
  readUnit : String → Except Fault Json
  /-- Whether there is a resource of the given kind with the given name. -/
  resourceExists : String → String → Bool

end UnitBake
