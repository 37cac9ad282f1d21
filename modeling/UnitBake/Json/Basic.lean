/-
# JSON trees

The document trees of the specification (section 1).

A tree of null, booleans, numbers, texts, lists and objects.  Integers and floating-point numbers
are different numbers even where their values agree: `1` is an integer and `1.0` is not.  The
members of an object stand by rising key, which `Entries.put` keeps.
-/
import UnitBake.Table
import UnitBake.Number.Binary

namespace UnitBake

/-- A number in a JSON tree.  Integers lie between `-2 ^ 63` and `2 ^ 64 - 1`, floating-point
numbers are finite. -/
inductive Number where
  | integer (value : Int)
  | float (value : Binary64)
deriving DecidableEq, Repr, Inhabited

/-- A JSON tree. -/
inductive Json where
  | null
  | bool (value : Bool)
  | number (value : Number)
  | text (value : String)
  | list (items : List Json)
  | object (members : List (String × Json))
deriving Inhabited, Repr

namespace Json

/-- The tree of a natural number. -/
def ofNat (n : Nat) : Json := .number (.integer n)

end Json

end UnitBake
