/-
# What is wrong with the shape of a tree

The shape errors in the `Document` and `ComponentData` faults of the specification (section 7).

A typed value is read from a JSON tree by its shape.  A tree of another shape is refused with what
was found and what was wanted.
-/
import UnitBake.Guid
import UnitBake.Json.Basic
import UnitBake.Number.Written
import UnitBake.Text.Quoted

namespace UnitBake

/-- What was found in place of the wanted value.  Lists and objects are named only. -/
inductive Found where
  | null
  | bool (value : Bool)
  | number (value : Number)
  | text (value : String)
  | list
  | object
deriving DecidableEq, Repr

/-- What a tree is when another shape was wanted. -/
def Found.of : Json → Found
  | .null => .null
  | .bool b => .bool b
  | .number n => .number n
  | .text s => .text s
  | .list _ => .list
  | .object _ => .object

/-- The words for what was found. -/
def Found.words : Found → String
  | .null => "null"
  | .bool b => "boolean `" ++ (if b then "true" else "false") ++ "`"
  | .number (.integer n) => "integer `" ++ toString n ++ "`"
  | .number (.float x) => "floating point `" ++ x.text ++ "`"
  | .text s => "string " ++ Text.quoted s
  | .list => "sequence"
  | .object => "map"

/-- Why a tree does not have the wanted shape. -/
inductive ShapeError where
  | type (found : Found) (wanted : String)
  | value (found : Found) (wanted : String)
  | length (found : Nat) (wanted : String)
  | missing (field : String)
  | guid (error : GuidError)
deriving DecidableEq, Repr

/-- The text of the error. -/
def ShapeError.message : ShapeError → String
  | .type found wanted => "invalid type: " ++ found.words ++ ", expected " ++ wanted
  | .value found wanted => "invalid value: " ++ found.words ++ ", expected " ++ wanted
  | .length n wanted => "invalid length " ++ toString n ++ ", expected " ++ wanted
  | .missing field => "missing field `" ++ field ++ "`"
  | .guid e => "UUID parsing failed: " ++ e.message

end UnitBake
