/-
# Faults of unit content

`CompileError` of the specification (section 7).

Everything that can be wrong with the content that is baked.  A fault belongs to one unit; it is
wrapped with the name of that unit once (`Fault.within`), and `Fault.root` looks through the wrapping.
-/
import UnitBake.Json.Reader
import UnitBake.Shape.Error

namespace UnitBake

/-- Why a text is not a unit document: it is no JSON, or JSON of another shape. -/
inductive DocumentError where
  | text (error : TextError)
  | shape (error : ShapeError)
deriving DecidableEq, Repr

/-- The text of the error. -/
def DocumentError.message : DocumentError → String
  | .text e => e.message
  | .shape e => e.message

/-- Why the content of a file cannot be had. -/
inductive ReadError where
  | notUtf8
  | system (words : String)
deriving DecidableEq, Repr

/-- The text of the error. -/
def ReadError.message : ReadError → String
  | .notUtf8 => "stream did not contain valid UTF-8"
  | .system words => words

/-- What is wrong with the content of a unit. -/
inductive Fault where
  | unknownType (name : String)
  | unknownVariant (kind name : String)
  | missingResource (kind name : String)
  | prefabTooDeep (path : String) (limit : Nat)
  | malformedKey (key : String) (error : GuidError)
  | document (path : String) (error : DocumentError)
  | componentData (component : String) (error : ShapeError)
  | unreadable (path : String) (error : ReadError)
  | inUnit (unit : String) (fault : Fault)
deriving DecidableEq, Repr

namespace Fault

/-- The text of the fault, which ends with the text of its cause. -/
def message : Fault → String
  | .unknownType name => "unknown component type: '" ++ name ++ "'"
  | .unknownVariant kind name => "unknown " ++ kind ++ " type: '" ++ name ++ "'"
  | .missingResource kind name => kind ++ " resource does not exist: '" ++ name ++ "'"
  | .prefabTooDeep path limit =>
    "prefab chain starting at '" ++ path ++ "' exceeds maximum depth of " ++ toString limit
  | .malformedKey key e => "malformed component id '" ++ key ++ "': " ++ e.message
  | .document path e => "invalid unit document '" ++ path ++ "': " ++ e.message
  | .componentData component e =>
    "invalid data for component '" ++ component ++ "': " ++ e.message
  | .unreadable path e => "failed to read '" ++ path ++ "': " ++ e.message
  | .inUnit unit fault => "failed to compile unit " ++ unit ++ ": " ++ fault.message

/-- The fault without the units it was wrapped with. -/
def root : Fault → Fault
  | .inUnit _ fault => fault.root
  | fault => fault

/-- Names the unit a fault belongs to, unless it has one already. -/
def within (unit : String) : Fault → Fault
  | .inUnit u fault => .inUnit u fault
  | fault => .inUnit unit fault

/-- The texts of the causes of a fault, the nearest first. -/
def causes : Fault → List String
  | .malformedKey _ e => [e.message]
  | .document _ e => [e.message]
  | .componentData _ e => [e.message]
  | .unreadable _ e => [e.message]
  | .inUnit _ fault => fault.message :: fault.causes
  | _ => []

/-- The texts of a fault and of its causes. -/
def chain (fault : Fault) : List String := fault.message :: fault.causes

/-- Naming a unit does not change the root. -/
@[simp] theorem root_within (unit : String) (fault : Fault) :
    (fault.within unit).root = fault.root := by
  cases fault <;> rfl

/-- A fault is named once: the innermost unit stays. -/
@[simp] theorem within_within (a b : String) (fault : Fault) :
    (fault.within a).within b = fault.within a := by
  cases fault <;> rfl

end Fault

end UnitBake
