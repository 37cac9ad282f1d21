/-
# Reading records from trees

How the document model and the encoders of the specification (sections 3 and 4.5) read records.

A record is described by its fields in declaration order.  It is read from an object or from a list.

* From an **object**, the members are taken in their order; a member that is no field is passed over,
  and the first bad value is the error.  Then the fields without a value get their defaults, and the
  first that has none is missing.
* From a **list**, the items are the fields in declaration order.  Fields past the end of the list get
  their defaults, and a list with items left over is too long.
-/
import UnitBake.Shape.Basic

namespace UnitBake.Shape

/-- A field of a record: its name, the reader of its values, and the value it has if none is given. -/
structure Field where
  name : String
  type : Type
  read : Json → Except ShapeError type
  default : Option type

/-- A field that must be given. -/
def required (name : String) {α : Type} (read : Json → Except ShapeError α) : Field :=
  ⟨name, α, read, none⟩

/-- A field that may be left out. -/
def defaulted (name : String) {α : Type} (read : Json → Except ShapeError α) (default : α) : Field :=
  ⟨name, α, read, some default⟩

/-- A value for every field. -/
def Values : List Field → Type
  | [] => Unit
  | f :: fs => f.type × Values fs

/-- For every field a value or none yet. -/
def Slots : List Field → Type
  | [] => Unit
  | f :: fs => Option f.type × Slots fs

/-- No values yet. -/
def Slots.empty : (fields : List Field) → Slots fields
  | [] => ()
  | _ :: fs => (none, Slots.empty fs)

/-- Reads a member into the slot of its field. -/
def Slots.store (key : String) (v : Json) :
    (fields : List Field) → Slots fields → Except ShapeError (Slots fields)
  | [], _ => .ok ()
  | f :: fs, (x, rest) =>
    if f.name = key then
      match f.read v with
      | .ok y => .ok (some y, rest)
      | .error e => .error e
    else
      match Slots.store key v fs rest with
      | .ok rest => .ok (x, rest)
      | .error e => .error e

/-- Reads all members into their slots. -/
def Slots.storeAll (fields : List Field) :
    List (String × Json) → Slots fields → Except ShapeError (Slots fields)
  | [], s => .ok s
  | (k, v) :: rest, s =>
    match Slots.store k v fields s with
    | .ok s => Slots.storeAll fields rest s
    | .error e => .error e

/-- The values in the slots, with defaults for those that are empty. -/
def Slots.values : (fields : List Field) → Slots fields → Except ShapeError (Values fields)
  | [], _ => .ok ()
  | f :: fs, (x, rest) =>
    match x.or f.default with
    | none => .error (.missing f.name)
    | some y =>
      match Slots.values fs rest with
      | .ok ys => .ok (y, ys)
      | .error e => .error e

/-- The words for a record and its number of fields. -/
def recordWords (record : String) (count : Nat) : String :=
  "struct " ++ record ++ " with " ++ toString count ++ if count = 1 then " element" else " elements"

/-- The values of the fields from position `i` on, from the items that are left.  The record has
`count` fields and the list `size` items. -/
def fromItems (record : String) (count size : Nat) :
    Nat → (fields : List Field) → List Json → Except ShapeError (Values fields)
  | _, [], [] => .ok ()
  | _, [], _ :: _ => .error (.length size fewer)
  | i, f :: fs, [] =>
    match f.default with
    | none => .error (.length i (recordWords record count))
    | some y =>
      match fromItems record count size (i + 1) fs [] with
      | .ok ys => .ok (y, ys)
      | .error e => .error e
  | i, f :: fs, v :: rest =>
    match f.read v with
    | .error e => .error e
    | .ok y =>
      match fromItems record count size (i + 1) fs rest with
      | .ok ys => .ok (y, ys)
      | .error e => .error e

/-- Reads the values of a record's fields. -/
def values (name : String) (fields : List Field) : Json → Except ShapeError (Values fields)
  | .object ms =>
    match Slots.storeAll fields ms (Slots.empty fields) with
    | .ok s => Slots.values fields s
    | .error e => .error e
  | .list vs => fromItems name fields.length vs.length 0 fields vs
  | v => mismatch v ("struct " ++ name)

end UnitBake.Shape
