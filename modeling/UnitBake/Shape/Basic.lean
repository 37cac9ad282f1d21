/-
# Reading simple values from trees

How the document model and the encoders of the specification (sections 3 and 4.5) read single
values.

Each reader takes a tree to a value of its type or to the first thing that is wrong, in the order in
which the tree is written.
-/
import UnitBake.Shape.Error

namespace UnitBake.Shape

/-- A tree of another kind was wanted. -/
def mismatch {α : Type} (v : Json) (wanted : String) : Except ShapeError α :=
  .error (.type (.of v) wanted)

/-- Reads a text. -/
def text : Json → Except ShapeError String
  | .text s => .ok s
  | v => mismatch v "a string"

/-- Reads a truth value. -/
def bool : Json → Except ShapeError Bool
  | .bool b => .ok b
  | v => mismatch v "a boolean"

/-- Reads an integer of 32 bits without sign. -/
def word : Json → Except ShapeError UInt32
  | .number (.integer n) =>
    if 0 ≤ n ∧ n < 0x100000000 then .ok (UInt32.ofNat n.toNat)
    else .error (.value (.number (.integer n)) "u32")
  | v => mismatch v "u32"

/-- Reads a number as a 32-bit floating-point number, rounding it once. -/
def single : Json → Except ShapeError Binary32
  | .number (.integer n) => .ok (.ofInt n)
  | .number (.float x) => .ok x.toBinary32
  | v => mismatch v "f32"

/-- Reads an identifier. -/
def guid : Json → Except ShapeError Guid
  | .text s => (Guid.read s).mapError .guid
  | v => mismatch v "a formatted UUID string"

/-- Takes any tree as it is. -/
def any (v : Json) : Except ShapeError Json := .ok v

/-- Reads null as nothing. -/
def optional {α : Type} (read : Json → Except ShapeError α) : Json → Except ShapeError (Option α)
  | .null => .ok none
  | v => (read v).map some

/-- Reads all items in order. -/
def items {α : Type} (read : Json → Except ShapeError α) : List Json → Except ShapeError (List α)
  | [] => .ok []
  | v :: rest => do
    let x ← read v
    let xs ← items read rest
    return x :: xs

/-- Reads a list of any length. -/
def list {α : Type} (read : Json → Except ShapeError α) : Json → Except ShapeError (List α)
  | .list vs => items read vs
  | v => mismatch v "a sequence"

/-- Reads members in order into a table. -/
def members {α : Type} (read : Json → Except ShapeError α) (t : Table String α) :
    List (String × Json) → Except ShapeError (Table String α)
  | [] => .ok t
  | (k, v) :: rest => do
    let x ← read v
    members read (t.insert k x) rest

/-- Reads an object with any keys. -/
def table {α : Type} (read : Json → Except ShapeError α) :
    Json → Except ShapeError (Table String α)
  | .object ms => members read .empty ms
  | v => mismatch v "a map"

/-- The words for too long a list. -/
def fewer : String := "fewer elements in array"

/-- The words for a list of `n` floating-point numbers. -/
def vectorWords (n : Nat) : String := "a sequence of " ++ toString n ++ " f32 values"

/-- Reads a list of exactly `n` floating-point numbers.  A bad item comes before a bad length. -/
def singles (n : Nat) : Json → Except ShapeError (Vector Binary32 n)
  | .list vs => do
    let xs ← items single (vs.take n)
    if h : xs.length = n then
      if n < vs.length then .error (.length vs.length fewer)
      else return ⟨xs.toArray, by simpa using h⟩
    else .error (.length vs.length (vectorWords n))
  | v => mismatch v (vectorWords n)

end UnitBake.Shape
