/-
# Content in a directory

`DirectorySource` of the specification (section 6), with the unit extension of section 9.

Below a root directory the unit `name` is the file `name.unit`, holding JSON text, and a resource
`name` of some kind is the file `name.kind`.  The directory is given by what is found under each
path, so that one definition serves for a tree in memory and for a disk.
-/
import UnitBake.Bytes.Utf8
import UnitBake.Source.Basic
import UnitBake.Source.Path

namespace UnitBake

/-- The content of a regular file, or why it cannot be read. -/
inductive FileContent where
  | bytes (content : List UInt8)
  | unreadable (words : String)
deriving Repr

/-- The regular file at a path, if there is one. -/
abbrev FileLookup : Type := String → Option FileContent

/-- Units and resources as files below a root. -/
structure DirectorySource where
  root : String
  unitExtension : String
  files : FileLookup

namespace DirectorySource

/-- The path of a resource. -/
def path (d : DirectorySource) (kind name : String) : String :=
  joinPath d.root (name ++ "." ++ kind)

/-- The tree of a unit.  Faults of the file are told with its path. -/
def readUnit (d : DirectorySource) (name : String) : Except Fault Json :=
  let path := d.path d.unitExtension name
  match d.files path with
  | none => .error (.missingResource "unit" name)
  | some (.unreadable words) => .error (.unreadable path (.system words))
  | some (.bytes content) =>
    match ofUtf8? content with
    | none => .error (.unreadable path .notUtf8)
    | some text => (Json.read text).mapError fun e => .document path (.text e)

/-- Whether the file of a resource is there; units have their own extension. -/
def resourceExists (d : DirectorySource) (kind name : String) : Bool :=
  (d.files (d.path (if kind == "unit" then d.unitExtension else kind) name)).isSome

/-- The directory as a source. -/
def source (d : DirectorySource) : Source := ⟨d.readUnit, d.resourceExists⟩

end DirectorySource

end UnitBake
