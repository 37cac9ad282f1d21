/-
# File systems

What `DirectorySource` reads from and `engine_unitc` writes to (specification, section 6).

A file system is a file tree seen from its top, with a working directory that relative paths start
from.  Paths are followed segment by segment: empty segments and `.` stay where they are, `..` goes up
(the top is above itself), and every other segment is an entry of the directory that has been reached.
Behind a regular file or a missing entry a path leads nowhere.  Names and paths have a greatest size,
and what is longer leads nowhere either.

`FileSystem.find?` looks a path up, and `FileSystem.write` writes a file.  The last name of a path that
is written to need not be there yet; a slash behind it asks for a directory, which cannot be written.
A file that the system refuses to open is refused for writing as it is for reading.
-/
import UnitBake.Bytes.Utf8
import UnitBake.Source.FileTree

namespace UnitBake

/-- A file tree and the names that lead from its top to the working directory. -/
structure FileSystem where
  top : FileTree
  working : List String

/-- Why a path leads nowhere, or why no file can be written there. -/
inductive PathError where
  | notFound
  | notDirectory
  | isDirectory
  | tooLong
  | refused (words : String)
deriving DecidableEq, Repr

/-- The words of the system for the error. -/
def PathError.message : PathError → String
  | .notFound => "No such file or directory (os error 2)"
  | .notDirectory => "Not a directory (os error 20)"
  | .isDirectory => "Is a directory (os error 21)"
  | .tooLong => "File name too long (os error 36)"
  | .refused words => words

/-- The greatest size of a name in bytes. -/
def nameLimit : Nat := 255

/-- The greatest size of a path in bytes. -/
def pathLimit : Nat := 4095

namespace FileSystem

/-! ## 1. Following a path

Places are given by the names that lead there from the top, the last one first. -/

/-- The entries of the directory at a place. -/
def entriesAt (fs : FileSystem) (place : List String) :
    Except PathError (List (String × FileTree)) :=
  match fs.top.descend? place.reverse with
  | none => .error .notFound
  | some (.file _) => .error .notDirectory
  | some (.directory entries) => .ok entries

/-- The place that one segment leads to. -/
def step (fs : FileSystem) (place : List String) (segment : String) :
    Except PathError (List String) :=
  match fs.entriesAt place with
  | .error e => .error e
  | .ok entries =>
    if segment = "" ∨ segment = "." then .ok place
    else if segment = ".." then .ok place.tail
    else if nameLimit < utf8Size segment then .error .tooLong
    else if (entries.lookup segment).isSome then .ok (segment :: place)
    else .error .notFound

/-- The place that segments lead to, one after the other. -/
def follow (fs : FileSystem) : List String → List String → Except PathError (List String)
  | place, [] => .ok place
  | place, s :: rest =>
    match fs.step place s with
    | .error e => .error e
    | .ok place => follow fs place rest

/-- The place that a path starts from. -/
def start (fs : FileSystem) (path : String) : List String :=
  if isAbsolute path then [] else fs.working.reverse

/-- Segments are followed one list after the other. -/
theorem follow_append (fs : FileSystem) (place a b : List String) :
    fs.follow place (a ++ b) = fs.follow place a >>= fun reached => fs.follow reached b := by
  induction a generalizing place with
  | nil => rfl
  | cons s rest ih =>
    rw [List.cons_append, follow, follow]
    cases fs.step place s with
    | error e => rfl
    | ok reached => exact ih reached

/-! ## 2. Reading and writing -/

/-- What is found under a path. -/
def find? (fs : FileSystem) (path : String) : Option FileTree :=
  if path = "" ∨ pathLimit < utf8Size path then none
  else
    match fs.follow (fs.start path) (segments path) with
    | .ok place => fs.top.descend? place.reverse
    | .error _ => none

/-- The regular files of the file system, those that cannot be read among them. -/
def files (fs : FileSystem) : FileLookup := fun path =>
  match fs.find? path with
  | some (.file content) => some content
  | _ => none

/-- Writes a file by its name in the directory at a place, replacing one that is there if the system
opens it. -/
def writeAt (fs : FileSystem) (place : List String) (name : String) (content : List UInt8) :
    Except PathError FileSystem :=
  match fs.entriesAt place with
  | .error e => .error e
  | .ok entries =>
    if nameLimit < utf8Size name then .error .tooLong
    else
      match entries.lookup name with
      | some (.directory _) => .error .isDirectory
      | some (.file (.unreadable words)) => .error (.refused words)
      | _ => .ok { fs with top := .put (.file (.bytes content)) (place.reverse ++ [name]) fs.top }

/-- Writes a file, replacing one that is there.  Its directory must exist. -/
def write (fs : FileSystem) (path : String) (content : List UInt8) :
    Except PathError FileSystem :=
  if pathLimit < utf8Size path then .error .tooLong
  else
    match (segments path).reverse.dropWhile (· = "") with
    | [] => .error (if path = "" then .notFound else .isDirectory)
    | name :: before =>
      match fs.follow (fs.start path) before.reverse with
      | .error e => .error e
      | .ok place =>
        match fs.entriesAt place with
        | .error e => .error e
        | .ok _ =>
          if endsInSlash path ∨ name = "." ∨ name = ".." then .error .isDirectory
          else fs.writeAt place name content

/-- What was written in a directory is found there. -/
theorem descend?_of_writeAt {fs after : FileSystem} {place : List String} {name : String}
    {content : List UInt8} (h : fs.writeAt place name content = .ok after) :
    after.top.descend? (place.reverse ++ [name]) = some (.file (.bytes content)) := by
  unfold writeAt at h
  split at h
  · cases h
  · split at h
    · cases h
    · split at h
      · cases h
      · cases h
      · cases h
        exact FileTree.descend?_put _ _ _

end FileSystem

end UnitBake
