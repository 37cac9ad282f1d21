/-
# Paths

The paths that `DirectorySource` of the specification (section 6) makes of names.

A path is a text whose segments are separated by slashes.  One that begins with a slash starts from
the top of the file system, every other one from the directory that it is looked up in.
-/
namespace UnitBake

/-- Whether a path begins with a slash. -/
def isAbsolute (path : String) : Bool := path.toList.head? == some '/'

/-- Whether a path ends in a slash. -/
def endsInSlash (path : String) : Bool := path.toList.getLast? == some '/'

/-- Appends a relative path to a directory; an absolute one stands for itself. -/
def joinPath (directory path : String) : String :=
  if isAbsolute path || directory.isEmpty then path
  else if endsInSlash directory then directory ++ path
  else directory ++ "/" ++ path

/-- Cuts a text at its slashes. -/
def cutAtSlashes : List Char → List (List Char)
  | [] => [[]]
  | c :: rest =>
    match cutAtSlashes rest with
    | [] => [[c]]
    | s :: more => if c = '/' then [] :: s :: more else (c :: s) :: more

/-- The segments of a path. -/
def segments (path : String) : List String := (cutAtSlashes path.toList).map String.ofList

end UnitBake
