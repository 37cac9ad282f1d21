/-
# File trees

The directories and files that `DirectorySource` and `engine_unitc` of the specification (section 6)
find.

A directory tree held in memory.  A place in it is given by the names of the entries that lead there
from the top.  A file is there with its content, or with the words that the system refuses it with.
-/
import UnitBake.Source.Directory

namespace UnitBake

/-- A regular file or a directory with its entries. -/
inductive FileTree where
  | file (content : FileContent)
  | directory (entries : List (String × FileTree))
deriving Inhabited

namespace FileTree

/-- Replaces or adds an entry. -/
def putEntry (name : String) (t : FileTree) : List (String × FileTree) → List (String × FileTree)
  | [] => [(name, t)]
  | e :: rest => if e.1 = name then (name, t) :: rest else e :: putEntry name t rest

/-- Puts a tree at the end of a path of entry names; missing directories are made. -/
def put (t : FileTree) : List String → FileTree → FileTree
  | [], _ => t
  | name :: rest, here =>
    let entries := match here with
      | .file _ => []
      | .directory entries => entries
    .directory (putEntry name (put t rest ((entries.lookup name).getD (.directory []))) entries)

/-- What is found behind a list of entry names. -/
def descend? : FileTree → List String → Option FileTree
  | here, [] => some here
  | .file _, _ :: _ => none
  | .directory entries, name :: rest =>
    match entries.lookup name with
    | none => none
    | some t => descend? t rest

/-- The entry that was put is found. -/
@[simp] theorem lookup_putEntry (name : String) (t : FileTree)
    (entries : List (String × FileTree)) : (putEntry name t entries).lookup name = some t := by
  induction entries with
  | nil => simp [putEntry]
  | cons e rest ih =>
    rw [putEntry]
    split
    · simp
    · next h =>
      have hne : (name == e.1) = false := by simpa using Ne.symm h
      rw [List.lookup_cons, hne]
      exact ih

/-- What was put at a place is found there. -/
@[simp] theorem descend?_put (t : FileTree) (names : List String) (here : FileTree) :
    (put t names here).descend? names = some t := by
  induction names generalizing here with
  | nil => simp [put, descend?]
  | cons name rest ih =>
    simp [put, descend?, ih]

end FileTree

end UnitBake
