/-
# The command

`engine_unitc` of the specification (sections 2 and 6): what a run does, and what it says of a
failure.

The command bakes all units that it is given into one blob, with the built-in component types, and
writes the blob only if every unit bakes.  What it does is a function of the files it finds:
`Command.bake` for what is to be written, `Command.run` for a whole run in a file system.
-/
import UnitBake.Baker
import UnitBake.Builtin.Types
import UnitBake.Command.Arguments
import UnitBake.Source.FileSystem

namespace UnitBake.Command

/-! ## 1. Baking -/

/-- The baker for a list of options and the files at hand. -/
def Options.baker (o : Options) (files : FileLookup) : Baker :=
  { registry := Builtin.registry
    source := (DirectorySource.mk o.sourceDirectory "unit" files).source
    prefabDepth := allowedPrefabDepth (o.prefabDepth.getD defaultPrefabDepth) }

/-- Bakes units in order, up to the first that fails. -/
def bakeUnits (b : Baker) (batch : Batch) : List String → Except Fault Batch
  | [] => .ok batch
  | name :: rest =>
    let outcome := b.bakePath batch name
    match outcome.failure with
    | some fault => .error fault
    | none => bakeUnits b outcome.batch rest

/-- The blob that the command is to write. -/
def bake (o : Options) (files : FileLookup) : Except Fault (List UInt8) :=
  let b := o.baker files
  (bakeUnits b .empty o.units).map fun batch => (b.finalize batch).result

/-! ## 2. What is told -/

/-- Why the command failed. -/
inductive Failure where
  | content (fault : Fault)
  | output (path : String) (words : String)

/-- What is said first. -/
def Failure.message : Failure → String
  | .content fault => fault.message
  | .output path _ => "failed to write " ++ path

/-- The causes, the nearest first. -/
def Failure.causes : Failure → List String
  | .content fault => fault.causes
  | .output _ words => [words]

/-- A text whose further lines are indented. -/
def indented (indent : String) (s : String) : String :=
  String.join (s.toList.map fun c => if c = '\n' then "\n" ++ indent else c.toString)

/-- A number in five columns. -/
def numberColumn (n : Nat) : String :=
  let s := toString n
  String.ofList (List.replicate (5 - s.length) ' ') ++ s

/-- Causes on lines of their own, numbered if there are several. -/
def causeLines (causes : List String) : String :=
  match causes with
  | [c] => "    " ++ indented "    " c ++ "\n"
  | _ =>
    String.join (causes.zipIdx.map fun (c, i) =>
      numberColumn i ++ ": " ++ indented "       " c ++ "\n")

/-- What is printed about a failure. -/
def Failure.report (f : Failure) : String :=
  "Error: " ++ f.message ++ "\n" ++
    if f.causes.isEmpty then "" else "\nCaused by:\n" ++ causeLines f.causes

/-! ## 3. A run -/

/-- How a run ended: the exit code, the failure if it is one of content or output, and the file
system after it. -/
structure Ended where
  exitCode : Nat
  failure : Option Failure
  fileSystem : FileSystem

/-- Runs the command in a file system. -/
def run (fs : FileSystem) (args : List String) : Ended :=
  match Request.ofArguments args with
  | .help => ⟨0, none, fs⟩
  | .misuse => ⟨2, none, fs⟩
  | .bake o =>
    match bake o fs.files with
    | .error fault => ⟨1, some (.content fault), fs⟩
    | .ok blob =>
      match fs.write o.output blob with
      | .ok after => ⟨0, none, after⟩
      | .error e => ⟨1, some (.output o.output e.message), fs⟩

end UnitBake.Command
