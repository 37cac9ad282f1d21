/-
# The program

`engine_unitc` of the specification (section 6) as it runs: its arguments, the disk and its exit code.

Files are looked up on the disk as baking asks for them: a unit is baked from the files known so far,
and if it stops at a resource that was never looked for, that file is looked for and the unit is baked
again.  A unit that fails leaves nothing behind, so the repetition does not show.
-/
import UnitBake.Command.Run

namespace UnitBake.Program

/-- The words of the system for a failure. -/
def systemWords (e : IO.Error) : String :=
  let numbered (words : String) (code : UInt32) : String :=
    words ++ " (os error " ++ toString code.toNat ++ ")"
  match e with
  | .noFileOrDirectory _ code words => numbered words code
  | .inappropriateType _ code words => numbered words code
  | .permissionDenied _ code words => numbered words code
  | .invalidArgument _ code words => numbered words code
  | .resourceExhausted _ code words => numbered words code
  | e => toString e

/-- The regular file at a path of the disk. -/
def lookOnDisk (path : String) : IO (Option FileContent) := do
  try
    return some (.bytes (← IO.FS.readBinFile path).toList)
  catch
    | .permissionDenied f code words =>
      return some (.unreadable (systemWords (.permissionDenied f code words)))
    | _ => return none

/-- Bakes a unit, looking up files on the way. -/
partial def bakeUnit (options : Command.Options)
    (known : List (String × Option FileContent)) (batch : Batch) (name : String) :
    IO (List (String × Option FileContent) × Baker.Outcome (Option Fault)) := do
  let baker := options.baker fun path => (known.lookup path).getD none
  let outcome := baker.bakePath batch name
  match outcome.failure.map Fault.root with
  | some (.missingResource kind resource) =>
    let path := joinPath options.sourceDirectory (resource ++ "." ++ kind)
    match known.lookup path with
    | some _ => return (known, outcome)
    | none => bakeUnit options ((path, ← lookOnDisk path) :: known) batch name
  | _ => return (known, outcome)

/-- Bakes units in order, up to the first that fails. -/
def bakeUnits (options : Command.Options) :
    List (String × Option FileContent) → Batch → List String → IO (Except Fault Batch)
  | _, batch, [] => return .ok batch
  | known, batch, name :: rest => do
    let (known, outcome) ← bakeUnit options known batch name
    match outcome.failure with
    | some fault => return .error fault
    | none => bakeUnits options known outcome.batch rest

/-- Reports a failure. -/
def fail (failure : Command.Failure) : IO UInt32 := do
  IO.eprint failure.report
  return 1

/-- How the program is used. -/
def usage : String :=
  String.intercalate "\n"
    ["Bakes units into one resource.",
     "",
     "Usage: unitbake [OPTIONS] --output FILE UNIT...",
     "",
     "  -s, --source-dir DIR      where units and resources are found; default: .",
     "  -o, --output FILE         where the resource is written",
     "      --max-prefab-depth N  how many documents a unit may inherit through; default: 4",
     "  -h, --help                print this help",
     ""]

end UnitBake.Program

open UnitBake in
/-- Bakes the units named on the command line. -/
def main (args : List String) : IO UInt32 := do
  match Command.Request.ofArguments args with
  | .help =>
    IO.print Program.usage
    return 0
  | .misuse =>
    IO.eprint Program.usage
    return 2
  | .bake options =>
    match ← Program.bakeUnits options [] .empty options.units with
    | .error fault => Program.fail (.content fault)
    | .ok batch =>
      let blob := ((options.baker fun _ => none).finalize batch).result
      try
        IO.FS.writeBinFile options.output ⟨blob.toArray⟩
        return 0
      catch e => Program.fail (.output options.output (Program.systemWords e))
