/-
# Command-line arguments

The command line of `engine_unitc` of the specification (sections 6 and 9).

    [-s DIR | --source-dir DIR] (-o FILE | --output FILE) [--max-prefab-depth N] UNIT...

A long option takes its value from the next argument or from behind `=`; a short one also from what
follows its letter.  A value in an argument of its own may not begin with a hyphen, unless it is one
hyphen.  An option may be given once, and a path may not be empty.  Behind `--` everything is a unit.
Arguments are taken in order and the first fault decides; a request for help is answered as soon as it
is reached.
-/
namespace UnitBake.Command

/-- What the command is to do. -/
structure Options where
  sourceDirectory : String
  output : String
  prefabDepth : Option Nat
  units : List String
deriving DecidableEq, Repr

/-- What a list of arguments asks for. -/
inductive Request where
  | bake (options : Options)
  | help
  | misuse
deriving DecidableEq, Repr

/-- The options that take a value. -/
inductive OptionName where
  | sourceDirectory
  | output
  | prefabDepth
deriving DecidableEq, Repr

/-- What has been given so far; the units with the last one first. -/
structure Given where
  sourceDirectory : Option String := none
  output : Option String := none
  prefabDepth : Option Nat := none
  units : List String := []
deriving Repr

/-- A natural number of 64 bits in decimal digits, after a plus sign if there is one. -/
def readCount? (s : String) : Option Nat :=
  let digits := match s.toList with
    | '+' :: rest => rest
    | cs => cs
  if digits.isEmpty || digits.any (fun c => c.toNat < 48 || 57 < c.toNat) then none
  else
    let n := digits.foldl (fun n c => 10 * n + (c.toNat - 48)) 0
    if n < 0x10000000000000000 then some n else none

/-- Takes up the value of an option. -/
def Given.set? (g : Given) (option : OptionName) (value : String) : Option Given :=
  match option with
  | .sourceDirectory =>
    if g.sourceDirectory.isSome || value.isEmpty then none
    else some { g with sourceDirectory := some value }
  | .output =>
    if g.output.isSome || value.isEmpty then none else some { g with output := some value }
  | .prefabDepth =>
    if g.prefabDepth.isSome then none
    else (readCount? value).map fun n => { g with prefabDepth := some n }

/-- The option with a long name. -/
def longOption? (name : List Char) : Option OptionName :=
  if name = "source-dir".toList then some .sourceDirectory
  else if name = "output".toList then some .output
  else if name = "max-prefab-depth".toList then some .prefabDepth
  else none

/-- The option with a letter. -/
def shortOption? (c : Char) : Option OptionName :=
  if c = 's' then some .sourceDirectory else if c = 'o' then some .output else none

/-- Whether an argument can be the value of the option before it. -/
def isValue (arg : String) : Bool := arg.toList.head? != some '-' || arg == "-"

/-- What an argument is. -/
inductive Word where
  | unit (name : String)
  | separator
  | help
  | optionWith (option : OptionName) (value : String)
  | option (option : OptionName)
  | unknown
deriving DecidableEq, Repr

/-- Tells what an argument is by its letters. -/
def Word.of (arg : String) : Word :=
  match arg.toList with
  | ['-', '-'] => .separator
  | '-' :: '-' :: rest =>
    let name := rest.takeWhile (· ≠ '=')
    match longOption? name, rest.dropWhile (· ≠ '=') with
    | some o, [] => .option o
    | some o, _ :: value => .optionWith o (String.ofList value)
    | none, [] => if name = "help".toList then .help else .unknown
    | none, _ => .unknown
  | '-' :: c :: rest =>
    match shortOption? c, rest with
    | some o, [] => .option o
    | some o, '=' :: value => .optionWith o (String.ofList value)
    | some o, value => .optionWith o (String.ofList value)
    | none, _ => if c = 'h' then .help else .unknown
  | _ => .unit arg

/-- What is asked for once all arguments have been taken. -/
def Given.request (g : Given) : Request :=
  match g.output with
  | some output =>
    if g.units.isEmpty then .misuse
    else
      .bake ⟨g.sourceDirectory.getD ".", output, g.prefabDepth, g.units.reverse⟩
  | none => .misuse

/-- Takes the arguments up one by one. -/
def Given.readAll (g : Given) : List String → Request
  | [] => g.request
  | arg :: rest =>
    match Word.of arg with
    | .unit name => readAll { g with units := name :: g.units } rest
    | .separator => ({ g with units := rest.reverse ++ g.units } : Given).request
    | .help => .help
    | .unknown => .misuse
    | .optionWith o value =>
      match g.set? o value with
      | some g => readAll g rest
      | none => .misuse
    | .option o =>
      match rest with
      | value :: rest =>
        if isValue value then
          match g.set? o value with
          | some g => readAll g rest
          | none => .misuse
        else .misuse
      | [] => .misuse

/-- What a list of arguments asks for. -/
def Request.ofArguments (args : List String) : Request := Given.readAll {} args

end UnitBake.Command
