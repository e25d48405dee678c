import PackageConfig.Blake3
import PackageConfig.CommandLine.Arguments
import PackageConfig.CommandLine.Report
import PackageConfig.Lock.File
import PackageConfig.Manifest.Data
import PackageConfig.Text.Hex
import PackageConfig.Volume

/-!
Running a command. A run reads the files that its arguments name, prints, and
may fail; only `lock` writes, and it writes one file as its last step.
-/

namespace PackageConfig.CommandLine

/-! ## Outcomes -/

/-- Why a run fails. -/
inductive Failure where
  /-- The arguments are not understood. -/
  | usage
  | fault (cause : Fault)
  deriving DecidableEq, Inhabited

/-- What a run leaves behind: what it printed, why it failed if it did, and the
files as they are then. -/
structure Outcome where
  printed : String
  failure : Option Failure
  volume : Volume

/-- What a command that writes no file prints, and the fault that it ends with if
there is one. -/
abbrev Printed := String × Option Fault

/-- Print and succeed. -/
def print (text : String) : Except Fault Printed :=
  .ok (text, none)

/-- Print data as JSON and succeed. -/
def printData (d : Data) : Except Fault Printed :=
  print (d.toJson ++ "\n")

/-! ## What a run starts from -/

/-- The most bytes of a recipe or profile. -/
def textLimit : Nat := 1024 * 1024

/-- The most bytes of a lockfile. -/
def lockLimit : Nat := 16 * 1024 * 1024

/-- The recipe of a manifest file. -/
def readRecipe (v : Volume) (path : String) : Except Fault Recipe := do
  let text ← v.readText textLimit path
  let manifest ← readTables path (Manifest.ofData? .toml) text
  manifest.toRecipe

/-- The recipe that the arguments name, or the built-in one. -/
def recipeOf (v : Volume) (a : Arguments) : Except Fault Recipe :=
  match a.recipe with
  | some path => readRecipe v path
  | none => Recipe.builtIn

/-- The profile that the arguments name, if they name one. -/
def profileOf (v : Volume) (a : Arguments) : Except Fault (Option Profile) :=
  match a.profile with
  | some path => do
    let text ← v.readText textLimit path
    return some (← Profile.parse text)
  | none => .ok none

/-- Resolve what the arguments ask for. -/
def resolutionOf (host : Host) (v : Volume) (a : Arguments) (recipe : Recipe) :
    Except Fault Resolution := do
  let profile ← profileOf v a
  let request ← recipe.request profile a.options
  let settings := (profile.map Profile.settings).getD {}
  let platform ← Platform.select host a.platform settings
  recipe.resolve platform request

/-- The recipe and the resolution of the arguments. -/
def resolveArguments (host : Host) (v : Volume) (a : Arguments) :
    Except Fault (Recipe × Resolution) := do
  let recipe ← recipeOf v a
  let resolution ← resolutionOf host v a recipe
  return (recipe, resolution)

/-! ## Commands that only print -/

/-- Print the whole resolution. -/
def printResolution (host : Host) (v : Volume) (a : Arguments) : Except Fault Printed := do
  let (recipe, r) ← resolveArguments host v a
  if a.json then printData r.toData else print (summary recipe r)

/-- Print the declared options, for which nothing is resolved. -/
def printOptions (v : Volume) (a : Arguments) : Except Fault Printed := do
  let recipe ← recipeOf v a
  let declarations := recipe.catalog.declarations
  if a.json then printData (.list (declarations.map Declaration.toData))
  else print (listing declarations)

/-- Print the pins, one to a line. -/
def printPins (host : Host) (v : Volume) (a : Arguments) : Except Fault Printed := do
  let (_, r) ← resolveArguments host v a
  if a.json then printData r.pins.toData
  else print (lines (r.pins.toList.map Pin.shown))

/-- Print the variable table in the chosen format. -/
def printVariables (host : Host) (v : Volume) (a : Arguments) (format : TableFormat) :
    Except Fault Printed := do
  let (recipe, r) ← resolveArguments host v a
  match if a.json then .json else format with
  | .json => printData (Variables.toData r.table)
  | .args => print (lines (recipe.variableRules.arguments r.table))
  | .cmake => print (recipe.variableRules.cmakeScript r.table)

/-- Print the state of every option and why it was removed. -/
def printExplanation (host : Host) (v : Volume) (a : Arguments) : Except Fault Printed := do
  let (recipe, r) ← resolveArguments host v a
  if a.json then printData r.config.toData
  else
    let options ← explanationLines r.config recipe.catalog.declarations
    print (lines (s!"Platform: {r.platform.shown}" :: options))

/-- Compare a lockfile with the resolution. A difference is a fault, but what it
is about is printed as data all the same. -/
def printVerdict (host : Host) (v : Volume) (a : Arguments) (input : String) :
    Except Fault Printed := do
  let bytes ← v.read lockLimit input
  let (_, r) ← resolveArguments host v a
  match Lock.ofBytes bytes.data.toList with
  | .error cause => throw (.invalidLock cause)
  | .ok lock =>
    let agrees : Bool := lock = .ofResolution r
    let verdict := Data.table [("matches", .switch agrees),
      ("locked_platform", .text lock.platform), ("current_platform", .text r.platform.shown)]
    let text :=
      if a.json then verdict.toJson ++ "\n"
      else if agrees then "Lockfile matches current resolution\n" else ""
    return (text, if agrees then none else some (.lockMismatch input))

/-- Print the checksum and the digest of the lockfile. -/
def printHash (host : Host) (v : Volume) (a : Arguments) : Except Fault Printed := do
  let (_, r) ← resolveArguments host v a
  let checksum := (Lock.ofResolution r).checksum.toNat
  let digest := Text.hex (Blake3.hash (← r.lockFile))
  if a.json then
    printData (.table [("checksum", .nat checksum), ("blake3", .text digest)])
  else print (lines [s!"Checksum: {checksum}", s!"BLAKE3:   {digest}"])

/-! ## The command that writes -/

/-- Write the lockfile of the resolution, and print where it went. -/
def writeLock (host : Host) (v : Volume) (a : Arguments) (output : String) :
    Except Fault (String × Volume) := do
  let place ← v.outputPlace output
  let (_, r) ← resolveArguments host v a
  let bytes ← r.lockFile
  let checksum := (Lock.ofResolution r).checksum.toNat
  let volume ← v.write place ⟨bytes.toArray⟩
  let path := Volume.shown place
  let text :=
    if a.json then
      (Data.table [("path", .text path), ("bytes", .nat bytes.length),
        ("checksum", .nat checksum)]).toJson ++ "\n"
    else lines [s!"Checksum: {checksum}", s!"Wrote {bytes.length} bytes to {path}"]
  return (text, volume)

/-! ## Runs -/

/-- The outcome of a command that leaves the files as they are. -/
def Outcome.ofPrinted (v : Volume) : Except Fault Printed → Outcome
  | .ok (printed, fault) => ⟨printed, fault.map .fault, v⟩
  | .error fault => ⟨"", some (.fault fault), v⟩

/-- The outcome of a command that writes if it succeeds. -/
def Outcome.ofWritten (v : Volume) : Except Fault (String × Volume) → Outcome
  | .ok (printed, volume) => ⟨printed, none, volume⟩
  | .error fault => ⟨"", some (.fault fault), v⟩

/-- Carry out what the arguments say. -/
def execute (host : Host) (v : Volume) (a : Arguments) : Outcome :=
  match a.command with
  | .resolve => .ofPrinted v (printResolution host v a)
  | .options => .ofPrinted v (printOptions v a)
  | .pins => .ofPrinted v (printPins host v a)
  | .table format => .ofPrinted v (printVariables host v a format)
  | .explain => .ofPrinted v (printExplanation host v a)
  | .lock output => .ofWritten v (writeLock host v a output)
  | .verify input => .ofPrinted v (printVerdict host v a input)
  | .hash => .ofPrinted v (printHash host v a)

/-- Run the command line. -/
def run (host : Host) (v : Volume) (arguments : List String) : Outcome :=
  match Arguments.parse? arguments with
  | some a => execute host v a
  | none => ⟨"", some .usage, v⟩

end PackageConfig.CommandLine
