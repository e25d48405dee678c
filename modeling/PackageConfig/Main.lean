import PackageConfig.CommandLine.Run

/-!
The program. It looks at the files that the arguments name, runs the command on
what it saw, writes the lockfile if the command made one, and prints.
-/

open PackageConfig PackageConfig.CommandLine

/-- The places that a path passes through, the last of which it leads to. -/
def placesAlong (place : Place) : List String → List Place
  | [] => []
  | segment :: segments =>
    let next :=
      if segment = "" ∨ segment = "." then place
      else if segment = ".." then place.dropLast
      else place ++ [segment]
    next :: placesAlong next segments

/-- The paths that arguments name, for reading or for writing. -/
def pathsOf (a : Arguments) : List String :=
  a.recipe.toList ++ a.profile.toList ++
    match a.command with
    | .lock output => [PathText.parent output, output]
    | .verify input => [input]
    | _ => []

/-- What stands at a place of the disk; what is neither file nor directory cannot
be read and counts as a directory. -/
def lookAt (place : Place) : IO (Option Item) := do
  try
    let path ← IO.FS.realPath (Volume.shown place)
    if (← path.metadata).type == .file then
      return some (.file (← IO.FS.readBinFile path))
    else return some .directory
  catch _ => return none

/-- A volume that knows what stands along some paths. -/
def snapshot (home : Place) (paths : List String) : IO Volume := do
  let mut volume := Volume.empty home
  for path in paths do
    let start := if PathText.isAbsolute path then [] else home
    for place in placesAlong start (PathText.segments path) do
      if let some item ← lookAt place then volume := volume.put place item
  return volume

/-- The first word of a file of the system, if it can be read. -/
def systemWord (path : String) : IO (Option String) := do
  try return some (Text.trim (← IO.FS.readFile path)) catch _ => return none

/-- What the system says about the machine. -/
def detectHost : IO Host := do
  let os ← systemWord "/proc/sys/kernel/ostype"
  let arch ← systemWord "/proc/sys/kernel/arch"
  return { os := os.bind Os.parse?, arch := arch.bind Arch.parse? }

/-- Write to the disk what a command wrote to the volume. -/
def store (before after : Volume) (command : Command) : IO Unit := do
  if let .lock output := command then
    if let .ok place := before.outputPlace output then
      if let some (.file bytes) := after.item? place then
        IO.FS.writeBinFile (Volume.shown place) bytes

/-- Run the command line; the exit code is 2 for arguments that are not
understood and 1 for a command that fails. -/
def main (arguments : List String) : IO UInt32 := do
  let some a := Arguments.parse? arguments
    | IO.eprintln "error: the arguments are not understood"
      return 2
  let home := (PathText.segments (← IO.currentDir).toString).filter (· ≠ "")
  let volume ← snapshot home (pathsOf a)
  let outcome := execute (← detectHost) volume a
  if outcome.failure.isNone then store volume outcome.volume a.command
  IO.print outcome.printed
  match outcome.failure with
  | none => return 0
  | some .usage => return 2
  | some (.fault fault) =>
    IO.eprintln s!"Error: {fault.message}"
    return 1
