import PackageConfig.Fault
import PackageConfig.PathText

/-!
Files and directories as the commands see them: what stands at each place of one
tree, and the directory that relative paths start from.

A place is the list of names from the root. `locate` follows a written path to
its place, name by name: a file cannot be passed through, not even by a slash or
a dot behind it. `write` changes a volume at one place and nowhere else.
-/

namespace PackageConfig

/-- The names on the way from the root. -/
abbrev Place := List String

/-- What stands at a place. -/
inductive Item where
  | file (bytes : ByteArray)
  | directory

/-- A tree of files and directories with a working directory. -/
structure Volume where
  home : Place
  item? : Place → Option Item

namespace Volume

/-- The volume of which only the working directory, and the directories above
it, exist. -/
def empty (home : Place) : Volume where
  home := home
  item? place := if place.isPrefixOf home then some .directory else none

instance : Inhabited Volume := ⟨empty []⟩

/-- The volume with something else at one place. -/
def put (v : Volume) (place : Place) (item : Item) : Volume :=
  { v with item? := fun other => if other = place then some item else v.item? other }

/-- Whether a directory stands at a place. -/
def isDirectory (v : Volume) (place : Place) : Bool :=
  match v.item? place with
  | some .directory => true
  | _ => false

/-! ## Following paths -/

/-- The most bytes that a name may have. -/
def nameLimit : Nat := 255

/-- The most bytes that the absolute path of a place may have. -/
def pathLimit : Nat := 4095

/-- A place as an absolute path. -/
def shown (place : Place) : String :=
  "/" ++ Text.join "/" place

/-- Follow segments from a place. A place behind a file is refused for the length of
its path before it is refused for the file. -/
def walk (v : Volume) (place : Place) : List String → Except PathFault Place
  | [] => .ok place
  | segment :: segments =>
    if segment = "" ∨ segment = "." then do
      let reached ← v.walk place segments
      if v.isDirectory place then return reached else throw .notDirectory
    else if segment = ".." then
      if v.isDirectory place then v.walk place.dropLast segments else .error .notDirectory
    else if pathLimit < (shown (place ++ [segment])).utf8ByteSize then .error .nameTooLong
    else if !v.isDirectory place then .error .notDirectory
    else if nameLimit < segment.utf8ByteSize then .error .nameTooLong
    else
      match v.item? (place ++ [segment]) with
      | none => .error .missing
      | some _ => v.walk (place ++ [segment]) segments

/-- The place that a written path leads to, where something has to stand. -/
def locate (v : Volume) (path : String) : Except PathFault Place :=
  if path.toList.contains '\x00' then .error .zeroCharacter
  else if path = "" then .error .missing
  else if PathText.isAbsolute path then v.walk [] (PathText.segments path)
  else v.walk v.home (PathText.segments path)

/-! ## Reading and writing -/

/-- The bytes of the file that a path leads to, if they are not too many. -/
def read (v : Volume) (limit : Nat) (path : String) : Except Fault ByteArray := do
  match v.locate path with
  | .error cause => throw (.file (.unreachable path cause))
  | .ok place =>
    match v.item? place with
    | some (.file bytes) =>
      if limit < bytes.size then throw (.file (.tooLarge bytes.size limit))
      return bytes
    | _ => throw (.file (.notRegular path))

/-- The text of the file that a path leads to. -/
def readText (v : Volume) (limit : Nat) (path : String) : Except Fault String := do
  let bytes ← v.read limit path
  match String.fromUTF8? bytes with
  | some text => return text
  | none => throw (.invalidManifest (.notText path))

/-- The place that a path names for a file to be written, in a directory that exists. -/
def outputPlace (v : Volume) (path : String) : Except Fault Place := do
  let parent := PathText.parent path
  match v.locate parent with
  | .error cause => throw (.file (.noOutputDirectory parent cause))
  | .ok directory =>
    if !v.isDirectory directory then throw (.file (.outputBelowFile parent))
    match PathText.fileName? path with
    | none => throw (.file .noFileName)
    | some name => return directory ++ [name]

/-- Why nothing can be written at a place, if so. -/
def writeFault? (v : Volume) (place : Place) : Option PathFault :=
  let name := place.getLastD ""
  if name.toList.contains '\x00' then some .zeroCharacter
  else if nameLimit < name.utf8ByteSize ∨ pathLimit < (shown place).utf8ByteSize then
    some .nameTooLong
  else if v.isDirectory place then some .isDirectory
  else none

/-- Write a file; what stood at its place before is gone. -/
def write (v : Volume) (place : Place) (bytes : ByteArray) : Except Fault Volume :=
  match v.writeFault? place with
  | some cause => .error (.file (.notWritten cause))
  | none => .ok (v.put place (.file bytes))

end Volume

end PackageConfig
